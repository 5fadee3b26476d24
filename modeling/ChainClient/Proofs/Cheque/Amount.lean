import ChainClient.Proofs.Cheque.Layout

/-!
# `ChainClient.Proofs.Cheque.Amount` — amounts of any declared length

The byte in front of an amount says how many bytes follow, up to 255, while a word has 32. So zeros
may stand in front of the number, and what stands behind them may still be too much for a word. The
zeros are dropped first: what is left is the minimal form of the number, and it fits a word exactly
when it has at most 32 bytes.

## Contents
- **Numbers.** `amountOf_of_lt` and `amountOf_of_ge`: the bytes of an amount on either side of the
  bound of a word.
- **Steps.** `take_of_lt` and `take_of_le`: what a step takes from too few bytes, or from enough.
- **Amounts.** `readAmount_exact` puts the steps together.
-/

namespace ChainClient

namespace Cheque

/-! ## Numbers -/

/-- The bytes behind the zeros in front are the minimal form of the number. -/
theorem dropWhile_zero_eq_minimal (bs : Bytes) :
    bs.dropWhile (· == 0) = Bytes.minimal bs.value :=
  Bytes.eq_minimal_iff.mpr ⟨Bytes.value_dropWhile_zero bs, Bytes.head?_dropWhile_zero bs⟩

theorem amountOf_of_lt {bs : Bytes} (h : bs.value < 2 ^ 256) :
    amountOf bs = .ok (BitVec.ofNat 256 bs.value) := by
  apply amountOf_eq_ok_iff.mpr
  rw [BitVec.toNat_ofNat, Nat.mod_eq_of_lt h]

theorem amountOf_of_ge {bs : Bytes} (h : 2 ^ 256 ≤ bs.value) :
    amountOf bs = .error (.amountTooLong (Bytes.minimal bs.value).length) := by
  have hlong : 32 < (Bytes.minimal bs.value).length := by
    by_contra hshort
    have hlt : bs.value < 256 ^ 32 :=
      (Bytes.length_minimal_le_iff bs.value 32).mp (Nat.le_of_not_lt hshort)
    exact absurd h (Nat.not_le.mpr hlt)
  unfold amountOf
  simp only [dropWhile_zero_eq_minimal]
  exact if_pos hlong

/-! ## Steps -/

theorem take_of_lt {part : ChequePart} {n : Nat} {bs : Bytes} (h : bs.length < n) :
    (take part n).run bs = .error (.truncated part) := if_pos h

theorem take_of_le {part : ChequePart} {n : Nat} {bs : Bytes} (h : n ≤ bs.length) :
    (take part n).run bs = .ok (bs.take n, bs.drop n) := if_neg (Nat.not_lt.mpr h)

/-! ## Amounts -/

/-- **An amount is read exactly.** Without the byte that counts, and with fewer bytes behind it than
    it says, the bytes end too early. Otherwise these bytes are a big-endian number, whatever zeros
    stand in front of it. A number of at most 256 bits is the amount, and the reader goes on behind
    its last byte. A greater one is refused, with the count of bytes that its minimal form takes. -/
theorem readAmount_exact :
    readAmount.run [] = .error (.truncated .amountLength) ∧
    ∀ (length : UInt8) (behind : Bytes),
      (behind.length < length.toNat →
        readAmount.run (length :: behind) = .error (.truncated .amount)) ∧
      (length.toNat ≤ behind.length → ∀ v,
        v = Nat.ofDigits 256 ((behind.take length.toNat).reverse.map UInt8.toNat) →
        (v < 2 ^ 256 → ∃ amount : Word, amount.toNat = v ∧
          readAmount.run (length :: behind) =
            .ok (amount, (length :: behind).drop (length.toNat + 1))) ∧
        (2 ^ 256 ≤ v → readAmount.run (length :: behind) =
          .error (.amountTooLong (Bytes.minimal v).length))) := by
  refine ⟨rfl, fun length behind => ?_⟩
  -- behind the byte that counts, the steps depend on the bytes that are left
  have hsteps : readAmount.run (length :: behind) =
      (take .amount length.toNat >>= fun bs => liftM (amountOf bs)).run behind :=
    Outcome.run_bind_of_eq_ok (readByte_eq_ok_iff.mpr rfl) _
  rw [hsteps]
  refine ⟨fun hshort => Outcome.run_bind_of_eq_error (take_of_lt hshort) _, ?_⟩
  rintro hlong v hv
  rw [← Bytes.value_eq_ofDigits] at hv
  subst hv
  rw [Outcome.run_bind_of_eq_ok (take_of_le hlong)]
  constructor
  · intro hlt
    refine ⟨BitVec.ofNat 256 _, (BitVec.toNat_ofNat _ _).trans (Nat.mod_eq_of_lt hlt), ?_⟩
    rw [amountOf_of_lt hlt]
    rfl
  · intro hge
    rw [amountOf_of_ge hge]
    rfl

/-- The greatest word behind eight zeros, with two bytes behind it; the least number that is no
    word behind three zeros; and a byte that is missing. -/
theorem readAmount_exact_of_zeros :
    (∃ amount : Word, amount.toNat = 2 ^ 256 - 1 ∧
      readAmount.run (40 :: (List.replicate 8 0 ++ List.replicate 32 255 ++ [7, 9])) =
        .ok (amount, [7, 9])) ∧
    readAmount.run (36 :: (List.replicate 3 0 ++ 1 :: List.replicate 32 0)) =
      .error (.amountTooLong 33) ∧
    readAmount.run [2, 1] = .error (.truncated .amount) := by
  have hbytes : (Bytes.minimal (2 ^ 256)).length = 33 := by
    apply Nat.le_antisymm
    · exact (Bytes.length_minimal_le_iff _ 33).mpr (by decide)
    · refine Nat.lt_of_not_le fun hshort => ?_
      exact absurd ((Bytes.length_minimal_le_iff _ 32).mp hshort) (by decide)
  refine ⟨?_, ?_, (readAmount_exact.2 2 [1]).1 (by decide)⟩
  · exact ((readAmount_exact.2 40 _).2 (by decide) (2 ^ 256 - 1) (by decide +kernel)).1 (by decide)
  · rw [← hbytes]
    exact ((readAmount_exact.2 36 _).2 (by decide) (2 ^ 256) (by decide +kernel)).2 (by decide)

end Cheque

end ChainClient
