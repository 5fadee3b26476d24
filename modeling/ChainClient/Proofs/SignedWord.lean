import ChainClient.Proofs.TwosComplement
import Mathlib.Data.Int.ModEq

/-!
# `ChainClient.Proofs.SignedWord` — signed words as integers

A signed word is a magnitude and a sign, and a word encodes one in two's complement. The two meet at
the ends of the range: `-2 ^ 255` has a magnitude that no positive integer of 256 bits has, zero has
one sign only, and from `2 ^ 255` on a magnitude still has an encoding, but that of another integer.

## Contents
- **Integers.** A signed word is determined by the integer it stands for (`toInt_inj`), and its sign
  says whether that is below zero (`negative_iff`). `ofSign` and `ofInt` make the integers that they
  are asked for.
- **Reading words.** `toInt_ofWord`: the integer that is read from a word is the signed value that
  the standard library gives its bits. It fits 256 bits, and it is the only one of those that is
  congruent to the word (`eq_toInt_ofWord_iff`).
- **Reading back.** `ofWord_toWord_iff`: exactly the integers of 256 bits survive being encoded.
- **The codec.** `twos_complement_exact`.
-/

namespace ChainClient

namespace SignedWord

/-! ## Integers -/

/-- The sign of a signed word is that of its integer; zero is not negative. -/
theorem negative_iff (i : SignedWord) : i.negative = true ↔ i.toInt < 0 := by
  unfold toInt
  cases h : i.negative with
  | false =>
    rw [if_neg Bool.false_ne_true]
    exact iff_of_false Bool.false_ne_true (by omega)
  | true =>
    have hpos := magnitude_pos h
    rw [if_pos rfl]
    exact iff_of_true rfl (by omega)

/-- The magnitude of a signed word is that of its integer. -/
theorem toNat_magnitude (i : SignedWord) : i.magnitude.toNat = i.toInt.natAbs := by
  unfold toInt
  split <;> omega

/-- **Each integer has one signed word.** -/
theorem toInt_inj {i j : SignedWord} : i.toInt = j.toInt ↔ i = j := by
  constructor
  · intro h
    have hmagnitude : i.magnitude = j.magnitude := by
      apply BitVec.eq_of_toNat_eq
      rw [toNat_magnitude, toNat_magnitude, h]
    have hnegative : i.negative = j.negative := by
      rw [Bool.eq_iff_iff, negative_iff, negative_iff, h]
    cases i
    cases j
    cases hmagnitude
    cases hnegative
    rfl
  · intro h
    rw [h]

/-- The sign that is asked for is given, but not to zero. -/
theorem negative_ofSign {m : Word} {sign : Bool} :
    (ofSign m sign).negative = true ↔ sign = true ∧ m ≠ 0 := by
  show (sign && m != 0) = true ↔ _
  rw [Bool.and_eq_true, bne_iff_ne]

theorem toInt_ofSign (m : Word) (sign : Bool) :
    (ofSign m sign).toInt = if sign then -(m.toNat : Int) else (m.toNat : Int) := by
  cases sign with
  | false => rfl
  | true =>
    by_cases hzero : m = 0
    · rw [hzero]
      rfl
    · have hsign := negative_ofSign.mpr ⟨rfl, hzero⟩
      rw [toInt, hsign]
      rfl

/-- An integer with a magnitude that fits a word is the one of its signed word. -/
theorem toInt_ofInt {n : Int} (h : n.natAbs < 2 ^ 256) : (ofInt n).toInt = n := by
  have hmagnitude : (BitVec.ofNat 256 n.natAbs).toNat = n.natAbs := by
    rw [BitVec.toNat_ofNat]
    exact Nat.mod_eq_of_lt h
  rw [ofInt, toInt_ofSign, hmagnitude]
  by_cases hneg : n < 0
  · rw [decide_eq_true hneg, if_pos rfl]
    omega
  · rw [decide_eq_false hneg, if_neg Bool.false_ne_true]
    omega

/-! ## Reading words -/

/-- **Reading.** The sign bit of a word takes `2 ^ 256` from its number. -/
theorem toInt_ofWord (w : Word) : (ofWord w).toInt = w.toInt := by
  have hlt := w.isLt
  rw [BitVec.toInt_eq_msb_cond]
  unfold ofWord
  split
  · next hmsb =>
    rw [BitVec.msb_eq_decide, decide_eq_true_iff] at hmsb
    rw [toInt_ofSign, if_pos rfl, BitVec.toNat_neg]
    omega
  · rw [toInt_ofSign, if_neg Bool.false_ne_true]

theorem fitsIn_ofWord (w : Word) : (ofWord w).fitsIn 256 = true := by
  have hlow : -2 ^ 255 ≤ w.toInt := BitVec.le_toInt w
  have hhigh : w.toInt < 2 ^ 255 := BitVec.toInt_lt
  rw [fitsIn_iff, toInt_ofWord, bitBound_eq]
  exact ⟨by decide, hlow, hhigh⟩

/-- The integer that is read from a word is congruent to it. -/
theorem toInt_ofWord_modEq (w : Word) : (ofWord w).toInt ≡ w.toNat [ZMOD 2 ^ 256] := by
  have hword := toNat_toWord (ofWord w)
  rw [toWord_ofWord] at hword
  show _ % _ = _ % _
  rw [hword]
  exact (Int.emod_emod _ _).symm

/-- **One integer of 256 bits** is congruent to a word. -/
theorem eq_toInt_ofWord_iff {w : Word} {n : Int} :
    n = (ofWord w).toInt ↔ -2 ^ 255 ≤ n ∧ n < 2 ^ 255 ∧ n ≡ w.toNat [ZMOD 2 ^ 256] := by
  have hfits := ((fitsIn_iff _ 256).mp (fitsIn_ofWord w)).2
  rw [bitBound_eq] at hfits
  have hcongruent := toInt_ofWord_modEq w
  constructor
  · rintro rfl
    exact ⟨hfits.1, hfits.2, hcongruent⟩
  · rintro ⟨hlow, hhigh, h⟩
    have hsame : n % 2 ^ 256 = (ofWord w).toInt % 2 ^ 256 := h.trans hcongruent.symm
    omega

/-! ## Reading back -/

/-- **Encoding loses what does not fit.** -/
theorem ofWord_toWord_iff {i : SignedWord} : ofWord i.toWord = i ↔ i.fitsIn 256 = true := by
  constructor
  · intro h
    rw [← h]
    exact fitsIn_ofWord i.toWord
  · exact ofWord_toWord

/-! ## The codec -/

/-- **Two's complement is exact.** A word is read as the one integer from `-2 ^ 255` to
    `2 ^ 255 - 1` that is congruent to it, and that integer is encoded as the word. A signed word is
    encoded as its integer modulo `2 ^ 256`, and read back exactly if it fits 256 bits. The widths
    are 1 to 256, and what fits one of them lies between two powers of two, the lower one included.
    Signed words are made with the magnitude and sign that they are asked for, but zero is never
    negative. -/
theorem twos_complement_exact :
    (∀ (w : Word) (n : Int),
      n = (ofWord w).toInt ↔ -2 ^ 255 ≤ n ∧ n < 2 ^ 255 ∧ n ≡ w.toNat [ZMOD 2 ^ 256]) ∧
    (∀ w : Word, (ofWord w).toWord = w) ∧
    (∀ i : SignedWord, (i.toWord.toNat : Int) = i.toInt % 2 ^ 256) ∧
    (∀ i : SignedWord, ofWord i.toWord = i ↔ i.fitsIn 256 = true) ∧
    (∀ (i : SignedWord) (bits : Nat), i.fitsIn bits = true ↔
      (1 ≤ bits ∧ bits ≤ 256) ∧ -2 ^ (bits - 1) ≤ i.toInt ∧ i.toInt < 2 ^ (bits - 1)) ∧
    (∀ (m : Word) (sign : Bool), (ofSign m sign).magnitude = m ∧
      ((ofSign m sign).negative = true ↔ sign = true ∧ m ≠ 0)) ∧
    (∀ n : Int, -2 ^ 127 ≤ n → n < 2 ^ 127 → (ofInt n).toInt = n) ∧
    ∀ i j : SignedWord, (i.negative = true ↔ i.toInt < 0) ∧ (i.toInt = j.toInt ↔ i = j) := by
  refine ⟨fun w n => eq_toInt_ofWord_iff, toWord_ofWord, toNat_toWord,
    fun i => ofWord_toWord_iff, fun i bits => ?_, fun m sign => ⟨rfl, negative_ofSign⟩,
    fun n hlow hhigh => toInt_ofInt (by omega), fun i j => ⟨negative_iff i, toInt_inj⟩⟩
  rw [fitsIn_iff, bitBound_eq, Nat.cast_pow, Nat.cast_ofNat]

/-- The least integer of 128 bits has a magnitude that no positive one has. -/
theorem twos_complement_exact_least :
    (-2 ^ 127 : Int) ≤ -2 ^ 127 ∧ (-2 ^ 127 : Int) < 2 ^ 127 ∧
      (ofInt (-2 ^ 127)).toInt = -2 ^ 127 := by
  have hlow : (-2 ^ 127 : Int) ≤ -2 ^ 127 := Int.le_refl _
  have hhigh : (-2 ^ 127 : Int) < 2 ^ 127 := by decide
  obtain ⟨-, -, -, -, -, -, hint, -⟩ := twos_complement_exact
  exact ⟨hlow, hhigh, hint _ hlow hhigh⟩

/-- At `2 ^ 255` a positive integer is encoded like the negative one of its magnitude. -/
example : (ofSign (BitVec.twoPow 256 255) false).toWord =
    (ofSign (BitVec.twoPow 256 255) true).toWord := by
  decide

end SignedWord

end ChainClient
