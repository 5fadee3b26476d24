import ChainClient.Proofs.Bytes.Number
import ChainClient.SignedWord

/-!
# `ChainClient.Proofs.TwosComplement` — words, their bytes and the integers they encode

## Contents
- **Bytes.** A word is read back from its 32 bytes (`Word.ofBytes_toBytes`), and 32 bytes from the
  word that they spell (`Word.toBytes_ofBytes`).
- **Encoding.** The word of a signed integer is the integer modulo `2 ^ 256` (`toNat_toWord`).
- **Widths.** `fitsIn_iff` says which integers fit a width. All of them fit 256 bits (`fitsIn_max`),
  and those are read back from their words (`ofWord_toWord`). Every word is the word of the integer
  that is read from it (`toWord_ofWord`).
-/

namespace ChainClient

theorem bitBound_eq (bits : Nat) : bitBound bits = 2 ^ bits := rfl

/-- More bits leave room for more numbers. -/
theorem bitBound_le {m n : Nat} (h : m ≤ n) : bitBound m ≤ bitBound n := by
  rw [bitBound_eq, bitBound_eq]
  exact Nat.pow_le_pow_right (by decide) h

namespace Word

/-! ## Bytes -/

theorem value_toBytes (w : Word) : Bytes.value w.toBytes = w.toNat := by
  rw [toBytes, Bytes.value_ofNat_of_lt]
  exact w.isLt

theorem ofBytes_toBytes (w : Word) : ofBytes w.toBytes = w := by
  rw [ofBytes, value_toBytes]
  simp

theorem toBytes_ofBytes {bs : Bytes} (h : bs.length = 32) : (ofBytes bs).toBytes = bs := by
  have hlt : Bytes.value bs < 2 ^ 256 := Bytes.value_lt_of_length h
  rw [toBytes, ofBytes, BitVec.toNat_ofNat, Nat.mod_eq_of_lt hlt]
  exact Bytes.ofNat_of_value_eq h rfl

@[simp] theorem length_toBytes (w : Word) : w.toBytes.length = 32 := Bytes.length_ofNat 32 w.toNat

end Word

namespace SignedWord

/-! ## Encoding -/

theorem magnitude_pos {i : SignedWord} (h : i.negative = true) : 0 < i.magnitude.toNat := by
  apply Nat.pos_of_ne_zero
  intro hzero
  have := i.zero_nonneg (BitVec.eq_of_toNat_eq hzero)
  rw [h] at this
  exact Bool.noConfusion this

/-- **Two's complement.** The word of an integer is the integer modulo `2 ^ 256`. -/
theorem toNat_toWord (i : SignedWord) : (i.toWord.toNat : Int) = i.toInt % (2 ^ 256 : Nat) := by
  have hlt := i.magnitude.isLt
  cases h : i.negative with
  | false =>
    simp only [toWord, toInt, h, Bool.false_eq_true, if_false]
    omega
  | true =>
    have hpos := magnitude_pos h
    simp only [toWord, toInt, h, if_true, BitVec.toNat_neg]
    omega

/-! ## Widths -/

/-- The powers of two below `2 ^ 256` are words with one bit. -/
theorem toNat_one_shiftLeft {bits : Nat} (h : bits < 256) :
    ((1 : Word) <<< bits).toNat = bitBound bits := by
  rw [BitVec.toNat_shiftLeft, show (1 : Word).toNat = 1 from rfl, Nat.one_shiftLeft]
  exact Nat.mod_eq_of_lt (Nat.pow_lt_pow_right (by decide) h)

/-- **Width.** An integer fits `bits` bits if it lies between the two powers of two. -/
theorem fitsIn_iff (i : SignedWord) (bits : Nat) :
    i.fitsIn bits = true ↔ (1 ≤ bits ∧ bits ≤ 256) ∧
      -(bitBound (bits - 1) : Int) ≤ i.toInt ∧ i.toInt < bitBound (bits - 1) := by
  have hpos := bitBound_pos (bits - 1)
  unfold fitsIn
  by_cases hbits : bits = 0 ∨ 256 < bits
  · rw [if_pos hbits]
    exact ⟨fun h => absurd h Bool.false_ne_true, fun h => by omega⟩
  · have hlimit : ((1 : Word) <<< (bits - 1)).toNat = bitBound (bits - 1) :=
      toNat_one_shiftLeft (by omega)
    rw [if_neg hbits]
    cases h : i.negative with
    | false =>
      simp only [toInt, h, Bool.false_eq_true, if_false, decide_eq_true_eq, BitVec.lt_def, hlimit]
      omega
    | true =>
      have := magnitude_pos h
      simp only [toInt, h, if_true, decide_eq_true_eq, BitVec.le_def, hlimit]
      omega

/-- What fits any width fits the greatest. -/
theorem fitsIn_max {i : SignedWord} {bits : Nat} (h : i.fitsIn bits = true) :
    i.fitsIn 256 = true := by
  rw [fitsIn_iff] at h ⊢
  have hle : bitBound (bits - 1) ≤ bitBound (256 - 1) := bitBound_le (by omega)
  omega

/-- **An integer of 256 bits is read back from its word.** -/
theorem ofWord_toWord {i : SignedWord} (h : i.fitsIn 256 = true) : ofWord i.toWord = i := by
  have hfits := ((fitsIn_iff i 256).mp h).2
  rw [bitBound_eq] at hfits
  obtain ⟨m, negative, hzero⟩ := i
  have hlt := m.isLt
  cases negative with
  | false =>
    have hmsb : m.msb = false := by
      rw [BitVec.msb_eq_decide, decide_eq_false_iff_not]
      simp only [toInt, Bool.false_eq_true, if_false] at hfits
      omega
    simp [toWord, ofWord, ofSign, hmsb]
  | true =>
    have hpos : 0 < m.toNat := magnitude_pos (i := ⟨m, true, hzero⟩) rfl
    have hmsb : (-m).msb = true := by
      rw [BitVec.msb_eq_decide, decide_eq_true_iff, BitVec.toNat_neg]
      simp only [toInt, if_true] at hfits
      omega
    have hne : ¬ m = 0#256 := fun he => by simp [he] at hpos
    simp [toWord, ofWord, ofSign, hmsb, hne]

/-- **A word is the word of the integer that is read from it.** -/
theorem toWord_ofWord (w : Word) : (ofWord w).toWord = w := by
  unfold ofWord
  split
  · next hmsb =>
    -- a word with its first bit set is not zero, so the sign of its magnitude counts
    have hne : w ≠ 0#256 := by
      rintro rfl
      exact absurd hmsb (by decide)
    simp [toWord, ofSign, hne]
  · simp [toWord, ofSign]

end SignedWord

end ChainClient
