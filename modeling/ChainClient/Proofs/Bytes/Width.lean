import ChainClient.Proofs.Bytes.Number
import ChainClient.Word

/-!
# `ChainClient.Proofs.Bytes.Width` — what a width does to the number of a byte string

Three routines bring byte strings to a width. Padding never cuts, so it keeps the number. Fitting
cuts in front, so it keeps the number modulo the bound of the width. The digits of a text are cut or
padded by a test of their own, with the same result.

## Contents
- **Padding.** `value_padLeft`.
- **Fitting.** `value_fit`, for strings on either side of the width; `Hex.bareFit_eq`.
- **Words.** `Word.minimal_eq`: a word without its leading zeros is in minimal form.
- **All of them.** `widths_keep_number`.
-/

namespace ChainClient

namespace Bytes

/-! ## Padding -/

theorem value_padLeft (width : Nat) (bs : Bytes) : value (padLeft width bs) = value bs := by
  rw [padLeft, value_append, value_replicate_zero, Nat.zero_mul, Nat.zero_add]

/-! ## Fitting -/

/-- The last bytes of a string spell its number modulo their bound. -/
theorem value_drop (bs : Bytes) (count : Nat) :
    value (bs.drop count) = value bs % 256 ^ (bs.drop count).length := by
  have hsplit : value bs = value (bs.take count) * 256 ^ (bs.drop count).length +
      value (bs.drop count) := by
    rw [← value_append, List.take_append_drop]
  rw [hsplit, Nat.mul_add_mod', Nat.mod_eq_of_lt (value_lt _)]

theorem length_drop_of_le {bs : Bytes} {width : Nat} (h : width ≤ bs.length) :
    (bs.drop (bs.length - width)).length = width := by
  rw [List.length_drop, Nat.sub_sub_self h]

/-- **Fitting.** What stands in front of the last `width` bytes does not count. -/
theorem value_fit (width : Nat) (bs : Bytes) : value (fit width bs) = value bs % 256 ^ width := by
  rw [fit, value_padLeft]
  rcases Nat.le_total bs.length width with hshort | hlong
  · have hlt : value bs < 256 ^ width :=
      Nat.lt_of_lt_of_le (value_lt bs) (Nat.pow_le_pow_right (by decide) hshort)
    rw [Nat.sub_eq_zero_of_le hshort, List.drop_zero, Nat.mod_eq_of_lt hlt]
  · rw [value_drop, length_drop_of_le hlong]

end Bytes

theorem FixedBytes.value_fit (width : Nat) (bs : Bytes) :
    (FixedBytes.fit width bs).value = bs.value % 256 ^ width := Bytes.value_fit width bs

/-- **Texts of digits** are brought to a width as their bytes are. -/
theorem Hex.bareFit_eq (width : Nat) (s : String) :
    bareFit width s = Bytes.fit width (bare s) := by
  unfold bareFit Bytes.fit
  simp only
  split
  · next hlong =>
    rw [Bytes.padLeft, Bytes.length_drop_of_le hlong, Nat.sub_self]
    rfl
  · next hshort =>
    rw [Nat.sub_eq_zero_of_le (Nat.le_of_not_le hshort), List.drop_zero]

/-! ## Words -/

namespace Word

/-- **Words without leading zeros** are in minimal form. -/
theorem minimal_eq (w : Word) : w.minimal = Bytes.minimal w.toNat := by
  apply Bytes.eq_minimal_iff.mpr
  constructor
  · have hlt : w.toNat < 256 ^ 32 := w.isLt
    rw [minimal, Bytes.value_dropWhile_zero, toBytes, Bytes.value_ofNat_of_lt hlt]
  · exact Bytes.head?_dropWhile_zero w.toBytes

theorem value_minimal (w : Word) : w.minimal.value = w.toNat := by
  rw [minimal_eq, Bytes.value_minimal]

theorem value_padded (w : Word) (width : Nat) : (w.padded width).value = w.toNat := by
  rw [padded, Bytes.value_padLeft, value_minimal]

/-- A word is read back from its padded bytes, cut or padded once more to the width of a word. -/
theorem ofBytes_fit_padded (w : Word) (width : Nat) :
    ofBytes (FixedBytes.fit 32 (w.padded width)).bytes = w := by
  have hvalue : Bytes.value (FixedBytes.fit 32 (w.padded width)).bytes = w.toNat := by
    have hlt : w.toNat < 256 ^ 32 := w.isLt
    show (FixedBytes.fit 32 (w.padded width)).value = w.toNat
    rw [FixedBytes.value_fit, value_padded, Nat.mod_eq_of_lt hlt]
  rw [ofBytes, hvalue, BitVec.ofNat_toNat, BitVec.setWidth_eq]

end Word

/-! ## All of them -/

/-- **Widths keep the number.** A string brought to a width has that many bytes and spells its
    number modulo their bound, and the digits of a text are brought to a width in the same way. The
    minimal form of a word is its spelling without a leading zero, and the only one; zero has no
    byte. Padding it adds zeros in front and never cuts, so that the number stays and the word is
    read back from any width. -/
theorem widths_keep_number :
    (∀ (width : Nat) (bs : Bytes), (FixedBytes.fit width bs).bytes.length = width ∧
      (FixedBytes.fit width bs).value = bs.value % 256 ^ width) ∧
    (∀ (width : Nat) (s : String),
      Hex.bareFit width s = (FixedBytes.fit width (Hex.bare s)).bytes) ∧
    (∀ (w : Word) (bs : Bytes), bs = w.minimal ↔ bs.value = w.toNat ∧ bs.head? ≠ some 0) ∧
    Word.minimal 0 = [] ∧
    ∀ (w : Word) (width : Nat),
      w.minimal <:+ w.padded width ∧
      (w.padded width).value = w.toNat ∧
      (w.padded width).length = max width w.minimal.length ∧
      Word.ofBytes (FixedBytes.fit 32 (w.padded width)).bytes = w := by
  refine ⟨fun width bs => ⟨(FixedBytes.fit width bs).length_bytes, FixedBytes.value_fit width bs⟩,
    Hex.bareFit_eq, fun w bs => ?_, ?_, fun w width => ⟨?_, ?_, ?_, ?_⟩⟩
  · rw [Word.minimal_eq]
    exact Bytes.eq_minimal_iff
  · rw [Word.minimal_eq]
    exact Bytes.minimal_zero
  · exact List.suffix_append _ _
  · exact Word.value_padded w width
  · exact Bytes.length_padLeft width w.minimal
  · exact Word.ofBytes_fit_padded w width

end ChainClient
