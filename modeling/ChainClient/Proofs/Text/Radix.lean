import ChainClient.Proofs.Text.Numeral
import Mathlib.Data.Nat.Digits.Lemmas

/-!
# `ChainClient.Proofs.Text.Radix` — the digits of a number in any radix

The library lists digits from the most significant one on, since that is how texts show them. Turned
around they are the digits that the standard development reasons about, and its laws carry over.

## Contents
- **Adding up.** `ofDigits_append` weighs the digits in front by the number of those behind.
- **Digits.** `digits_eq_reverse`; a number is read back from its digits (`ofDigits_digits`), of
  which there are as many as its size says (`length_digits_le_iff`).
-/

namespace ChainClient

namespace Numeral

variable {radix : Nat}

/-! ## Adding up -/

theorem ofDigits_eq (radix : Nat) (ds : List Nat) :
    ofDigits radix ds = Nat.ofDigits radix ds.reverse := by
  rw [ofDigits, Nat.ofDigits_eq_foldr, List.foldr_reverse]
  congr 1
  funext acc d
  rw [Nat.cast_id, Nat.mul_comm, Nat.add_comm]

/-- **Adding up.** The digits in front count as often as those behind allow for. -/
theorem ofDigits_append (radix : Nat) (as bs : List Nat) :
    ofDigits radix (as ++ bs) = ofDigits radix as * radix ^ bs.length + ofDigits radix bs := by
  rw [ofDigits_eq, ofDigits_eq, ofDigits_eq, List.reverse_append, Nat.ofDigits_append,
    List.length_reverse, Nat.add_comm, Nat.mul_comm]

/-! ## Digits -/

theorem digits_eq_reverse (hradix : 1 < radix) (n : Nat) :
    digits radix n = (Nat.digits radix n).reverse := by
  induction n using Nat.strongRecOn with
  | ind n ih =>
    unfold digits
    split
    · next h =>
      obtain rfl : n = 0 := h.resolve_right (Nat.not_le.mpr hradix)
      rw [Nat.digits_zero, List.reverse_nil]
    · next h =>
      have hpos : 0 < n := Nat.pos_of_ne_zero fun hzero => h (.inl hzero)
      rw [ih (n / radix) (Nat.div_lt_self hpos hradix), Nat.digits_def' hradix hpos,
        List.reverse_cons]

/-- A number is read back from its digits. -/
theorem ofDigits_digits (hradix : 1 < radix) (n : Nat) : ofDigits radix (digits radix n) = n := by
  rw [ofDigits_eq, digits_eq_reverse hradix, List.reverse_reverse, Nat.ofDigits_digits]

theorem lt_of_mem_digits (hradix : 1 < radix) {n d : Nat} (h : d ∈ digits radix n) : d < radix := by
  rw [digits_eq_reverse hradix, List.mem_reverse] at h
  exact Nat.digits_lt_base hradix h

/-- A number has at most as many digits as its size says. -/
theorem length_digits_le_iff (hradix : 1 < radix) (n k : Nat) :
    (digits radix n).length ≤ k ↔ n < radix ^ k := by
  rw [digits_eq_reverse hradix, List.length_reverse]
  exact Nat.digits_length_le_iff hradix n

end Numeral

end ChainClient
