import ChainClient.Word
import Mathlib.Algebra.Ring.Nat

/-!
# `ChainClient.Proofs.Word.Power` — powers of words

A word is raised to a power by going through the bits of the exponent, from the lowest on. The base
is squared at every bit, and the squares of the bits that are set are multiplied. Each product wraps
at `2 ^ 256`, so the result is the power of integers modulo `2 ^ 256`.

## Contents
- **Bits.** `mod_two_pow_succ`: one more bit of a number adds its power of two or nothing.
- **One bit.** `Powering.IsAfter` says what is held past some bits; `Powering.IsAfter.next` carries
  it past one more.
- **All bits.** `Powering.isAfter_after` goes through them, and `toNat_power` reads the result off.
- **Exponents add up.** `power_mod_and_add`.
-/

namespace ChainClient

namespace Word

/-! ## Bits -/

theorem mod_two_pow_succ (n k : Nat) :
    n % 2 ^ (k + 1) = n % 2 ^ k + if n.testBit k then 2 ^ k else 0 := by
  rw [Nat.pow_succ, Nat.mod_mul, Nat.testBit_eq_decide_div_mod_eq]
  rcases Nat.mod_two_eq_zero_or_one (n / 2 ^ k) with hbit | hbit
  · rw [hbit]
    rfl
  · rw [hbit, Nat.mul_one]
    rfl

/-- A word has no bits beyond its length. -/
theorem toNat_lt_two_pow_bitLength (w : Word) : w.toNat < 2 ^ bitLength w := by
  unfold bitLength
  split
  · next hzero =>
    rw [hzero]
    exact Nat.one_pos
  · exact Nat.lt_log2_self

/-- Words that are powers of one number multiply to another one. -/
theorem toNat_mul_of_pow {v w : Word} {b m n : Nat} (hv : v.toNat = b ^ m % 2 ^ 256)
    (hw : w.toNat = b ^ n % 2 ^ 256) : (v * w).toNat = b ^ (m + n) % 2 ^ 256 := by
  rw [BitVec.toNat_mul, hv, hw, ← Nat.mul_mod, Nat.pow_add]

/-! ## One bit -/

namespace Powering

/-- **Invariant.** Past the `count` lowest bits of the exponent, the base has been squared `count`
    times, and the product is the power that those bits spell. -/
structure IsAfter (base exponent : Word) (count : Nat) (p : Powering) : Prop where
  result_eq : p.result.toNat = base.toNat ^ (exponent.toNat % 2 ^ count) % 2 ^ 256
  square_eq : p.square.toNat = base.toNat ^ 2 ^ count % 2 ^ 256

variable {base exponent : Word} {count : Nat} {p : Powering}

theorem isAfter_zero (base exponent : Word) : IsAfter base exponent 0 ⟨1, base⟩ where
  result_eq := by
    rw [Nat.pow_zero, Nat.mod_one, Nat.pow_zero]
    rfl
  square_eq := by
    rw [Nat.pow_zero, Nat.pow_one]
    exact (Nat.mod_eq_of_lt base.isLt).symm

/-- **Step.** The next bit is taken into the exponent of the product. -/
theorem IsAfter.next (h : IsAfter base exponent count p) :
    IsAfter base exponent (count + 1) (p.next (exponent.getLsbD count)) where
  result_eq := by
    rw [mod_two_pow_succ exponent.toNat, ← BitVec.testBit_toNat]
    show (if exponent.toNat.testBit count then p.result * p.square else p.result).toNat = _
    split
    · exact toNat_mul_of_pow h.result_eq h.square_eq
    · exact h.result_eq
  square_eq := by
    rw [Nat.pow_succ, Nat.mul_two]
    exact toNat_mul_of_pow h.square_eq h.square_eq

/-! ## All bits -/

theorem after_succ (base exponent : Word) (count : Nat) :
    after base exponent (count + 1) =
      (after base exponent count).next (exponent.getLsbD count) := by
  rw [after, List.range_succ, List.foldl_append]
  rfl

/-- **Run.** The invariant holds past any number of bits. -/
theorem isAfter_after (base exponent : Word) (count : Nat) :
    IsAfter base exponent count (after base exponent count) := by
  induction count with
  | zero => exact isAfter_zero base exponent
  | succ count ih =>
    rw [after_succ]
    exact ih.next

end Powering

/-- **Powers.** All bits of the exponent make up the exponent. -/
theorem toNat_power (base exponent : Word) :
    (power base exponent).toNat = base.toNat ^ exponent.toNat % 2 ^ 256 := by
  have hresult := (Powering.isAfter_after base exponent (bitLength exponent)).result_eq
  rw [Nat.mod_eq_of_lt (toNat_lt_two_pow_bitLength exponent)] at hresult
  exact hresult

/-! ## Exponents add up -/

/-- **Powers are those of integers, modulo `2 ^ 256`.** With exponent zero the power is one,
    also that of zero. Powers of one base multiply to the power of the sum of their exponents, as
    long as that sum is a word. -/
theorem power_mod_and_add :
    (∀ base exponent : Word,
      (power base exponent).toNat = base.toNat ^ exponent.toNat % 2 ^ 256) ∧
    (∀ base : Word, power base 0 = 1) ∧
    ∀ base m n : Word, m.toNat + n.toNat < 2 ^ 256 →
      (m + n).toNat = m.toNat + n.toNat ∧
      (power base m).toNat * (power base n).toNat % 2 ^ 256 = (power base (m + n)).toNat := by
  refine ⟨toNat_power, fun base => ?_, fun base m n hlt => ?_⟩
  · apply BitVec.eq_of_toNat_eq
    rw [toNat_power]
    rfl
  · have hsum : (m + n).toNat = m.toNat + n.toNat := BitVec.toNat_add_of_lt hlt
    refine ⟨hsum, ?_⟩
    rw [toNat_power, toNat_power, toNat_power, hsum, Nat.pow_add, ← Nat.mul_mod]

/-- Exponents that only just add up to a word, the greatest one. -/
theorem power_mod_and_add_greatest :
    let m := BitVec.twoPow 256 255
    let n := m - 1
    m.toNat + n.toNat < 2 ^ 256 ∧ m + n = BitVec.allOnes 256 ∧
      (power 3 m).toNat * (power 3 n).toNat % 2 ^ 256 = (power 3 (m + n)).toNat := by
  intro m n
  have hlt : m.toNat + n.toNat < 2 ^ 256 := by decide
  exact ⟨hlt, by decide, (power_mod_and_add.2.2 3 m n hlt).2⟩

/-- A power of two that is too great for a word wraps to zero. -/
example : power 2 256 = 0 := by decide +kernel

end Word

end ChainClient
