import ChainClient.Proofs.Bytes.Number
import Mathlib.Tactic.LinearCombination

/-!
# `ChainClient.Proofs.Bytes.Arithmetic` — byte strings subtracted and compared as numbers

Subtraction works on one byte at a time and carries a borrow; comparison stops at the first byte
that differs. On byte strings of one length both do what they would do on the numbers that the
strings spell.

## Contents
- **Subtraction.** `subtractPlace_spec` is the law of one place. `value_subtract_add`, by induction
  on the places, is the equation of the whole; `FixedBytes.value_subtract` reads it modulo the
  bound.
- **Order.** `compare_eq_compare_value`.
-/

namespace ChainClient

namespace Bytes

/-! ## Subtraction -/

/-- **One place.** What is borrowed counts as 256. -/
theorem subtractPlace_spec (a b : UInt8) {borrow : UInt16} (h : borrow.toNat ≤ 1) :
    (subtractPlace a b borrow).1.toNat + b.toNat + borrow.toNat =
        a.toNat + (subtractPlace a b borrow).2.toNat * 256 ∧
      (subtractPlace a b borrow).2.toNat ≤ 1 := by
  have ha : a.toNat < 256 := a.toNat_lt
  have hb : b.toNat < 256 := b.toNat_lt
  have hdiff : (a.toUInt16 - b.toUInt16 - borrow).toNat =
      (2 ^ 16 - borrow.toNat + (2 ^ 16 - b.toNat + a.toNat) % 2 ^ 16) % 2 ^ 16 := by
    rw [UInt16.toNat_sub, UInt16.toNat_sub, UInt8.toNat_toUInt16, UInt8.toNat_toUInt16]
  have hlarge : 255 < a.toUInt16 - b.toUInt16 - borrow ↔ a.toNat < b.toNat + borrow.toNat := by
    rw [UInt16.lt_iff_toNat_lt, hdiff]
    show 255 < _ ↔ _
    omega
  unfold subtractPlace
  simp only [UInt16.toNat_toUInt8, hdiff, hlarge]
  split
  · rw [show (1 : UInt16).toNat = 1 from rfl]
    omega
  · rw [show (0 : UInt16).toNat = 0 from rfl]
    omega

/-- **All places.** The borrow of a place is what the places behind it were short of, so at the
    front it stands for the bound of the width. -/
theorem value_subtract_add {as bs : Bytes} (h : as.length = bs.length) :
    value (subtract as bs).1 + value bs = value as + (subtract as bs).2.toNat * 256 ^ as.length ∧
      (subtract as bs).2.toNat ≤ 1 := by
  induction as generalizing bs with
  | nil =>
    cases bs with
    | nil => exact ⟨rfl, Nat.zero_le _⟩
    | cons b bs => cases h
  | cons a as ih =>
    cases bs with
    | nil => cases h
    | cons b bs =>
      have hlen : as.length = bs.length := Nat.succ.inj h
      obtain ⟨hrest, hborrow⟩ := ih hlen
      obtain ⟨hplace, hnext⟩ := subtractPlace_spec a b hborrow
      refine ⟨?_, hnext⟩
      simp only [subtract, value_cons, length_subtract hlen, ← hlen, List.length_cons, Nat.pow_succ]
      -- the equation of the place, weighted, and that of the places behind it
      linear_combination 256 ^ as.length * hplace + hrest

end Bytes

/-- **Subtraction.** The difference of two fields, modulo the bound of their width. -/
theorem FixedBytes.value_subtract {n : Nat} (f g : FixedBytes n) :
    (f.subtract g).value = (f.value + (256 ^ n - g.value)) % 256 ^ n := by
  have hlen : f.bytes.length = g.bytes.length := f.length_bytes.trans g.length_bytes.symm
  obtain ⟨hsum, hborrow⟩ := Bytes.value_subtract_add hlen
  rw [f.length_bytes] at hsum
  have hf : f.value < 256 ^ n := Bytes.value_lt_of_length f.length_bytes
  have hg : g.value < 256 ^ n := Bytes.value_lt_of_length g.length_bytes
  have hdiff : (f.subtract g).value < 256 ^ n :=
    Bytes.value_lt_of_length (f.subtract g).length_bytes
  change (f.subtract g).value + g.value = f.value + _ at hsum
  -- the borrow is the quotient by the bound
  rcases Nat.le_one_iff_eq_zero_or_eq_one.mp hborrow with hnone | hone
  · rw [hnone] at hsum
    rw [show f.value + (256 ^ n - g.value) = (f.subtract g).value + 256 ^ n by omega,
      Nat.add_mod_right, Nat.mod_eq_of_lt hdiff]
  · rw [hone] at hsum
    rw [show f.value + (256 ^ n - g.value) = (f.subtract g).value by omega, Nat.mod_eq_of_lt hdiff]

namespace Bytes

/-! ## Order -/

theorem compare_toNat (a b : UInt8) : compare a b = compare a.toNat b.toNat := by
  rcases Nat.lt_trichotomy a.toNat b.toNat with h | h | h
  · rw [Nat.compare_eq_lt.mpr h, Std.compare_eq_lt]
    exact UInt8.lt_iff_toNat_lt.mpr h
  · rw [Nat.compare_eq_eq.mpr h, UInt8.toNat_inj.mp h]
    exact Std.ReflCmp.compare_self
  · rw [Nat.compare_eq_gt.mpr h, Std.compare_eq_gt]
    exact UInt8.lt_iff_toNat_lt.mpr h

/-- What stands behind a place is less than one of that place. -/
theorem lt_of_lead_lt {a b weight rest : Nat} (hab : a < b) (hrest : rest < weight) (other : Nat) :
    a * weight + rest < b * weight + other := by
  have hstep := Nat.mul_le_mul_right weight hab
  rw [Nat.succ_mul] at hstep
  omega

/-- **Order.** Byte strings of one length are in the order of their numbers: the first byte that
    differs decides both. -/
theorem compare_eq_compare_value {as bs : Bytes} (h : as.length = bs.length) :
    compare as bs = compare (value as) (value bs) := by
  induction as generalizing bs with
  | nil =>
    cases bs with
    | nil => rfl
    | cons b bs => cases h
  | cons a as ih =>
    cases bs with
    | nil => cases h
    | cons b bs =>
      have hlen : as.length = bs.length := Nat.succ.inj h
      have has : value as < 256 ^ bs.length := hlen ▸ value_lt as
      have hbs : value bs < 256 ^ bs.length := value_lt bs
      rw [List.compare_cons_cons, compare_toNat, ih hlen, value_cons, value_cons, hlen]
      rcases Nat.lt_trichotomy a.toNat b.toNat with hab | hab | hab
      · rw [Nat.compare_eq_lt.mpr hab, Nat.compare_eq_lt.mpr (lt_of_lead_lt hab has _)]
        rfl
      · rw [hab, Nat.compare_eq_eq.mpr rfl]
        simp only [Nat.compare_eq_ite_lt, Nat.add_lt_add_iff_left]
        rfl
      · rw [Nat.compare_eq_gt.mpr hab, Nat.compare_eq_gt.mpr (lt_of_lead_lt hab hbs _)]
        rfl

end Bytes

end ChainClient
