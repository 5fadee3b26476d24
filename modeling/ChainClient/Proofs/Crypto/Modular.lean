import ChainClient.Crypto.Modular
import Mathlib.FieldTheory.Finite.Basic

/-!
# `ChainClient.Proofs.Crypto.Modular` — residues as elements of a ring, and of a field

Residues are calculated with as numbers below the modulus. Here they are taken over to the ring
`ZMod m`, where sums and products are those of the ring. Modulo a prime, `inverse` is the inverse of
the field, and `squareRoot` finds a root of every square.

## Contents
- **Ring.** `toZMod` takes a residue over and `ofZMod` back; there is one lemma an operation.
- **Field.** `toZMod_inverse` and `toZMod_squareRoot_mul_self`, both by Fermat's little theorem.
-/

namespace ChainClient.Crypto.Modular

variable {m : Nat}

/-! ## Ring -/

theorem val_neg {a : Fin m} (h : a.val ≠ 0) : (-a).val = m - a.val := by
  have hlt := a.isLt
  rw [Fin.val_neg', Nat.mod_eq_of_lt]
  omega

/-- A residue as an element of the ring of residues. -/
def toZMod (a : Fin m) : ZMod m := (a.val : ZMod m)

theorem val_toZMod (a : Fin m) : (toZMod a).val = a.val := ZMod.val_cast_of_lt a.isLt

theorem toZMod_injective : Function.Injective (toZMod (m := m)) := by
  intro a b h
  apply Fin.ext
  rw [← val_toZMod a, ← val_toZMod b, h]

@[simp] theorem toZMod_inj {a b : Fin m} : toZMod a = toZMod b ↔ a = b := toZMod_injective.eq_iff

theorem toZMod_ne_zero {a : Fin m} (h : a.val ≠ 0) : toZMod a ≠ 0 := by
  intro hzero
  apply h
  rw [← val_toZMod a, hzero, ZMod.val_zero]

@[simp] theorem toZMod_add (a b : Fin m) : toZMod (a + b) = toZMod a + toZMod b := by
  rw [toZMod, Fin.val_add, ZMod.natCast_mod, Nat.cast_add]
  rfl

@[simp] theorem toZMod_mul (a b : Fin m) : toZMod (a * b) = toZMod a * toZMod b := by
  rw [toZMod, Fin.val_mul, ZMod.natCast_mod, Nat.cast_mul]
  rfl

@[simp] theorem toZMod_sub (a b : Fin m) : toZMod (a - b) = toZMod a - toZMod b := by
  have hb : b.val ≤ m := Nat.le_of_lt b.isLt
  rw [toZMod, Fin.val_sub, ZMod.natCast_mod, Nat.cast_add, Nat.cast_sub hb, ZMod.natCast_self,
    zero_sub, neg_add_eq_sub]
  rfl

@[simp] theorem toZMod_neg (a : Fin m) : toZMod (-a) = -toZMod a := by
  have ha : a.val ≤ m := Nat.le_of_lt a.isLt
  rw [toZMod, Fin.val_neg', ZMod.natCast_mod, Nat.cast_sub ha, ZMod.natCast_self, zero_sub]
  rfl

variable [Modulus m]

instance instNeZero : NeZero m := ⟨Nat.ne_of_gt Modulus.pos⟩

/-- An element of the ring as a residue. -/
def ofZMod (a : ZMod m) : Fin m := ⟨a.val, ZMod.val_lt a⟩

@[simp] theorem toZMod_ofZMod (a : ZMod m) : toZMod (ofZMod a) = a := ZMod.natCast_zmod_val a

@[simp] theorem ofZMod_toZMod (a : Fin m) : ofZMod (toZMod a) = a := Fin.ext (val_toZMod a)

theorem ofZMod_eq_iff {a : ZMod m} {b : Fin m} : ofZMod a = b ↔ a = toZMod b := by
  rw [← toZMod_inj, toZMod_ofZMod]

@[simp] theorem toZMod_residue (n : Nat) : toZMod (residue n : Fin m) = n := ZMod.natCast_mod n m

/-- **Powers.** Squaring halves the exponent and leaves its last bit. -/
@[simp] theorem toZMod_power (a : Fin m) (n : Nat) : toZMod (power a n) = toZMod a ^ n := by
  induction n using Nat.strongRecOn generalizing a with
  | ind n ih =>
    unfold power
    split
    · next hzero =>
      rw [hzero, pow_zero, toZMod_residue, Nat.cast_one]
    · next hpos =>
      have hsquare : toZMod (power (a * a) (n / 2)) = toZMod a ^ (2 * (n / 2)) := by
        rw [ih (n / 2) (by omega), toZMod_mul, ← pow_two, ← pow_mul]
      simp only
      split
      · next hodd =>
        rw [toZMod_mul, hsquare, ← pow_succ']
        congr 1
        omega
      · next heven =>
        rw [hsquare]
        congr 1
        omega

/-! ## Field -/

variable [Fact m.Prime]

/-- **Inverses.** Zero has the inverse zero. -/
theorem toZMod_inverse (hm : 2 < m) (a : Fin m) : toZMod (inverse a) = (toZMod a)⁻¹ := by
  rw [inverse, toZMod_power]
  by_cases ha : toZMod a = 0
  · rw [ha, inv_zero]
    exact zero_pow (by omega)
  · refine eq_inv_of_mul_eq_one_left ?_
    rw [← pow_succ]
    have hexp : m - 2 + 1 = m - 1 := by omega
    rw [hexp]
    exact ZMod.pow_card_sub_one_eq_one ha

/-- **Square roots.** The candidate for a square is a root of it. -/
theorem toZMod_squareRoot_mul_self (hm : m % 4 = 3) {a : Fin m} {b : ZMod m}
    (ha : toZMod a = b * b) :
    toZMod (squareRoot a) * toZMod (squareRoot a) = b * b := by
  rw [squareRoot, toZMod_power, ha, ← pow_two b, ← pow_mul, ← pow_two, ← pow_mul]
  have hexp : 2 * ((m + 1) / 4) * 2 = m + 1 := by omega
  rw [hexp, pow_succ, ZMod.pow_card, pow_two]

end ChainClient.Crypto.Modular
