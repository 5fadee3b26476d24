import ChainClient.Crypto.Secp256k1
import ChainClient.Proofs.Crypto.Prime
import Mathlib.AlgebraicGeometry.EllipticCurve.Affine.Point

/-!
# `ChainClient.Proofs.Crypto.Secp256k1.Group` — the points of the curve are a group

Points are added by the chord and tangent law, with inverses made by powers. That this law makes a
group of the points is known for every curve over a field; here the operations of the library are
those of that group, for points that lie on the curve.

## Contents
- **Curve.** `weierstrass` is the curve over its field, of discriminant other than zero.
- **Points.** `toPoint` takes a point of the group to a point of the library. `toPoint_add` and
  `toPoint_nsmul` are the laws of sums and multiples; `generatorPoint` is the generator.
-/

namespace ChainClient.Crypto.Secp256k1

open ChainClient.Crypto.Modular WeierstrassCurve.Affine

/-! ## Curve -/

/-- An element of the field, as an element of a ring. -/
abbrev FieldElement := ZMod fieldPrime

/-- The curve with the equation `y ^ 2 = x ^ 3 + 7`. -/
def weierstrass : WeierstrassCurve.Affine FieldElement := ⟨0, 0, 0, 0, 7⟩

theorem natCast_ne_zero {n : Nat} (hpos : 0 < n) (hlt : n < fieldPrime) :
    (n : FieldElement) ≠ 0 := by
  intro h
  exact Nat.not_dvd_of_pos_of_lt hpos hlt ((ZMod.natCast_eq_zero_iff n fieldPrime).mp h)

theorem two_ne_zero : (2 : FieldElement) ≠ 0 := natCast_ne_zero (n := 2) (by decide) (by decide)

theorem discriminant_ne_zero : weierstrass.Δ ≠ 0 := by
  have hΔ : weierstrass.Δ = -((21168 : Nat) : FieldElement) := by
    simp only [WeierstrassCurve.Δ, WeierstrassCurve.b₂, WeierstrassCurve.b₄, WeierstrassCurve.b₆,
      WeierstrassCurve.b₈, weierstrass]
    push_cast
    ring
  rw [hΔ, neg_ne_zero]
  exact natCast_ne_zero (by decide) (by decide)

theorem equation_iff {x y : FieldElement} :
    weierstrass.Equation x y ↔ y * y = x * x * x + 7 := by
  rw [WeierstrassCurve.Affine.equation_iff]
  simp only [weierstrass]
  constructor
  · intro h
    linear_combination h
  · intro h
    linear_combination h

theorem nonsingular_iff {x y : FieldElement} :
    weierstrass.Nonsingular x y ↔ y * y = x * x * x + 7 := by
  rw [← equation_iff, equation_iff_nonsingular_of_Δ_ne_zero discriminant_ne_zero]

@[simp] theorem negY_eq (x y : FieldElement) : weierstrass.negY x y = -y := by
  simp [negY, weierstrass]

/-- The equation as the library checks it. -/
theorem onCurve_iff {x y : Coordinate} :
    onCurve x y = true ↔ weierstrass.Nonsingular (toZMod x) (toZMod y) := by
  rw [nonsingular_iff, onCurve, beq_iff_eq, ← toZMod_inj, curveSide]
  simp

/-! ## Points -/

/-- A point of the group as a point of the library. -/
def toPoint : weierstrass.Point → Point
  | .zero => .infinity
  | .some x y _ => .affine (ofZMod x) (ofZMod y)

@[simp] theorem toPoint_zero : toPoint 0 = .infinity := rfl

theorem toPoint_some {x y : FieldElement} (h : weierstrass.Nonsingular x y) :
    toPoint (.some x y h) = .affine (ofZMod x) (ofZMod y) := rfl

theorem toPoint_injective : Function.Injective toPoint := by
  intro P Q h
  match P, Q with
  | .zero, .zero => rfl
  | .zero, .some _ _ _ => cases h
  | .some _ _ _, .zero => cases h
  | .some x₁ y₁ _, .some x₂ y₂ _ =>
    obtain ⟨hx, hy⟩ := Point.affine.inj h
    rw [ofZMod_eq_iff, toZMod_ofZMod] at hx hy
    simp only [hx, hy]

/-- The third point on a line, in the group. -/
theorem alongSlope_eq {slope : Coordinate} {x₁ y₁ x₂ ℓ : FieldElement} (h : toZMod slope = ℓ) :
    Point.alongSlope slope (ofZMod x₁) (ofZMod y₁) (ofZMod x₂) =
      .affine (ofZMod (weierstrass.addX x₁ x₂ ℓ)) (ofZMod (weierstrass.addY x₁ x₂ y₁ ℓ)) := by
  have hx : toZMod (slope * slope - ofZMod x₁ - ofZMod x₂) = weierstrass.addX x₁ x₂ ℓ := by
    simp only [toZMod_sub, toZMod_mul, toZMod_ofZMod, h, addX, weierstrass]
    ring
  have hy : toZMod (slope * (ofZMod x₁ - (slope * slope - ofZMod x₁ - ofZMod x₂)) - ofZMod y₁) =
      weierstrass.addY x₁ x₂ y₁ ℓ := by
    rw [toZMod_sub, toZMod_mul, toZMod_sub, hx]
    simp only [toZMod_ofZMod, h, addY, negAddY, negY_eq]
    ring
  rw [← hx, ← hy, ofZMod_toZMod, ofZMod_toZMod]
  rfl

theorem two_lt_fieldPrime : 2 < fieldPrime := by decide

theorem ofZMod_val_eq_zero_iff {y : FieldElement} : (ofZMod y).val = 0 ↔ y = 0 := ZMod.val_eq_zero y

theorem slope_tangent {x y : FieldElement} (hy : y ≠ -y) :
    toZMod (residue 3 * ofZMod x * ofZMod x * inverse (residue 2 * ofZMod y)) =
      weierstrass.slope x x y y := by
  rw [slope_of_Y_ne rfl (by rwa [negY_eq]), negY_eq, div_eq_mul_inv, sub_neg_eq_add, ← two_mul]
  simp only [toZMod_mul, toZMod_residue, toZMod_inverse two_lt_fieldPrime, toZMod_ofZMod,
    weierstrass]
  push_cast
  ring

theorem slope_chord {x₁ y₁ x₂ y₂ : FieldElement} (hx : x₁ ≠ x₂) :
    toZMod ((ofZMod y₂ - ofZMod y₁) * inverse (ofZMod x₂ - ofZMod x₁)) =
      weierstrass.slope x₁ x₂ y₁ y₂ := by
  rw [slope_of_X_ne hx]
  simp only [toZMod_mul, toZMod_sub, toZMod_inverse two_lt_fieldPrime, toZMod_ofZMod]
  rw [← div_eq_mul_inv, ← neg_sub y₁, ← neg_sub x₁, neg_div_neg_eq]

/-- **Sums.** The library adds the points as the group does. -/
theorem toPoint_add (P Q : weierstrass.Point) :
    toPoint (P + Q) = Point.add (toPoint P) (toPoint Q) := by
  match P, Q with
  | .zero, Q =>
    rw [← Point.zero_def, zero_add]
    rfl
  | .some x y h, .zero =>
    rw [← Point.zero_def, add_zero]
    rfl
  | .some x₁ y₁ h₁, .some x₂ y₂ h₂ =>
    rw [toPoint_some, toPoint_some, Point.add]
    by_cases hx : x₁ = x₂
    · subst hx
      rw [if_pos rfl]
      by_cases hy : y₁ = -y₂
      · -- opposite points; if they are the same, the second coordinate is zero
        rw [Point.add_of_Y_eq rfl (by rwa [negY_eq]), if_neg, toPoint_zero]
        rintro ⟨hsame, hne⟩
        rw [ofZMod_eq_iff, toZMod_ofZMod] at hsame
        apply hne
        rw [ofZMod_val_eq_zero_iff]
        subst hsame
        exact (mul_eq_zero_iff_left two_ne_zero).mp (by linear_combination hy)
      · have hsame : y₁ = y₂ := by
          have hcases := Y_eq_of_X_eq h₁.1 h₂.1 rfl
          rw [negY_eq] at hcases
          exact hcases.resolve_right hy
        subst hsame
        have hne : (ofZMod y₁).val ≠ 0 := by
          rw [Ne, ofZMod_val_eq_zero_iff]
          rintro rfl
          exact hy neg_zero.symm
        rw [if_pos ⟨rfl, hne⟩, alongSlope_eq (slope_tangent hy),
          Point.add_self_of_Y_ne (by rwa [negY_eq]), toPoint_some]
    · have hne : ofZMod x₁ ≠ ofZMod x₂ := by
        rw [Ne, ofZMod_eq_iff, toZMod_ofZMod]
        exact hx
      rw [if_neg hne, alongSlope_eq (slope_chord hx), Point.add_of_X_ne hx, toPoint_some]

/-- **Multiples.** Doubling the point halves the factor and leaves its last bit. -/
theorem toPoint_nsmul (n : Nat) (P : weierstrass.Point) :
    toPoint (n • P) = Point.scale n (toPoint P) := by
  induction n using Nat.strongRecOn generalizing P with
  | ind n ih =>
    unfold Point.scale
    split
    · next hzero =>
      rw [hzero, zero_nsmul, toPoint_zero]
    · next hpos =>
      have hdouble : Point.scale (n / 2) (Point.add (toPoint P) (toPoint P)) =
          toPoint ((2 * (n / 2)) • P) := by
        rw [← toPoint_add, ← ih (n / 2) (by omega), ← two_nsmul, mul_comm, mul_nsmul']
      simp only [hdouble]
      split
      · next hodd =>
        rw [← toPoint_add, ← succ_nsmul']
        congr 2
        omega
      · next heven =>
        congr 2
        omega

/-- The generator in the group. -/
def generatorPoint : weierstrass.Point :=
  .some (toZMod generatorX) (toZMod generatorY) (onCurve_iff.mp (by decide +kernel))

theorem toPoint_generatorPoint : toPoint generatorPoint = Point.generator := by
  rw [generatorPoint, toPoint_some, ofZMod_toZMod, ofZMod_toZMod, Point.generator]

end ChainClient.Crypto.Secp256k1
