import ChainClient.Crypto.Ecdsa
import ChainClient.Proofs.Crypto.Secp256k1.Group

/-!
# `ChainClient.Proofs.Crypto.Secp256k1.Ladder` — multiples of the generator without division

A multiple of the generator takes hundreds of sums, and every sum an inverse. With coordinates over
a common denominator there is one inverse at the end, so that multiples can be calculated inside a
proof.

## Contents
- **Points.** `Jacobian` is a point over a denominator, with `double` and `addGenerator`;
  `Jacobian.Represents` says which point of the group it is.
- **Multiples.** `Jacobian.multiple` reads the bits of a factor from the first on. It is right
  whenever the denominator at the end is not zero (`represents_multiple`), and then the library
  calculates the same point (`scale_generator_eq`).
- **Signatures.** `sign_ladderCurve`: signatures can be made with these multiples.
-/

namespace ChainClient.Crypto.Secp256k1

open ChainClient.Crypto.Modular WeierstrassCurve.Affine

/-! ## Points -/

/-- The point with the coordinates `x / z ^ 2` and `y / z ^ 3`. -/
structure Jacobian where
  /-- The numerator of the first coordinate. -/
  x : Coordinate
  /-- The numerator of the second coordinate. -/
  y : Coordinate
  /-- The root of the denominator of the first coordinate. -/
  z : Coordinate

namespace Jacobian

/-- The point added to itself. -/
def double (p : Jacobian) : Jacobian :=
  let yy := p.y * p.y
  let d := residue 4 * p.x * yy
  let e := residue 3 * p.x * p.x
  let x := e * e - d - d
  ⟨x, e * (d - x) - residue 8 * yy * yy, residue 2 * p.y * p.z⟩

/-- The point and the generator, added. -/
def addGenerator (p : Jacobian) : Jacobian :=
  let zz := p.z * p.z
  let h := generatorX * zz - p.x
  let r := generatorY * zz * p.z - p.y
  let v := p.x * (h * h)
  let x := r * r - h * (h * h) - v - v
  ⟨x, r * (v - x) - p.y * (h * (h * h)), p.z * h⟩

theorem toZMod_double_x (p : Jacobian) :
    toZMod p.double.x = (3 * toZMod p.x ^ 2) ^ 2 - 8 * toZMod p.x * toZMod p.y ^ 2 := by
  simp [double]
  ring

theorem toZMod_double_y (p : Jacobian) :
    toZMod p.double.y =
      3 * toZMod p.x ^ 2 * (4 * toZMod p.x * toZMod p.y ^ 2 - toZMod p.double.x)
        - 8 * toZMod p.y ^ 4 := by
  simp [double]
  ring

theorem toZMod_double_z (p : Jacobian) :
    toZMod p.double.z = 2 * toZMod p.y * toZMod p.z := by
  simp [double]

/-- The difference of the first coordinates of the generator and the point, over the denominator. -/
def gap (p : Jacobian) : FieldElement := toZMod generatorX * toZMod p.z ^ 2 - toZMod p.x

/-- The difference of the second coordinates, over the denominator. -/
def rise (p : Jacobian) : FieldElement := toZMod generatorY * toZMod p.z ^ 3 - toZMod p.y

theorem toZMod_addGenerator_x (p : Jacobian) :
    toZMod p.addGenerator.x = p.rise ^ 2 - p.gap ^ 3 - 2 * toZMod p.x * p.gap ^ 2 := by
  simp [addGenerator, gap, rise]
  ring

theorem toZMod_addGenerator_y (p : Jacobian) :
    toZMod p.addGenerator.y =
      p.rise * (toZMod p.x * p.gap ^ 2 - toZMod p.addGenerator.x) - toZMod p.y * p.gap ^ 3 := by
  simp [addGenerator, gap, rise]
  ring

theorem toZMod_addGenerator_z (p : Jacobian) :
    toZMod p.addGenerator.z = toZMod p.z * p.gap := by
  simp only [addGenerator, gap, toZMod_mul, toZMod_sub, pow_two]

/-- Which point of the group it is. -/
def Represents (p : Jacobian) (P : weierstrass.Point) : Prop :=
  toZMod p.z ≠ 0 ∧ ∃ x y h, P = .some x y h ∧
    toZMod p.x = x * toZMod p.z ^ 2 ∧ toZMod p.y = y * toZMod p.z ^ 3

/-- **Doubling.** The denominator becomes zero only if the sum is the neutral point. -/
theorem Represents.double {p : Jacobian} {P : weierstrass.Point} (h : p.Represents P)
    (hz : toZMod p.double.z ≠ 0) : p.double.Represents (P + P) := by
  obtain ⟨-, x, y, hns, rfl, hx, hy⟩ := h
  have htwo : 2 * y ≠ 0 := by
    intro hzero
    apply hz
    rw [toZMod_double_z, hy]
    linear_combination toZMod p.z ^ 4 * hzero
  have hne : y ≠ weierstrass.negY x y := by
    rw [negY_eq]
    exact fun h => htwo (by linear_combination h)
  -- the slope is known by its equation from here on, so that nothing is divided
  generalize hslope : weierstrass.slope x x y y = ℓ
  have hℓ : ℓ * (2 * y) = 3 * x ^ 2 := by
    rw [← hslope, slope_of_Y_ne rfl hne, negY_eq, sub_neg_eq_add, ← two_mul,
      div_mul_cancel₀ _ htwo]
    simp [weierstrass]
  have hX : toZMod p.double.x = weierstrass.addX x x ℓ * toZMod p.double.z ^ 2 := by
    rw [toZMod_double_x, toZMod_double_z, hx, hy]
    simp only [addX, weierstrass]
    linear_combination (-toZMod p.z ^ 8 * (ℓ * (2 * y) + 3 * x ^ 2)) * hℓ
  have hY : toZMod p.double.y = weierstrass.addY x x y ℓ * toZMod p.double.z ^ 3 := by
    rw [toZMod_double_y, hX, toZMod_double_z, hx, hy]
    simp only [addY, negAddY, negY_eq]
    linear_combination (-4 * y ^ 2 * toZMod p.z ^ 12 * (x - weierstrass.addX x x ℓ)) * hℓ
  subst hslope
  exact ⟨hz, _, _, _, Point.add_self_of_Y_ne hne, hX, hY⟩

/-- **Adding the generator.** The denominator becomes zero only if the point is the generator or
    its opposite. -/
theorem Represents.addGenerator {p : Jacobian} {P : weierstrass.Point} (h : p.Represents P)
    (hz : toZMod p.addGenerator.z ≠ 0) : p.addGenerator.Represents (P + generatorPoint) := by
  obtain ⟨-, x, y, hns, rfl, hx, hy⟩ := h
  have hgap : p.gap = (toZMod generatorX - x) * toZMod p.z ^ 2 := by
    rw [gap, hx]
    ring
  have hrise : p.rise = (toZMod generatorY - y) * toZMod p.z ^ 3 := by
    rw [rise, hy]
    ring
  have hne : x ≠ toZMod generatorX := by
    rintro rfl
    apply hz
    rw [toZMod_addGenerator_z, hgap]
    ring
  generalize hslope : weierstrass.slope x (toZMod generatorX) y (toZMod generatorY) = ℓ
  have hℓ : ℓ * (toZMod generatorX - x) = toZMod generatorY - y := by
    rw [← hslope, slope_of_X_ne hne, ← neg_sub x, mul_neg, div_mul_cancel₀ _ (sub_ne_zero.mpr hne),
      neg_sub]
  have hX : toZMod p.addGenerator.x =
      weierstrass.addX x (toZMod generatorX) ℓ * toZMod p.addGenerator.z ^ 2 := by
    rw [toZMod_addGenerator_x, toZMod_addGenerator_z, hgap, hrise, hx, ← hℓ]
    simp only [addX, weierstrass]
    ring
  have hY : toZMod p.addGenerator.y =
      weierstrass.addY x (toZMod generatorX) y ℓ * toZMod p.addGenerator.z ^ 3 := by
    rw [toZMod_addGenerator_y, hX, toZMod_addGenerator_z, hgap, hrise, hx, hy, ← hℓ]
    simp only [addY, negAddY, negY_eq]
    ring
  subst hslope
  exact ⟨hz, _, _, _, Point.add_of_X_ne hne, hX, hY⟩

/-- The point with coordinates of its own. -/
def toPoint (p : Jacobian) : Point :=
  let inv := inverse p.z
  .affine (p.x * (inv * inv)) (p.y * (inv * inv * inv))

theorem Represents.toPoint_eq {p : Jacobian} {P : weierstrass.Point} (h : p.Represents P) :
    Secp256k1.toPoint P = p.toPoint := by
  obtain ⟨hz, x, y, hns, rfl, hx, hy⟩ := h
  rw [toPoint_some, toPoint, Point.affine.injEq, ofZMod_eq_iff, ofZMod_eq_iff]
  simp only [toZMod_mul, toZMod_inverse two_lt_fieldPrime, hx, hy]
  constructor
  · field_simp
  · field_simp

/-! ## Multiples -/

/-- A multiple of the generator, by a factor that is not zero. -/
def multiple (n : Nat) : Jacobian :=
  if n ≤ 1 then ⟨generatorX, generatorY, residue 1⟩
  else
    let doubled := (multiple (n / 2)).double
    if n % 2 = 1 then doubled.addGenerator else doubled
termination_by n
decreasing_by omega

/-- **Multiples.** If no step led to the neutral point, the steps lead to the multiple. A
    denominator that became zero on the way would have stayed zero. -/
theorem represents_multiple {n : Nat} (hn : 0 < n) (hz : toZMod (multiple n).z ≠ 0) :
    (multiple n).Represents (n • generatorPoint) := by
  induction n using Nat.strongRecOn with
  | ind n ih =>
    unfold multiple at hz ⊢
    split at hz
    · next hone =>
      obtain rfl : n = 1 := by omega
      rw [if_pos hone, one_nsmul]
      refine ⟨hz, _, _, _, rfl, ?_, ?_⟩
      · simp
      · simp
    · next hlarge =>
      rw [if_neg hlarge]
      have hhalf : toZMod (multiple (n / 2)).double.z ≠ 0 →
          (multiple (n / 2)).double.Represents ((2 * (n / 2)) • generatorPoint) := by
        intro hdouble
        have hz' : toZMod (multiple (n / 2)).z ≠ 0 := by
          intro hzero
          apply hdouble
          rw [toZMod_double_z, hzero, mul_zero]
        rw [two_mul, add_nsmul]
        exact (ih (n / 2) (by omega) (by omega) hz').double hdouble
      simp only at hz ⊢
      split at hz
      · next hodd =>
        have hdouble : toZMod (multiple (n / 2)).double.z ≠ 0 := by
          intro hzero
          apply hz
          rw [toZMod_addGenerator_z, hzero, zero_mul]
        have hsum : (2 * (n / 2)) • generatorPoint + generatorPoint = n • generatorPoint := by
          rw [← succ_nsmul]
          congr 1
          omega
        rw [if_pos hodd, ← hsum]
        exact (hhalf hdouble).addGenerator hz
      · next heven =>
        have hfactor : 2 * (n / 2) = n := by omega
        rw [if_neg heven]
        rw [hfactor] at hhalf
        exact hhalf hz

/-- The multiples that the library calculates are those. -/
theorem scale_generator_eq {n : Nat} (hn : 0 < n) (hz : toZMod (multiple n).z ≠ 0) :
    Point.scale n Point.generator = (multiple n).toPoint := by
  rw [← (represents_multiple hn hz).toPoint_eq, toPoint_nsmul, toPoint_generatorPoint]

end Jacobian

/-! ## Signatures -/

/-- The curve, for uses in which no point but the generator is multiplied. -/
def ladderCurve : Curve := { curve with scale := fun n _ => (Jacobian.multiple n).toPoint }

/-- Signing is such a use. -/
theorem sign_ladderCurve {k : curve.Scalar} (hk : 0 < k.val)
    (hz : toZMod (Jacobian.multiple k.val).z ≠ 0) (d z : curve.Scalar) :
    Ecdsa.sign ladderCurve k d z = Ecdsa.sign curve k d z := by
  have hscale : ladderCurve.scale k.val ladderCurve.generator =
      curve.scale k.val curve.generator := (Jacobian.scale_generator_eq hk hz).symm
  unfold Ecdsa.sign
  rw [hscale]
  rfl

end ChainClient.Crypto.Secp256k1
