import ChainClient.Crypto.Ecdsa
import ChainClient.Proofs.Crypto.Modular

/-!
# `ChainClient.Proofs.Crypto.Ecdsa` — signing, verifying and recovering agree

All the points that a signature is about are multiples of the generator. Counted by their factors,
which are residues modulo a prime, they turn the scheme into calculation in a field: a signature is
an equation between `s` and the secret number, and verifying and recovering solve it for the one and
for the other.

## Contents
- **Curves.** `Curve.IsLawful` says what the operations of a curve do to multiples.
- **Signatures.** `IsSignature` is the equation; `isSignature_of_sign` ties it to the signer.
- **Low form.** `IsSignature.neg`: the opposite of the point gives the other form.
- **Agreement.** `verify_of_isSignature` and `recover_of_isSignature`.
-/

namespace ChainClient.Crypto

open ChainClient.Crypto.Modular

variable {C : Curve}

/-- **Lawful curves.** The multiples of the generator form a group of prime order, in which a point
    and its opposite have the same first coordinate and second ones of different parity. -/
structure Curve.IsLawful (C : Curve) (multiple : ZMod C.order → C.Point) : Prop where
  prime : C.order.Prime
  two_lt : 2 < C.order
  generator_eq : C.generator = multiple 1
  add_multiple (a b : ZMod C.order) : C.add (multiple a) (multiple b) = multiple (a + b)
  scale_multiple (n : Nat) (a : ZMod C.order) : C.scale n (multiple a) = multiple (n * a)
  coordinates_eq_none_iff {a : ZMod C.order} : C.coordinates (multiple a) = none ↔ a = 0
  coordinates_neg {a : ZMod C.order} {x y : Nat} (h : C.coordinates (multiple a) = some (x, y)) :
    ∃ y', C.coordinates (multiple (-a)) = some (x, y') ∧ (y' % 2 == 1) = !(y % 2 == 1)
  lift_eq {a : ZMod C.order} {x y : Nat} (h : C.coordinates (multiple a) = some (x, y)) :
    C.lift x (y % 2 == 1) = some (multiple a)
  fst_lt {a : ZMod C.order} {x y : Nat} (h : C.coordinates (multiple a) = some (x, y)) :
    x < 2 * C.order

namespace Ecdsa

variable {multiple : ZMod C.order → C.Point}

/-! ## Signatures -/

/-- **Signatures.** `(r, s)` is a signature of `z` under the key `d`, made from the multiple `k` of
    the generator, and the hint picks that point. -/
structure IsSignatureFrom (multiple : ZMod C.order → C.Point) (d z r s : C.Scalar) (hint : Hint)
    (k : ZMod C.order) (x y : Nat) : Prop where
  coordinates_eq : C.coordinates (multiple k) = some (x, y)
  r_eq : r = residue x
  hint_eq : hint = ⟨y % 2 == 1, C.order ≤ x⟩
  r_ne_zero : r.val ≠ 0
  s_ne_zero : s.val ≠ 0
  equation : toZMod s * k = toZMod z + toZMod r * toZMod d

/-- A signature, from whatever multiple. -/
def IsSignature (multiple : ZMod C.order → C.Point) (d z r s : C.Scalar) (hint : Hint) : Prop :=
  ∃ k x y, IsSignatureFrom multiple d z r s hint k x y

theorem scale_val_generator (hC : C.IsLawful multiple) (a : C.Scalar) :
    C.scale a.val C.generator = multiple (toZMod a) := by
  rw [hC.generator_eq, hC.scale_multiple, mul_one]
  rfl

/-- **Signing.** What is made from a secret number is a signature. -/
theorem isSignature_of_sign (hC : C.IsLawful multiple) {k d z r s : C.Scalar} {hint : Hint}
    (h : sign C k d z = some (r, s, hint)) : IsSignature multiple d z r s hint := by
  have := Fact.mk hC.prime
  unfold sign at h
  rw [scale_val_generator hC] at h
  cases hcoordinates : C.coordinates (multiple (toZMod k)) with
  | none =>
    rw [hcoordinates] at h
    cases h
  | some xy =>
    obtain ⟨x, y⟩ := xy
    rw [hcoordinates] at h
    simp only at h
    split at h
    · cases h
    · next hzero =>
      cases h
      obtain ⟨hr, hs⟩ := not_or.mp hzero
      -- the point has coordinates, so the secret number can be divided by
      have hk : toZMod k ≠ 0 := by
        intro hk
        rw [hC.coordinates_eq_none_iff.mpr hk] at hcoordinates
        cases hcoordinates
      refine ⟨toZMod k, x, y, hcoordinates, rfl, rfl, hr, hs, ?_⟩
      rw [toZMod_mul, toZMod_inverse hC.two_lt, toZMod_add, toZMod_mul]
      field_simp

/-! ## Low form -/

theorem neg_val_ne_zero {s : C.Scalar} (h : s.val ≠ 0) : (-s).val ≠ 0 := by
  rw [val_neg h]
  exact Nat.ne_of_gt (Nat.sub_pos_of_lt s.isLt)

/-- **The other form.** Turning the point over changes the sign of the second number, and the
    parity in the hint. -/
theorem IsSignature.neg (hC : C.IsLawful multiple) {d z r s : C.Scalar} {hint : Hint}
    (h : IsSignature multiple d z r s hint) : IsSignature multiple d z r (-s) hint.flip := by
  obtain ⟨k, x, y, h⟩ := h
  obtain ⟨y', hcoordinates, hparity⟩ := hC.coordinates_neg h.coordinates_eq
  refine ⟨-k, x, y', hcoordinates, h.r_eq, ?_, h.r_ne_zero, neg_val_ne_zero h.s_ne_zero, ?_⟩
  · rw [h.hint_eq, Hint.flip, hparity]
  · rw [toZMod_neg, neg_mul_neg]
    exact h.equation

/-! ## Agreement -/

/-- **Verifying.** A signature in the low form is accepted under the key it was made with. -/
theorem verify_of_isSignature (hC : C.IsLawful multiple) {d z r s : C.Scalar} {hint : Hint}
    (h : IsSignature multiple d z r s hint) (hlow : isHigh C s = false) :
    verify C (multiple (toZMod d)) z r s = true := by
  have := Fact.mk hC.prime
  obtain ⟨k, x, y, h⟩ := h
  have hs := toZMod_ne_zero h.s_ne_zero
  -- dividing the equation by `s` leaves the secret number
  have hpoint : toZMod z * (toZMod s)⁻¹ + toZMod r * (toZMod s)⁻¹ * toZMod d = k := by
    calc toZMod z * (toZMod s)⁻¹ + toZMod r * (toZMod s)⁻¹ * toZMod d
        = (toZMod z + toZMod r * toZMod d) * (toZMod s)⁻¹ := by ring
      _ = toZMod s * k * (toZMod s)⁻¹ := by rw [h.equation]
      _ = k := by field_simp
  have hsum : C.add (C.scale (z * inverse s).val C.generator)
      (C.scale (r * inverse s).val (multiple (toZMod d))) = multiple k := by
    rw [scale_val_generator hC, hC.scale_multiple, hC.add_multiple, ← hpoint]
    show multiple (toZMod (z * inverse s) + toZMod (r * inverse s) * toZMod d) = _
    rw [toZMod_mul, toZMod_mul, toZMod_inverse hC.two_lt]
  unfold verify
  rw [hlow]
  simp only [Bool.false_eq_true, if_false, hsum, h.coordinates_eq]
  exact beq_iff_eq.mpr h.r_eq.symm

/-- The hint picks the point. -/
theorem lift_of_isSignatureFrom (hC : C.IsLawful multiple) {d z r s : C.Scalar} {hint : Hint}
    {k : ZMod C.order} {x y : Nat} (h : IsSignatureFrom multiple d z r s hint k x y) :
    C.lift (if hint.reduced then r.val + C.order else r.val) hint.odd = some (multiple k) := by
  have hlt := hC.fst_lt h.coordinates_eq
  have hr : r.val = x % C.order := by rw [h.r_eq]; rfl
  have hx : (if hint.reduced then r.val + C.order else r.val) = x := by
    rw [h.hint_eq, hr]
    simp only [decide_eq_true_eq]
    split
    · next hge => rw [Nat.mod_eq_sub_mod hge, Nat.mod_eq_of_lt (by omega)]; omega
    · next hsmall => exact Nat.mod_eq_of_lt (by omega)
  rw [hx, h.hint_eq]
  exact hC.lift_eq h.coordinates_eq

/-- **Recovering.** From a signature in the low form, the public point of its key is recovered. -/
theorem recover_of_isSignature (hC : C.IsLawful multiple) {d z r s : C.Scalar} {hint : Hint}
    (h : IsSignature multiple d z r s hint) (hlow : isHigh C s = false) (hd : d.val ≠ 0) :
    recover C z r s hint = some (multiple (toZMod d)) := by
  have := Fact.mk hC.prime
  have hverify := verify_of_isSignature hC h hlow
  obtain ⟨k, x, y, h⟩ := h
  have hr := toZMod_ne_zero h.r_ne_zero
  -- solving the equation for the key
  have hkey : -((toZMod r)⁻¹ * toZMod z) + (toZMod r)⁻¹ * toZMod s * k = toZMod d := by
    rw [mul_assoc, h.equation]
    field_simp
    ring
  have hsum : C.add (C.scale (-(inverse r * z)).val C.generator)
      (C.scale (inverse r * s).val (multiple k)) = multiple (toZMod d) := by
    rw [scale_val_generator hC, hC.scale_multiple, hC.add_multiple, ← hkey]
    show multiple (toZMod (-(inverse r * z)) + toZMod (inverse r * s) * k) = _
    rw [toZMod_neg, toZMod_mul, toZMod_mul, toZMod_inverse hC.two_lt]
  obtain ⟨xy, hxy⟩ : ∃ xy, C.coordinates (multiple (toZMod d)) = some xy := by
    apply Option.ne_none_iff_exists'.mp
    exact fun hnone => toZMod_ne_zero hd (hC.coordinates_eq_none_iff.mp hnone)
  unfold recover
  simp only [lift_of_isSignatureFrom hC h, Option.bind_eq_bind, Option.bind_some, hsum, hxy,
    hverify, if_true]

end Ecdsa

end ChainClient.Crypto
