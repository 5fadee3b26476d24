import ChainClient.Proofs.Crypto.Ecdsa
import ChainClient.Proofs.Crypto.Secp256k1.Ladder

/-!
# `ChainClient.Proofs.Crypto.Secp256k1.Order` — the multiples of the generator

The generator has as many multiples as its order says, which is a prime. So they are counted by the
residues modulo that prime, and none of them but the neutral point is its own opposite.

## Contents
- **Order.** `nsmul_generatorPoint`: the order times the generator is the neutral point.
- **Multiples.** `factorHom` takes a residue to the multiple of the generator by it.
- **Coordinates.** Opposite points, and points with a given first coordinate.
- **Scheme.** `isLawful_curve`: the curve is what the signature scheme takes it for.
-/

namespace ChainClient.Crypto.Secp256k1

open ChainClient.Crypto.Modular WeierstrassCurve.Affine

/-! ## Order -/

/-- The last multiple of the generator but the neutral point is its opposite. -/
theorem multiple_pred_groupOrder :
    (Jacobian.multiple (groupOrder - 1)).z.val ≠ 0 ∧
      (Jacobian.multiple (groupOrder - 1)).toPoint =
        .affine generatorX (-generatorY) := by
  -- 255 doublings over a common denominator, and one inverse at the end
  decide +kernel

theorem nsmul_generatorPoint : groupOrder • generatorPoint = 0 := by
  obtain ⟨hz, hpoint⟩ := multiple_pred_groupOrder
  have hpred : (groupOrder - 1) • generatorPoint = -generatorPoint := by
    apply toPoint_injective
    rw [(Jacobian.represents_multiple (by decide) (toZMod_ne_zero hz)).toPoint_eq, hpoint]
    rw [generatorPoint, Point.neg_some, toPoint_some, negY_eq, ofZMod_toZMod,
      ← toZMod_neg, ofZMod_toZMod]
  have hsucc : groupOrder = groupOrder - 1 + 1 := by decide
  rw [hsucc, succ_nsmul, hpred, neg_add_cancel]

theorem addOrderOf_generatorPoint : addOrderOf generatorPoint = groupOrder :=
  addOrderOf_eq_prime nsmul_generatorPoint (Point.some_ne_zero _)

/-! ## Multiples -/

/-- The multiple of the generator by a residue. -/
def factorHom : ZMod groupOrder →+ weierstrass.Point :=
  ZMod.lift groupOrder ⟨zmultiplesHom weierstrass.Point generatorPoint, by
    rw [zmultiplesHom_apply, natCast_zsmul, nsmul_generatorPoint]⟩

theorem factorHom_natCast (n : Nat) : factorHom n = n • generatorPoint := by
  rw [← Int.cast_natCast, factorHom, ZMod.lift_coe, zmultiplesHom_apply, natCast_zsmul]

/-- Different residues make different multiples. -/
theorem factorHom_eq_zero_iff {a : ZMod groupOrder} : factorHom a = 0 ↔ a = 0 := by
  constructor
  · intro h
    rw [← ZMod.natCast_zmod_val a] at h ⊢
    rw [factorHom_natCast, ← addOrderOf_dvd_iff_nsmul_eq_zero, addOrderOf_generatorPoint] at h
    exact (ZMod.natCast_eq_zero_iff a.val groupOrder).mpr h
  · rintro rfl
    exact map_zero factorHom

/-- No multiple but the neutral point is its own opposite, as the order is odd. -/
theorem neg_factorHom_ne {a : ZMod groupOrder} (ha : a ≠ 0) : -factorHom a ≠ factorHom a := by
  intro h
  have hdouble : factorHom (a + a) = 0 := by
    rw [map_add]
    nth_rewrite 1 [← h]
    exact neg_add_cancel _
  have htwo : (2 : Nat) * a = 0 := by
    rw [Nat.cast_two, two_mul]
    exact factorHom_eq_zero_iff.mp hdouble
  rcases mul_eq_zero.mp htwo with htwo | hzero
  · have hdvd := (ZMod.natCast_eq_zero_iff 2 groupOrder).mp htwo
    exact Nat.not_dvd_of_pos_of_lt (by decide) (by decide) hdvd
  · exact ha hzero

theorem add_factorHom (a b : ZMod groupOrder) :
    Point.add (toPoint (factorHom a)) (toPoint (factorHom b)) = toPoint (factorHom (a + b)) := by
  rw [map_add, toPoint_add]

theorem scale_factorHom (n : Nat) (a : ZMod groupOrder) :
    Point.scale n (toPoint (factorHom a)) = toPoint (factorHom (n * a)) := by
  rw [← nsmul_eq_mul, map_nsmul, toPoint_nsmul]

theorem factorHom_one : factorHom 1 = generatorPoint := by
  rw [← Nat.cast_one, factorHom_natCast, one_nsmul]

/-! ## Coordinates -/

theorem coordinates_toPoint_eq_some_iff {P : weierstrass.Point} {x y : Nat} :
    (toPoint P).coordinates = some (x, y) ↔ ∃ X Y h, P = .some X Y h ∧ X.val = x ∧ Y.val = y := by
  cases P with
  | zero =>
    constructor
    · intro h
      cases h
    · rintro ⟨_, _, _, h, _⟩
      cases h
  | some X Y h =>
    rw [toPoint_some, Point.coordinates, Option.some.injEq, Prod.mk.injEq]
    constructor
    · rintro ⟨hx, hy⟩
      exact ⟨X, Y, h, rfl, hx, hy⟩
    · rintro ⟨_, _, _, hsame, hx, hy⟩
      cases hsame
      exact ⟨hx, hy⟩

theorem coordinates_toPoint_eq_none_iff {P : weierstrass.Point} :
    (toPoint P).coordinates = none ↔ P = 0 := by
  cases P with
  | zero => exact ⟨fun _ => rfl, fun _ => rfl⟩
  | some X Y h =>
    constructor
    · intro hnone
      cases hnone
    · intro hzero
      exact absurd hzero (Point.some_ne_zero h)

/-- The field has an odd number of elements, so of a number and its opposite one is odd. -/
theorem neg_val_odd {y : FieldElement} (hy : y ≠ 0) :
    ((-y).val % 2 == 1) = !(y.val % 2 == 1) := by
  have hlt := ZMod.val_lt y
  have hodd : fieldPrime % 2 = 1 := by decide
  rw [ZMod.neg_val, if_neg hy, Bool.eq_iff_iff, beq_iff_eq, Bool.not_eq_true', beq_eq_false_iff_ne]
  omega

/-- A multiple with coordinates is a point of the group, and its second coordinate is not zero. -/
theorem exists_eq_some_of_coordinates {a : ZMod groupOrder} {x y : Nat}
    (h : (toPoint (factorHom a)).coordinates = some (x, y)) :
    ∃ X Y hns, factorHom a = .some X Y hns ∧ Y ≠ 0 ∧ X.val = x ∧ Y.val = y := by
  obtain ⟨X, Y, hns, hP, hx, hy⟩ := coordinates_toPoint_eq_some_iff.mp h
  refine ⟨X, Y, hns, hP, ?_, hx, hy⟩
  rintro rfl
  have ha : a ≠ 0 := by
    rintro rfl
    exact Point.some_ne_zero hns (hP.symm.trans (map_zero factorHom))
  apply neg_factorHom_ne ha
  rw [hP, Point.neg_some, Point.some.injEq, negY_eq, neg_zero]
  exact ⟨rfl, rfl⟩

/-- **Opposite points.** The first coordinate is the same, and the second has the other parity. -/
theorem coordinates_neg {a : ZMod groupOrder} {x y : Nat}
    (h : (toPoint (factorHom a)).coordinates = some (x, y)) :
    ∃ y', (toPoint (factorHom (-a))).coordinates = some (x, y') ∧
      (y' % 2 == 1) = !(y % 2 == 1) := by
  obtain ⟨X, Y, hns, hP, hY, rfl, rfl⟩ := exists_eq_some_of_coordinates h
  refine ⟨(-Y).val, ?_, neg_val_odd hY⟩
  rw [map_neg, hP, Point.neg_some, coordinates_toPoint_eq_some_iff]
  exact ⟨X, _, _, rfl, rfl, congrArg ZMod.val (negY_eq X Y)⟩

/-- Of a root and its opposite, the one with the parity of the number is the number. -/
theorem pick_root {root : Coordinate} {y : FieldElement} (hy : y ≠ 0)
    (h : toZMod root * toZMod root = y * y) :
    (if (root.val % 2 == 1) == (y.val % 2 == 1) then root else -root) = ofZMod y := by
  rcases mul_self_eq_mul_self_iff.mp h with hsame | hopposite
  · obtain rfl := ofZMod_eq_iff.mpr hsame.symm
    exact if_pos (beq_self_eq_true _)
  · obtain rfl := ofZMod_eq_iff.mpr hopposite.symm
    have hodd : ((ofZMod (-y)).val % 2 == 1) = !(y.val % 2 == 1) := neg_val_odd hy
    rw [if_neg]
    · rw [← toZMod_inj, toZMod_neg, toZMod_ofZMod, toZMod_ofZMod, neg_neg]
    · rw [hodd]
      simp

/-- **Points with a first coordinate.** The one of the right parity is found. -/
theorem lift_eq {a : ZMod groupOrder} {x y : Nat}
    (h : (toPoint (factorHom a)).coordinates = some (x, y)) :
    Point.lift x (y % 2 == 1) = some (toPoint (factorHom a)) := by
  obtain ⟨X, Y, hns, hP, hY, rfl, rfl⟩ := exists_eq_some_of_coordinates h
  have hside : toZMod (curveSide (ofZMod X)) = Y * Y := by
    rw [nonsingular_iff.mp hns, curveSide]
    simp
  have hroot := toZMod_squareRoot_mul_self (by decide) hside
  have hon : onCurve (ofZMod X) (squareRoot (curveSide (ofZMod X))) = true := by
    rw [onCurve_iff, nonsingular_iff, hroot, toZMod_ofZMod]
    exact nonsingular_iff.mp hns
  have hlift : Point.lift X.val (Y.val % 2 == 1) = some (.affine (ofZMod X) _) :=
    (dif_pos (ZMod.val_lt X)).trans (if_pos hon)
  rw [hP, toPoint_some]
  refine hlift.trans ?_
  exact congrArg (fun y => some (Point.affine (ofZMod X) y)) (pick_root hY hroot)

theorem fst_lt {a : ZMod groupOrder} {x y : Nat}
    (h : (toPoint (factorHom a)).coordinates = some (x, y)) : x < 2 * groupOrder := by
  obtain ⟨X, _, _, _, _, rfl, _⟩ := exists_eq_some_of_coordinates h
  calc X.val < fieldPrime := ZMod.val_lt X
    _ ≤ 2 * groupOrder := by decide

/-! ## Scheme -/

/-- The multiple of the generator by a residue, as a point of the library. -/
def multiple (a : ZMod curve.order) : curve.Point := toPoint (factorHom a)

/-- **The curve** is what the signature scheme takes it for. -/
theorem isLawful_curve : curve.IsLawful multiple where
  prime := groupOrder_prime
  two_lt := by decide
  generator_eq := toPoint_generatorPoint.symm.trans (congrArg toPoint factorHom_one.symm)
  add_multiple := add_factorHom
  scale_multiple := scale_factorHom
  coordinates_eq_none_iff := coordinates_toPoint_eq_none_iff.trans factorHom_eq_zero_iff
  coordinates_neg := coordinates_neg
  lift_eq := lift_eq
  fst_lt := fst_lt

end ChainClient.Crypto.Secp256k1
