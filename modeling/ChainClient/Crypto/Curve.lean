import ChainClient.Crypto.Modular

/-!
# `ChainClient.Crypto.Curve` — what signatures ask of a curve

Signing, verifying and recovering use a curve only through the group of its points: a generator and
its multiples, sums, the coordinates of a point, and the way back from a first coordinate to a
point.

## Contents
- **Operations.** `Curve` bundles them with the order of the generator.
-/

namespace ChainClient.Crypto

/-- A curve group with a generator. -/
structure Curve where
  /-- The points. -/
  Point : Type
  /-- The number of multiples of the generator. -/
  order : Nat
  /-- There is at least one. -/
  order_pos : 0 < order
  /-- The generator. -/
  generator : Point
  /-- The sum of two points. -/
  add : Point → Point → Point
  /-- A point added to itself a number of times. -/
  scale : Nat → Point → Point
  /-- The coordinates of a point; the neutral point has none. -/
  coordinates : Point → Option (Nat × Nat)
  /-- The point with a first coordinate and the parity of the second (`true` for odd). -/
  lift : Nat → Bool → Option Point

/-- A residue modulo the order of the generator. -/
abbrev Curve.Scalar (C : Curve) : Type := Fin C.order

instance (C : Curve) : Modular.Modulus C.order := ⟨C.order_pos⟩

end ChainClient.Crypto
