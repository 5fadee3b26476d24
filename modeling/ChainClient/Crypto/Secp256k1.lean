import ChainClient.Crypto.Curve
import ChainClient.Crypto.Modular
import ChainClient.Bytes

/-!
# `ChainClient.Crypto.Secp256k1` — the curve of account keys

The points with `y ^ 2 = x ^ 3 + 7` over the field of `2 ^ 256 - 2 ^ 32 - 977` elements, and the
neutral point, under the chord and tangent law.

## Contents
- **Numbers.** `fieldPrime` is the size of the field, `groupOrder` the order of the generator, whose
  coordinates are `generatorX` and `generatorY`.
- **Points.** `Point.add`, `Point.scale`, `Point.lift`; `onCurve` is the equation of the curve.
- **Encoding.** `Point.encode` is the uncompressed form of 65 bytes; `Point.decode?` reads that form
  and the compressed one of 33 bytes.
- **Curve.** `curve` hands these operations to the signature scheme.
-/

namespace ChainClient.Crypto.Secp256k1

open ChainClient.Crypto.Modular (Modulus residue)

/-! ## Numbers -/

/-- The number of elements of the field. -/
def fieldPrime : Nat := 0xFFFFFFFFFFFFFFFFFFFFFFFFFFFFFFFFFFFFFFFFFFFFFFFFFFFFFFFEFFFFFC2F

/-- The number of multiples of the generator. -/
def groupOrder : Nat := 0xFFFFFFFFFFFFFFFFFFFFFFFFFFFFFFFEBAAEDCE6AF48A03BBFD25E8CD0364141

instance : Modulus fieldPrime := ⟨by decide⟩

/-- An element of the field. -/
abbrev Coordinate := Fin fieldPrime

/-- The first coordinate of the generator. -/
def generatorX : Coordinate :=
  residue 0x79BE667EF9DCBBAC55A06295CE870B07029BFCDB2DCE28D959F2815B16F81798

/-- The second coordinate of the generator. -/
def generatorY : Coordinate :=
  residue 0x483ADA7726A3C4655DA4FBFC0E1108A8FD17B448A68554199C47D08FFB10D4B8

/-! ## Points -/

/-- A point of the curve: the neutral one, or a pair of coordinates. -/
inductive Point where
  /-- The neutral point. -/
  | infinity
  /-- The point with the given coordinates. -/
  | affine (x y : Coordinate)
  deriving DecidableEq

/-- The right-hand side of the equation of the curve. -/
def curveSide (x : Coordinate) : Coordinate := x * x * x + residue 7

/-- Whether a pair of coordinates satisfies the equation of the curve. -/
def onCurve (x y : Coordinate) : Bool := y * y == curveSide x

namespace Point

/-- The third point on a line of the given slope through two points, turned over. -/
def alongSlope (slope x₁ y₁ x₂ : Coordinate) : Point :=
  let x₃ := slope * slope - x₁ - x₂
  .affine x₃ (slope * (x₁ - x₃) - y₁)

/-- The sum of two points. -/
def add : Point → Point → Point
  | .infinity, q => q
  | p, .infinity => p
  | .affine x₁ y₁, .affine x₂ y₂ =>
    if x₁ = x₂ then
      if y₁ = y₂ ∧ y₁.val ≠ 0 then
        alongSlope (residue 3 * x₁ * x₁ * Modular.inverse (residue 2 * y₁)) x₁ y₁ x₂
      else .infinity
    else alongSlope ((y₂ - y₁) * Modular.inverse (x₂ - x₁)) x₁ y₁ x₂

/-- A point added to itself `n` times. -/
def scale (n : Nat) (p : Point) : Point :=
  if n = 0 then .infinity
  else
    let doubled := scale (n / 2) (add p p)
    if n % 2 = 1 then add p doubled else doubled
termination_by n
decreasing_by omega

/-- The coordinates of a point that has them. -/
def coordinates : Point → Option (Nat × Nat)
  | .infinity => none
  | .affine x y => some (x.val, y.val)

/-- The point with first coordinate `x` whose second one is odd or even as asked. -/
def lift (x : Nat) (odd : Bool) : Option Point :=
  if h : x < fieldPrime then
    let x : Coordinate := ⟨x, h⟩
    let y := Modular.squareRoot (curveSide x)
    if onCurve x y then
      some (.affine x (if (y.val % 2 == 1) == odd then y else -y))
    else none
  else none

/-- The generator of the group. -/
def generator : Point := .affine generatorX generatorY

/-! ## Encoding -/

/-- The point with the given coordinates, if they satisfy the equation. -/
def ofCoordinates? (x y : Nat) : Option Point :=
  if h : x < fieldPrime ∧ y < fieldPrime then
    if onCurve ⟨x, h.1⟩ ⟨y, h.2⟩ then some (.affine ⟨x, h.1⟩ ⟨y, h.2⟩) else none
  else none

/-- The byte 4 and both coordinates; a zero byte for the neutral point. -/
def encode : Point → Bytes
  | .infinity => [0]
  | .affine x y => 4 :: (Bytes.ofNat 32 x.val ++ Bytes.ofNat 32 y.val)

/-- The point, not the neutral one, that is encoded in 65 bytes (4 and both coordinates) or in 33
    bytes (2 or 3 for an even or odd second coordinate, and the first one). In the compact form,
    announced by 5, only points with an even second coordinate have an encoding. -/
def decode? : Bytes → Option Point
  | [] => none
  | tag :: body =>
    if tag = 4 ∧ body.length = 64 then
      ofCoordinates? (Bytes.value (body.take 32)) (Bytes.value (body.drop 32))
    else if (tag = 2 ∨ tag = 3 ∨ tag = 5) ∧ body.length = 32 then
      lift (Bytes.value body) (tag == 3)
    else none

end Point

/-! ## Curve -/

/-- The curve as the signature scheme uses it. -/
def curve : Curve where
  Point := Point
  order := groupOrder
  order_pos := by decide
  generator := Point.generator
  add := Point.add
  scale := Point.scale
  coordinates := Point.coordinates
  lift := Point.lift

end ChainClient.Crypto.Secp256k1
