import ChainClient.Crypto.Curve
import ChainClient.Crypto.Modular

/-!
# `ChainClient.Crypto.Ecdsa` — signatures over a curve group

A signature of the number `z` under the key `d` is made from a secret multiple `k` of the generator:
`r` is the first coordinate of that point modulo the order, and `s = (z + r * d) / k`. A recovery
hint tells which point it was.

## Contents
- **Hints.** `Hint` holds the parity of the second coordinate and whether `r` was reduced.
- **Scheme.** `sign`, `verify` and `recover`, in terms of the operations of a `Curve`.
- **Low form.** `isHigh` tells which of `s` and `-s` is in the upper half; `verify` takes the lower
  only.
-/

namespace ChainClient.Crypto.Ecdsa

variable (C : Curve)

/-- Which of the points with a first coordinate congruent to `r` a signature was made from. -/
structure Hint where
  /-- Whether the second coordinate is odd. -/
  odd : Bool
  /-- Whether the first coordinate is not below the order. -/
  reduced : Bool
  deriving DecidableEq, Repr

namespace Hint

/-- The hint numbered 0 to 3. -/
def ofNat? (n : Nat) : Option Hint :=
  if n < 4 then some ⟨n % 2 == 1, n / 2 == 1⟩ else none

/-- The number of a hint. -/
def toNat (h : Hint) : Nat := (if h.odd then 1 else 0) + (if h.reduced then 2 else 0)

/-- The hint of the opposite point. -/
def flip (h : Hint) : Hint := { h with odd := !h.odd }

@[simp] theorem ofNat?_toNat (h : Hint) : ofNat? h.toNat = some h := by
  rcases h with ⟨_ | _, _ | _⟩ <;> rfl

end Hint

/-- Whether a scalar lies above half the order. -/
def isHigh (s : C.Scalar) : Bool := C.order / 2 < s.val

/-- The signature of `z` under the key `d` made with the secret number `k`, and its hint. There is
    none if `r` or `s` would be zero. -/
def sign (k d z : C.Scalar) : Option (C.Scalar × C.Scalar × Hint) :=
  match C.coordinates (C.scale k.val C.generator) with
  | none => none
  | some (x, y) =>
    let r : C.Scalar := Modular.residue x
    let s := Modular.inverse k * (z + r * d)
    if r.val = 0 ∨ s.val = 0 then none else some (r, s, ⟨y % 2 == 1, C.order ≤ x⟩)

/-- Whether `(r, s)` signs `z` under the key whose public point is `q`. The high twin of a signature
    is refused. -/
def verify (q : C.Point) (z r s : C.Scalar) : Bool :=
  if isHigh C s then false
  else
    let inv := Modular.inverse s
    let point := C.add (C.scale (z * inv).val C.generator) (C.scale (r * inv).val q)
    match C.coordinates point with
    | none => false
    | some (x, _) => Modular.residue x == r

/-- The public point under which `(r, s)` signs `z`, for the point that the hint picks. -/
def recover (z r s : C.Scalar) (hint : Hint) : Option C.Point := do
  let point ← C.lift (if hint.reduced then r.val + C.order else r.val) hint.odd
  let inv := Modular.inverse r
  let q := C.add (C.scale (-(inv * z)).val C.generator) (C.scale (inv * s).val point)
  let _ ← C.coordinates q
  if verify C q z r s then some q else none

end ChainClient.Crypto.Ecdsa
