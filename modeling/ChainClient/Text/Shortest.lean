import ChainClient.Width

/-!
# `ChainClient.Text.Shortest` — the fewest digits that name a double

A double is a natural number below `2 ^ 53` times a power of two from `-1074` to `971`. Every
decimal number is next to some double, and many decimal numbers share one: the fewest digits that
name a double are the ones to write it with.

## Contents
- **Rounding.** `roundEven` rounds a fraction, a half to the even neighbour.
- **Doubles.** `Double.nearest?` finds the double next to a decimal number, unless that number is
  too great.
- **Digits.** A shortest name of a double is a decimal number next to it such that no number of
  fewer digits is next to it, and none of as many digits is closer. Two of them may be equally
  close: `isUpperShortest` asks for the greater one, `evenShortest` gives the even one.
-/

namespace ChainClient

/-! ## Rounding -/

/-- The natural number next to a fraction; a half goes to the even neighbour. -/
def roundEven (num den : Nat) : Nat :=
  let whole := num / den
  let twice := 2 * (num % den)
  if twice < den then whole else if den < twice then whole + 1 else whole + whole % 2

/-! ## Doubles -/

/-- A double that is not below zero: its mantissa times two to its exponent. -/
structure Double where
  /-- The significant bits. -/
  mantissa : Nat
  /-- The power of two of the last bit. -/
  exponent : Int
  deriving DecidableEq, Repr

namespace Double

/-- A fraction divided by two to the power of an exponent, as a numerator and a denominator. -/
def unscale (num den : Nat) (exponent : Int) : Nat × Nat :=
  (num * bitBound (-exponent).toNat, den * bitBound exponent.toNat)

/-- The exponent of the double next to a fraction: the fraction takes up 53 bits there, or fewer if
    the exponent is the least one. -/
def exponentOf (num den : Nat) : Int :=
  let low : Int := num.log2 - den.log2 - 53
  let fraction := unscale num den low
  max (-1074) (if fraction.1 / fraction.2 < bitBound 53 then low else low + 1)

/-- The double next to a fraction, if the fraction is not too great. -/
def nearestFraction? (num den : Nat) : Option Double :=
  let exponent := exponentOf num den
  let fraction := unscale num den exponent
  let mantissa := roundEven fraction.1 fraction.2
  let double : Double :=
    if mantissa = bitBound 53 then ⟨bitBound 52, exponent + 1⟩ else ⟨mantissa, exponent⟩
  if double.exponent ≤ 971 then some double else none

/-- The double next to `digits` times ten to the power of `tens`, unless that number is too
    great. -/
def nearest? (digits : Nat) (tens : Int) : Option Double :=
  nearestFraction? (digits * Nat.pow 10 tens.toNat) (Nat.pow 10 (-tens).toNat)

/-- How far `digits` times ten to the power of `tens` is from a double, in a unit that depends on
    `tens` and on the double alone. -/
def distance (double : Double) (digits : Nat) (tens : Int) : Nat :=
  let given := digits * Nat.pow 10 tens.toNat * bitBound (-double.exponent).toNat
  let held := double.mantissa * bitBound double.exponent.toNat * Nat.pow 10 (-tens).toNat
  given - held + (held - given)

/-- How `other` compares with `digits` as a name of a double on the grid of `tens`: greater if it is
    closer to the double, equal if it is as close, and less if it is farther away or next to another
    double. -/
def rival (double : Double) (digits other : Nat) (tens : Int) : Ordering :=
  if nearest? other tens = some double then
    compare (double.distance digits tens) (double.distance other tens)
  else .lt

end Double

/-! ## Digits -/

/-- The double that `digits` times ten to the power of `tens` names with the fewest digits and none
    closer, if it does; two numbers may be equally close. The numbers next to a double lie without
    gaps, so if any number on a grid is among them, one of the two around this number is. -/
def shortestNameOf? (digits : Nat) (tens : Int) : Option Double :=
  (Double.nearest? digits tens).filter fun double =>
    digits < Nat.pow 10 17 && double.mantissa != 0 && digits % 10 != 0
      && Double.nearest? (digits / 10) (tens + 1) != some double
      && Double.nearest? (digits / 10 + 1) (tens + 1) != some double
      && double.rival digits (digits - 1) tens != .gt
      && double.rival digits (digits + 1) tens != .gt

/-- Whether `digits` times ten to the power of `tens` is a number of the fewest digits that name its
    double, and the greater one if two are equally close. -/
def isUpperShortest (digits : Nat) (tens : Int) : Bool :=
  match shortestNameOf? digits tens with
  | none => false
  | some double => double.rival digits (digits + 1) tens != .eq

/-- The even one of two numbers that name a double equally well, if `digits` times ten to the power
    of `tens` is the greater of them; `digits` otherwise. -/
def evenShortest (digits : Nat) (tens : Int) : Nat :=
  match shortestNameOf? digits tens with
  | none => digits
  | some double =>
    if digits % 2 = 1 ∧ double.rival digits (digits - 1) tens = .eq then digits - 1 else digits

end ChainClient
