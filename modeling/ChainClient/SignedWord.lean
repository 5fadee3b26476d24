import ChainClient.Word

/-!
# `ChainClient.SignedWord` — signed integers of up to 256 bits, as sign and magnitude

## Contents
- **Values.** A `SignedWord` has a magnitude and a sign; zero is never negative. `SignedWord.toInt`
  is the integer it stands for.
- **Two's complement.** `SignedWord.ofWord` and `SignedWord.toWord` pass between a signed word and
  the word that encodes it. Magnitudes beyond `2 ^ 255` have an encoding too, but not one of their
  own.
- **Widths.** `SignedWord.fitsIn` asks whether a value fits a signed integer of a given width.
-/

namespace ChainClient

/-- A signed integer: its magnitude, and whether it is below zero. -/
structure SignedWord where
  /-- The distance from zero. -/
  magnitude : Word
  /-- Whether the integer is below zero. -/
  negative : Bool
  /-- Zero is not negative. -/
  zero_nonneg : magnitude = 0 → negative = false := by decide
  deriving DecidableEq

namespace SignedWord

/-- The integer with a magnitude and a sign; the sign of zero does not count. -/
def ofSign (magnitude : Word) (negative : Bool) : SignedWord :=
  ⟨magnitude, negative && magnitude != 0, fun h => by simp [h]⟩

/-- The integer a signed word stands for. -/
def toInt (i : SignedWord) : Int :=
  if i.negative then -(i.magnitude.toNat : Int) else (i.magnitude.toNat : Int)

/-- The signed word of an integer whose magnitude fits a word. -/
def ofInt (i : Int) : SignedWord := ofSign (BitVec.ofNat 256 i.natAbs) (i < 0)

/-- Whether the integer is zero. -/
def isZero (i : SignedWord) : Bool := i.magnitude == 0

/-- The integer that a word encodes in two's complement. -/
def ofWord (w : Word) : SignedWord := if w.msb then ofSign (-w) true else ofSign w false

/-- The two's complement of an integer, modulo `2 ^ 256`. -/
def toWord (i : SignedWord) : Word := if i.negative then -i.magnitude else i.magnitude

/-- Whether the integer fits a signed integer of `bits` bits, for widths from 1 to 256: its
    magnitude is below the greatest power of two of that width, or may reach it if it is below
    zero. -/
def fitsIn (i : SignedWord) (bits : Nat) : Bool :=
  if bits = 0 ∨ 256 < bits then false
  else
    let limit := (1 : Word) <<< (bits - 1)
    if i.negative then i.magnitude ≤ limit else i.magnitude < limit

/-- The decimal digits of an integer, after a minus sign if it is below zero. -/
def text (i : SignedWord) : String := (if i.negative then "-" else "") ++ i.magnitude.text

end SignedWord

end ChainClient
