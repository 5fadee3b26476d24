import ChainClient.Text.Numeral
import ChainClient.Text.Shortest

/-!
# `ChainClient.Json.Number` — numbers that are taken over from a value

A number keeps its text when it is read from a JSON text. When it is taken over from a value in
memory it keeps it too, with two exceptions: minus zero loses its sign, and a number that has the
fewest digits that name its double, other than a whole number of at most 128 bits, takes the form in
which doubles are written. That form differs from the old one where the number is very small or very
great, which turns it scientific, and where two numbers name the double equally well: of these the
greater one counts as a name with the fewest digits, and the even one is written.

## Contents
- **Scientific notation.** `scientific` writes digits and a power of ten.
- **Positional notation.** `positional` writes digits with a point among them; `Decimal` is a number
  without a sign as it stands in positional notation.
- **Doubles.** `Decimal.doubleForm?` is the form of a number that is written as a double.
- **Taking over.** `takenOver` is the text of a number that is taken over.
-/

namespace ChainClient.JsonNumber

/-! ## Scientific notation -/

/-- The number `digits` times ten to the power of `tens`, with one digit before the point and a
    sign before the exponent. -/
def scientific (digits : Nat) (tens : Int) : String :=
  match digits.repr.toList with
  | [] => ""
  | first :: rest =>
    let exponent : Int := tens + rest.length
    let fraction := if rest = [] then "" else "." ++ String.ofList rest
    String.singleton first ++ fraction ++ "e" ++ (if exponent < 0 then "-" else "+")
      ++ exponent.natAbs.repr

/-! ## Positional notation -/

/-- The number `digits` with the last `places` of its digits behind a point; a zero stands for each
    digit that is missing there, and for the part before the point if that is empty. -/
def positional (digits places : Nat) : String :=
  let unit := Nat.pow 10 places
  let fraction := (digits % unit).repr.toList.leftpad places '0'
  (digits / unit).repr ++ "." ++ String.ofList fraction

/-- A number without a sign in positional notation: its digits, and how many of them stand behind
    the point, if there is one. -/
structure Decimal where
  /-- The digits as one number. -/
  digits : Nat
  /-- The number of digits behind the point. -/
  places? : Option Nat

/-- The number that a text holds in positional notation. -/
def Decimal.ofChars? (cs : List Char) : Option Decimal :=
  let whole := cs.takeWhile (· ≠ '.')
  match cs.dropWhile (· ≠ '.') with
  | [] => (Numeral.readNat? 10 whole).map (⟨·, none⟩)
  | _ :: fraction => (Numeral.readNat? 10 (whole ++ fraction)).map (⟨·, some fraction.length⟩)

/-! ## Doubles -/

/-- A number without the zeros at its end, and their number. -/
def withoutZeros (n : Nat) : Nat × Nat :=
  let zeros := (n.repr.toList.reverse.takeWhile (· = '0')).length
  (n / Nat.pow 10 zeros, zeros)

/-- The form of a number that is written as a double, if it is. A whole number has to reach `bound`
    for that and turns scientific; any other number turns scientific below `10 ^ -5`, and none
    reaches `10 ^ 16` with so few digits. -/
def Decimal.doubleForm? (bound : Nat) : Decimal → Option String
  | ⟨n, none⟩ =>
    let (digits, zeros) := withoutZeros n
    if bound ≤ n ∧ isUpperShortest digits zeros then
      some (scientific (evenShortest digits zeros) zeros)
    else none
  | ⟨n, some places⟩ =>
    if isUpperShortest n (-places) then
      let digits := evenShortest n (-places)
      if n * Nat.pow 10 5 < Nat.pow 10 places then some (scientific digits (-places))
      else some (positional digits places)
    else none

/-! ## Taking over -/

/-- The text of a number that is taken over from a value. -/
def takenOver (text : String) : String :=
  match text.toList with
  | '-' :: cs =>
    if cs = ['0'] then "0"
    else
      match (Decimal.ofChars? cs).bind (Decimal.doubleForm? (bitBound 127 + 1)) with
      | some form => "-" ++ form
      | none => text
  | cs => ((Decimal.ofChars? cs).bind (Decimal.doubleForm? (bitBound 128))).getD text

end ChainClient.JsonNumber
