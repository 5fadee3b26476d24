/-!
# `ChainClient.Text.Numeral` — natural numbers written in a radix

A digit is one of `0`–`9`, `a`–`z` or `A`–`Z`, as far as the radix goes; case does not matter in
reading.

## Contents
- **Digits.** `digit?` values a digit, `digits` lists the digits of a number, `ofDigits` adds them
  up again.
- **Reading.** `readNat?` reads a run of digits of any length; `readUnsigned?` reads a bounded
  decimal number with an optional plus sign, leading zeros allowed.
- **Writing.** `upperDigit` is the capital spelling of a digit up to 35.
-/

namespace ChainClient.Numeral

/-! ## Digits -/

/-- The value of a digit in a radix up to 36. -/
def digit? (radix : Nat) (c : Char) : Option Nat :=
  let n := c.toNat
  let value? :=
    if 48 ≤ n ∧ n ≤ 57 then some (n - 48)
    else if 97 ≤ n ∧ n ≤ 122 then some (n - 87)
    else if 65 ≤ n ∧ n ≤ 90 then some (n - 55)
    else none
  value?.filter (· < radix)

/-- The number with the given digits, most significant first. -/
def ofDigits (radix : Nat) (ds : List Nat) : Nat :=
  ds.foldl (fun acc d => acc * radix + d) 0

/-- The digits of a number, most significant first, with no leading zero; none at all for zero. -/
def digits (radix : Nat) (n : Nat) : List Nat :=
  if _h : n = 0 ∨ radix ≤ 1 then [] else digits radix (n / radix) ++ [n % radix]
termination_by n
decreasing_by exact Nat.div_lt_self (by omega) (by omega)

/-! ## Reading -/

/-- The number that a non-empty run of digits spells. -/
def readNat? (radix : Nat) (cs : List Char) : Option Nat :=
  if cs = [] then none else (cs.mapM (digit? radix)).map (ofDigits radix)

/-- A text without one leading plus sign. -/
def dropPlus : List Char → List Char
  | '+' :: rest => rest
  | cs => cs

/-- The decimal number below `bound` that a text spells: an optional plus sign, then digits. -/
def readUnsigned? (bound : Nat) (cs : List Char) : Option Nat :=
  (readNat? 10 (dropPlus cs)).filter (· < bound)

/-! ## Writing -/

/-- The capital spelling of a digit below 36. -/
def upperDigit (d : Nat) : Char :=
  if d < 10 then Char.ofNat (48 + d) else Char.ofNat (55 + d)

end ChainClient.Numeral
