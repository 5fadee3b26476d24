import ChainClient.Toml.Quotation
import ChainClient.Toml.Value
import ChainClient.Width

/-!
# `ChainClient.Toml.Scalar` — numbers, dates and truth values

## Contents
- **Integers.** `integer` reads decimal, hexadecimal, octal and binary numerals of 64 signed bits.
- **Floats.** `float` reads a float and keeps its text; one that would round to infinity is refused
  unless it is negative.
- **Dates.** `dateTime` reads a date, a time, or both with an offset, and checks every part of it.
- **Scalars.** `scalar` reads any value that is no array and no table.
-/

namespace ChainClient.Toml.Reader

/-- A character list without underscores. -/
def dropUnderscores (cs : List Char) : List Char := cs.filter (· != '_')

/-! ## Integers -/

/-- A plus or minus sign. -/
def sign : Reader Char := char fun c => c == '+' || c == '-'

/-- The digits of a whole number: a zero, or digits that do not start with one. -/
def whole : Reader (List Char) := (only '0' *> pure ['0']) <|> digits Char.isDigit

/-- An integer of 64 bits. -/
def integerOf (i : Int) : Reader Toml :=
  if -(bitBound 63 : Int) ≤ i ∧ i < bitBound 63 then pure (.integer i) else failure

/-- An integer in a radix other than ten, which a mark announces. -/
def marked (mark : String) (radix : Nat) : Reader Toml := do
  word mark
  let ds ← digits fun c => (Numeral.digit? radix c).isSome
  match Numeral.readNat? radix (dropUnderscores ds) with
  | some n => integerOf n
  | none => failure

/-- A decimal integer. -/
def decimal : Reader Toml := do
  let sign ← opt sign
  let ds ← whole
  match Numeral.readNat? 10 (dropUnderscores ds) with
  | some n => integerOf (if sign = some '-' then -n else n)
  | none => failure

/-- An integer. -/
def integer : Reader Toml := marked "0x" 16 <|> marked "0o" 8 <|> marked "0b" 2 <|> decimal

/-! ## Floats -/

/-- The least number that is rounded to infinity: halfway from the greatest float to the power of
    two after it. -/
def infinityBound : Nat := bitBound 1024 - bitBound 970

/-- Whether `mantissa * 10 ^ exponent` is rounded to infinity. The first two cases keep the powers
    of ten small. -/
def overflows (mantissa : Nat) (exponent : Int) : Bool :=
  let length : Int := (Numeral.digits 10 mantissa).length
  if mantissa = 0 then false
  else if length + exponent ≤ 308 then false
  else if 310 ≤ length + exponent then true
  else if 0 ≤ exponent then infinityBound ≤ mantissa * Nat.pow 10 exponent.toNat
  else infinityBound * Nat.pow 10 (-exponent).toNat ≤ mantissa

/-- The exponent of a float. -/
def exponent : Reader Int := do
  discard (char fun c => c == 'e' || c == 'E')
  let sign ← opt sign
  let ds ← digits Char.isDigit
  match Numeral.readNat? 10 (dropUnderscores ds) with
  | some n => pure (if sign = some '-' then -n else n)
  | none => failure

/-- The digits behind the point of a float. -/
def fraction : Reader (List Char) := only '.' *> digits Char.isDigit

/-- A float that is neither infinite nor no number. -/
def finite : Reader Unit := do
  let sign ← opt sign
  let ws ← whole
  let (fs, e) ← (do return (([] : List Char), ← exponent))
    <|> (do return (← fraction, (← opt exponent).getD 0))
  let fs := dropUnderscores fs
  match Numeral.readNat? 10 (dropUnderscores ws ++ fs) with
  | some mantissa =>
    if sign ≠ some '-' ∧ overflows mantissa (e - fs.length) then failure else pure ()
  | none => failure

/-- A float. -/
def float : Reader Toml := do
  let text ← taken (finite <|> (opt sign *> (word "inf" <|> word "nan")))
  return .float (String.ofList text)

/-! ## Dates -/

/-- A number of `n` digits between two bounds. -/
def between (n low high : Nat) : Reader Nat := do
  let value ← count n
  if low ≤ value ∧ value ≤ high then pure value else failure

/-- Whether a year has a leap day. -/
def isLeapYear (year : Nat) : Bool := year % 4 == 0 && (year % 100 != 0 || year % 400 == 0)

/-- The number of days of a month. -/
def daysOf (year month : Nat) : Nat :=
  if month = 2 then (if isLeapYear year then 29 else 28)
  else if month = 4 ∨ month = 6 ∨ month = 9 ∨ month = 11 then 30
  else 31

/-- A date. -/
def date : Reader Unit := do
  let year ← count 4
  only '-'
  let month ← between 2 1 12
  only '-'
  discard (between 2 1 (daysOf year month))

/-- A time of day. A second may be the leap second. -/
def time : Reader Unit := do
  discard (between 2 0 23)
  only ':'
  discard (between 2 0 59)
  only ':'
  discard (between 2 0 60)
  discard (opt (only '.' *> char Char.isDigit *> span Char.isDigit))

/-- The offset of a time from the universal one. -/
def offset : Reader Unit :=
  discard (char fun c => c == 'Z' || c == 'z') <|> do
    discard sign
    discard (between 2 0 23)
    only ':'
    discard (between 2 0 59)

/-- A date, a time, or both. -/
def dateTime : Reader Toml := do
  let separator := char fun c => c == 'T' || c == 't' || c == ' '
  let text ← taken ((date *> discard (opt (separator *> time *> opt offset))) <|> time)
  return .dateTime (String.ofList text)

/-! ## Scalars -/

/-- A truth value. -/
def boolean : Reader Toml :=
  (word "true" *> pure (.boolean true)) <|> (word "false" *> pure (.boolean false))

/-- A value that is no array and no table. -/
def scalar : Reader Toml :=
  (.string <$> quotation) <|> boolean <|> dateTime <|> float <|> integer

end ChainClient.Toml.Reader
