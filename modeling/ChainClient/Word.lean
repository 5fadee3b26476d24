import ChainClient.Bytes
import ChainClient.Text.Numeral
import ChainClient.Text.Quoted
import ChainClient.Hex
import ChainClient.Width

/-!
# `ChainClient.Word` — the 256-bit words of the chain

Amounts, prices and contract integers are words of 256 bits; arithmetic on them wraps.

## Contents
- **Bytes.** A word fills 32 bytes (`Word.toBytes`), or as many as it needs (`Word.minimal`).
- **Power.** `Word.power` raises to a word, modulo `2 ^ 256`.
- **Text.** `Word.parse` reads a decimal or marked hexadecimal numeral and refuses what does not
  fit; `Word.text` writes a decimal one.
-/

namespace ChainClient

/-- A word of 256 bits. -/
abbrev Word := BitVec 256

namespace Word

/-! ## Bytes -/

/-- The number of values of a word. -/
def bound : Nat := bitBound 256

/-- The word spelled by the bytes, of which those beyond the last 32 do not count. -/
def ofBytes (bs : Bytes) : Word := BitVec.ofNat 256 (Bytes.value bs)

/-- The 32 bytes of a word, most significant first. -/
def toBytes (w : Word) : Bytes := Bytes.ofNat 32 w.toNat

/-- The bytes of a word from the first one on that is not zero; none for zero. -/
def minimal (w : Word) : Bytes := w.toBytes.dropWhile (· == 0)

/-- The bytes of a word, at least `width` of them. -/
def padded (width : Nat) (w : Word) : Bytes := Bytes.padLeft width (minimal w)

/-- The number of bits that a word needs. -/
def bitLength (w : Word) : Nat := if w.toNat = 0 then 0 else w.toNat.log2 + 1

/-! ## Power -/

/-- What raising to a power holds between two bits of the exponent. -/
structure Powering where
  /-- The product so far. -/
  result : Word
  /-- The base, squared once for every bit so far. -/
  square : Word

/-- Goes past a bit of the exponent: the square is taken into the product if the bit is set. -/
def Powering.next (p : Powering) (bit : Bool) : Powering where
  result := if bit then p.result * p.square else p.result
  square := p.square * p.square

/-- Past the `count` lowest bits of the exponent, from the lowest on. -/
def Powering.after (base exponent : Word) (count : Nat) : Powering :=
  (List.range count).foldl (fun p i => p.next (exponent.getLsbD i)) ⟨1, base⟩

/-- `base` raised to `exponent`, by squaring; every product wraps. -/
def power (base exponent : Word) : Word :=
  (Powering.after base exponent (bitLength exponent)).result

/-! ## Text -/

/-- Why a text spells no word. -/
inductive ParseError where
  /-- The text is not a decimal or marked hexadecimal numeral. -/
  | invalidNumber (text : String)
  /-- The number does not fit 256 bits. -/
  | overflow (text : String)
  deriving DecidableEq, Repr

/-- The wording of a parse error. -/
def ParseError.message : ParseError → String
  | .invalidNumber text => "invalid integer: " ++ Text.quoted text
  | .overflow text => "integer exceeds 256 bits: " ++ Text.quoted text

/-- The decimal digits of a word. -/
def text (w : Word) : String := w.toNat.repr

/-- Reads on from the number `acc`, digit by digit. The first thing to go wrong is reported: a
    character that is no digit, or the digit that takes the number beyond a word. -/
def parseDigits (radix : Nat) (whole : String) : List Char → (acc : Word) → Except ParseError Word
  | [], acc => .ok acc
  | c :: rest, acc =>
    match Numeral.digit? radix c with
    | none => .error (.invalidNumber whole)
    | some d =>
      if acc.toNat * radix + d < bound then
        parseDigits radix whole rest (BitVec.ofNat 256 (acc.toNat * radix + d))
      else .error (.overflow whole)

/-- The word that a numeral spells: hexadecimal after a mark, otherwise decimal after an optional
    plus sign. The empty text spells zero. -/
def parse (s : String) : Except ParseError Word :=
  if s.toList = [] then .ok 0
  else
    let (radix, digits) :=
      if Hex.hasMark s.toList then (16, s.toList.drop 2) else (10, Numeral.dropPlus s.toList)
    if digits = [] then .error (.invalidNumber s) else parseDigits radix s digits 0

end Word

end ChainClient
