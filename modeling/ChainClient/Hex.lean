import ChainClient.Text.Utf8
import ChainClient.Text.Quoted

/-!
# `ChainClient.Hex` — bytes as hexadecimal text

Texts from people and texts from a node are read by different rules. The strict readers say where a
text goes wrong. The lossy readers never fail: they keep the bytes spelled before the first pair
that is not two digits. Both look at the UTF-8 bytes of the text, so positions count bytes.

## Contents
- **Marks.** A text may start with `0x` or `0X`: `hasMark`, `dropMark`.
- **Writing.** `encode` spells bytes in lowercase; `text` and `marked` make a text of them.
- **Lossy reading.** `pairs` reads bare digits and `bareFit` brings them to a width; `lossy` skips
  the mark and reads an odd count of digits with a zero in front.
- **Strict reading.** `decode` reads bare digits or reports a `DigitFault`; `decodeMarked` asks for
  the mark as well, and reports an `Error`.
-/

namespace ChainClient.Hex

/-! ## Marks -/

/-- Whether a text starts with `0x` or `0X`. -/
def hasMark : List Char → Bool
  | '0' :: c :: _ => c == 'x' || c == 'X'
  | _ => false

/-- A text without its mark, if it has one. -/
def dropMark (cs : List Char) : List Char := if hasMark cs then cs.drop 2 else cs

/-- A text without its mark, if it has one. -/
def unmarked (s : String) : String := String.ofList (dropMark s.toList)

/-! ## Digits -/

/-- The value of the ASCII hexadecimal digit with a given code. -/
def digit? (b : UInt8) : Option UInt8 :=
  if 0x30 ≤ b ∧ b ≤ 0x39 then some (b - 0x30)
  else if 0x61 ≤ b ∧ b ≤ 0x66 then some (b - 0x57)
  else if 0x41 ≤ b ∧ b ≤ 0x46 then some (b - 0x37)
  else none

/-- Whether a byte is the code of a hexadecimal digit. -/
def isDigit (b : UInt8) : Bool :=
  (0x30 ≤ b && b ≤ 0x39) || (0x41 ≤ b && b ≤ 0x46) || (0x61 ≤ b && b ≤ 0x66)

/-- Whether a text is an even number of digits, with no mark. -/
def isHex (s : String) : Bool :=
  (Utf8.bytes s).length % 2 == 0 && (Utf8.bytes s).all isDigit

/-! ## Writing -/

/-- Two lowercase digits for each byte. -/
def encode (bs : Bytes) : List Char :=
  bs.flatMap fun b => [Nat.digitChar (b.toNat / 16), Nat.digitChar (b.toNat % 16)]

/-- The digits of a byte string. -/
def text (bs : Bytes) : String := String.ofList (encode bs)

/-- The digits of a byte string after the mark `0x`. -/
def marked (bs : Bytes) : String := String.ofList ('0' :: 'x' :: encode bs)

/-! ## Lossy reading -/

/-- The bytes spelled by pairs of digits, up to the first pair that is none; an odd last digit is
    dropped. -/
def pairs : Bytes → Bytes
  | high :: low :: rest =>
    match digit? high, digit? low with
    | some h, some l => (h * 16 + l) :: pairs rest
    | _, _ => []
  | _ => []

/-- The bytes spelled by a text of digits without a mark. -/
def bare (s : String) : Bytes := pairs (Utf8.bytes s)

/-- The last `width` bytes spelled by a text of digits without a mark; fewer are padded. -/
def bareFit (width : Nat) (s : String) : Bytes :=
  let bs := bare s
  if width ≤ bs.length then bs.drop (bs.length - width) else bs.padLeft width

/-- The bytes spelled by a text, its mark skipped, an odd count of digits read with a zero in
    front. -/
def lossy (s : String) : Bytes :=
  let body := Utf8.encode (dropMark s.toList)
  if body.length % 2 = 1 then pairs (0x30 :: body) else pairs body

/-! ## Strict reading -/

/-- What is wrong with a run of digits. -/
inductive DigitFault where
  /-- Their number is odd. -/
  | oddCount
  /-- The byte at `position` is no digit. -/
  | notDigit (byte : UInt8) (position : Nat)
  deriving DecidableEq, Repr

/-- The wording of a fault. A byte is shown as the character with its code. -/
def DigitFault.message : DigitFault → String
  | .oddCount => "Odd number of digits"
  | .notDigit byte position =>
    "Invalid character " ++ Text.quotedChar (Char.ofUInt8 byte) ++ " at position " ++ position.repr

/-- The bytes spelled by an even number of digits, the first of which stands at `position`. -/
def decodeFrom (position : Nat) : Bytes → Except DigitFault Bytes
  | high :: low :: rest =>
    match digit? high, digit? low with
    | none, _ => .error (.notDigit high position)
    | some _, none => .error (.notDigit low (position + 1))
    | some h, some l =>
      match decodeFrom (position + 2) rest with
      | .ok bs => .ok ((h * 16 + l) :: bs)
      | .error fault => .error fault
  | _ => .ok []

/-- The bytes spelled by a run of digits. -/
def decode (digits : Bytes) : Except DigitFault Bytes :=
  if digits.length % 2 = 1 then .error .oddCount else decodeFrom 0 digits

/-- Why a text is not the marked hexadecimal of a byte string. -/
inductive Error where
  /-- The text is empty. -/
  | empty
  /-- It does not start with a mark. -/
  | missingMark
  /-- The mark is followed by an odd number of digits. -/
  | oddLength
  /-- The byte at `position` of the text is no digit. -/
  | invalidCharacter (byte : UInt8) (position : Nat)
  deriving DecidableEq, Repr

/-- The wording of an error. -/
def Error.message : Error → String
  | .empty => "empty hex string"
  | .missingMark => "hex string without 0x prefix"
  | .oddLength => "hex string of odd length"
  | .invalidCharacter byte position =>
    "invalid hex character " ++ Text.quotedChar (Char.ofUInt8 byte) ++ " at position "
      ++ position.repr

/-- The error of a marked text whose digits have a fault; the mark takes the first two positions. -/
def Error.ofDigitFault : DigitFault → Error
  | .oddCount => .oddLength
  | .notDigit byte position => .invalidCharacter byte (position + 2)

/-- The bytes spelled by a marked text. -/
def decodeMarked (s : String) : Except Error Bytes :=
  if s.toList = [] then .error .empty
  else if hasMark s.toList then
    (decode (Utf8.encode (s.toList.drop 2))).mapError .ofDigitFault
  else .error .missingMark

end ChainClient.Hex
