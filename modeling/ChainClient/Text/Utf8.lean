import ChainClient.Bytes

/-!
# `ChainClient.Text.Utf8` — characters as UTF-8 bytes

## Contents
- **Writing.** `Utf8.encode` lays characters end to end; `Utf8.bytes` does so for a text.
- **Reading.** `Utf8.decode` (and `Utf8.read`, for a text) reads characters until the bytes end or
  stop being UTF-8, and then reports a `Utf8.Fault`: where the offending sequence starts, and how
  many of its bytes can be blamed.
- **Positions.** `Utf8.positions` counts bytes along a text, and `Utf8.slice` cuts between two of
  them.
-/

namespace ChainClient

namespace Utf8

/-- The UTF-8 bytes of a list of characters. -/
def encode (cs : List Char) : Bytes := cs.flatMap String.utf8EncodeChar

/-- Why a byte string is not UTF-8. -/
inductive Fault where
  /-- The `length` bytes from `index` on start no character. -/
  | invalid (length index : Nat)
  /-- The bytes from `index` on start a character but end before it does. -/
  | incomplete (index : Nat)
  deriving DecidableEq, Repr

/-- The wording of a fault. -/
def Fault.message : Fault → String
  | .invalid length index =>
    "invalid utf-8 sequence of " ++ length.repr ++ " bytes from index " ++ index.repr
  | .incomplete index => "incomplete utf-8 byte sequence from index " ++ index.repr

/-- The ranges that the bytes after a leading byte have to lie in; `none` if it leads nothing. -/
def followers (lead : UInt8) : Option (List (UInt8 × UInt8)) :=
  if lead < 0x80 then some []
  else if lead < 0xC2 then none
  else if lead < 0xE0 then some [(0x80, 0xBF)]
  else if lead = 0xE0 then some [(0xA0, 0xBF), (0x80, 0xBF)]
  else if lead = 0xED then some [(0x80, 0x9F), (0x80, 0xBF)]
  else if lead < 0xF0 then some [(0x80, 0xBF), (0x80, 0xBF)]
  else if lead = 0xF0 then some [(0x90, 0xBF), (0x80, 0xBF), (0x80, 0xBF)]
  else if lead < 0xF4 then some [(0x80, 0xBF), (0x80, 0xBF), (0x80, 0xBF)]
  else if lead = 0xF4 then some [(0x80, 0x8F), (0x80, 0xBF), (0x80, 0xBF)]
  else none

/-- The fault of bytes at `index` that start no character: the bytes seen so far are blamed when one
    falls outside its range, and the end of the input when it comes first. -/
def faultAfter (index : Nat) : (seen : Nat) → List (UInt8 × UInt8) → Bytes → Fault
  | seen, (low, high) :: ranges, b :: rest =>
    if low ≤ b ∧ b ≤ high then faultAfter index (seen + 1) ranges rest else .invalid seen index
  | seen, [], _ => .invalid seen index
  | _, _ :: _, [] => .incomplete index

/-- The fault of bytes at `index` whose front is no character. -/
def faultAt (index : Nat) : Bytes → Fault
  | [] => .incomplete index
  | lead :: rest =>
    match followers lead with
    | some ranges => faultAfter index 1 ranges rest
    | none => .invalid 1 index

/-- The character at the front of a byte string. -/
def front? (bs : Bytes) : Option Char := (bs.take 4).toByteArray.utf8DecodeChar? 0

/-- The characters of a byte string that starts at `index` of the whole input. -/
def decodeFrom (index : Nat) (bs : Bytes) : Except Fault (List Char) :=
  if _h : bs = [] then .ok []
  else
    match front? bs with
    | none => .error (faultAt index bs)
    | some c =>
      match decodeFrom (index + c.utf8Size) (bs.drop c.utf8Size) with
      | .ok cs => .ok (c :: cs)
      | .error fault => .error fault
termination_by bs.length
decreasing_by
  have := c.utf8Size_pos
  have := List.length_pos_iff.mpr _h
  simp only [List.length_drop]
  omega

/-- The characters of a byte string, or its first fault. -/
def decode (bs : Bytes) : Except Fault (List Char) := decodeFrom 0 bs

/-- The UTF-8 bytes of a text. -/
def bytes (s : String) : Bytes := encode s.toList

/-- The text a byte string spells, or its first fault. -/
def read (bs : Bytes) : Except Fault String := (decode bs).map String.ofList

/-! ## Positions -/

/-- The characters of a text that starts at the byte `index`, each with the byte it starts at. -/
def positions (index : Nat) : List Char → List (Nat × Char)
  | [] => []
  | c :: cs => (index, c) :: positions (index + c.utf8Size) cs

/-- The characters of a text from the byte `first` on and before the byte `last`. -/
def slice (first last : Nat) (cs : List Char) : List Char :=
  ((positions 0 cs).filter fun p => first ≤ p.1 ∧ p.1 < last).map Prod.snd

theorem length_positions (index : Nat) (cs : List Char) :
    (positions index cs).length = cs.length := by
  induction cs generalizing index with
  | nil => rfl
  | cons c cs ih => rw [positions, List.length_cons, List.length_cons, ih]

theorem length_slice_le (first last : Nat) (cs : List Char) :
    (slice first last cs).length ≤ cs.length := by
  rw [slice, List.length_map, ← length_positions 0 cs]
  exact List.length_filter_le _ _

end Utf8

end ChainClient
