import ChainClient.Bytes

/-!
# `ChainClient.Rlp` — recursive length prefixes

Byte strings and lists of them are written so that a reader knows from the first byte what follows
and from the first few bytes how long it is. Signatures are made over such texts.

## Contents
- **Items.** `Rlp` is a byte string or a list of items; `Rlp.number` is the item of a number.
- **Writing.** `Rlp.encode`; a byte below 128 is its own text, everything else starts with a header.
-/

namespace ChainClient

/-- A byte string, or a list of items. -/
inductive Rlp where
  /-- A byte string. -/
  | bytes (bs : Bytes)
  /-- A list. -/
  | list (items : List Rlp)

namespace Rlp

/-- The item of a number: its bytes without leading zeros. -/
def number (n : Nat) : Rlp := .bytes (Bytes.minimal n)

/-- The header of a text of `length` bytes. Lengths below 56 are added to `base`; longer texts have
    the number of bytes of their length added to `base + 55`, and the length after that. -/
def header (base length : Nat) : Bytes :=
  if length < 56 then [UInt8.ofNat (base + length)]
  else UInt8.ofNat (base + 55 + (Bytes.minimal length).length) :: Bytes.minimal length

/-- The text of a byte string. -/
def encodeBytes : Bytes → Bytes
  | [b] => if b < 0x80 then [b] else header 0x80 1 ++ [b]
  | bs => header 0x80 bs.length ++ bs

/-- The text of a list whose items have the text `payload`. -/
def encodeList (payload : Bytes) : Bytes := header 0xC0 payload.length ++ payload

mutual

/-- The text of an item. -/
def encode : Rlp → Bytes
  | .bytes bs => encodeBytes bs
  | .list items => encodeList (encodeItems items)

/-- The texts of items, end to end. -/
def encodeItems : List Rlp → Bytes
  | [] => []
  | item :: items => item.encode ++ encodeItems items

end

end Rlp

end ChainClient
