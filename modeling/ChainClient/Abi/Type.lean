import ChainClient.Width

/-!
# `ChainClient.Abi.Type` — the types of contract values

## Contents
- **Types.** `AbiType`, nested through arrays and tuples.
- **Layout.** A type is dynamic when the length of its values' encodings varies (`isDynamic`);
  `headSize` is what a value takes up in the head of the region it stands in, and `headLength` the
  same, capped at the greatest offset there is.
- **Text.** `text` is the canonical name of a type, as it enters a function's signature.
-/

namespace ChainClient

/-- A type of contract values. -/
inductive AbiType where
  /-- An account address. -/
  | address
  /-- An unsigned integer of a number of bits. -/
  | uint (bits : Nat)
  /-- A signed integer of a number of bits. -/
  | int (bits : Nat)
  /-- A truth value. -/
  | bool
  /-- A byte string of any length. -/
  | bytes
  /-- A byte string of a fixed length. -/
  | fixedBytes (size : Nat)
  /-- A text. -/
  | string
  /-- An array of any length. -/
  | array (element : AbiType)
  /-- An array of a fixed length. -/
  | fixedArray (element : AbiType) (size : Nat)
  /-- A tuple. -/
  | tuple (fields : List AbiType)
  deriving Repr

namespace AbiType

/-! ## Layout -/

mutual

/-- Whether the encodings of a type's values vary in length. -/
def isDynamic : AbiType → Bool
  | .bytes | .string | .array _ => true
  | .fixedArray element _ => element.isDynamic
  | .tuple fields => anyDynamic fields
  | _ => false

/-- Whether one of several types is dynamic. -/
def anyDynamic : List AbiType → Bool
  | [] => false
  | type :: types => type.isDynamic || anyDynamic types

end

mutual

/-- The number of bytes in the head: all of a static value, the 32 bytes of a pointer for a dynamic
    one. -/
def headSize : AbiType → Nat
  | .fixedArray element size => if element.isDynamic then 32 else element.headSize * size
  | .tuple fields => if anyDynamic fields then 32 else headSizes fields
  | _ => 32

/-- The number of bytes that values of several types take up in a head. -/
def headSizes : List AbiType → Nat
  | [] => 0
  | type :: types => type.headSize + headSizes types

end

/-- The greatest offset and length. -/
def maxOffset : Nat := bitBound 64 - 1

/-- The number of bytes in the head, or the greatest offset for a type too large to address. -/
def headLength (type : AbiType) : Nat := min type.headSize maxOffset

/-! ## Text -/

mutual

/-- The canonical name of a type. -/
def chars : AbiType → List Char
  | .address => "address".toList
  | .uint bits => "uint".toList ++ Nat.toDigits 10 bits
  | .int bits => "int".toList ++ Nat.toDigits 10 bits
  | .bool => "bool".toList
  | .bytes => "bytes".toList
  | .fixedBytes size => "bytes".toList ++ Nat.toDigits 10 size
  | .string => "string".toList
  | .array element => element.chars ++ ['[', ']']
  | .fixedArray element size => element.chars ++ '[' :: Nat.toDigits 10 size ++ [']']
  | .tuple fields => '(' :: listChars fields ++ [')']

/-- The canonical names of several types, between commas. -/
def listChars : List AbiType → List Char
  | [] => []
  | [type] => type.chars
  | type :: types => type.chars ++ ',' :: listChars types

end

/-- The canonical name of a type. -/
def text (type : AbiType) : String := String.ofList type.chars

/-- The canonical names of several types, between commas. -/
def listText (types : List AbiType) : String := String.ofList (listChars types)

end AbiType

end ChainClient
