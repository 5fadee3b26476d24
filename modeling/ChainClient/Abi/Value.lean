import ChainClient.Abi.Type
import ChainClient.Address
import ChainClient.Digest
import ChainClient.SignedWord

/-!
# `ChainClient.Abi.Value` — the values that contracts take and return

A value knows its shape but not the widths of its type: `AbiValue.uint 5` is a value of every `uint`
type that is wide enough.

## Contents
- **Values.** `AbiValue`, nested through arrays and tuples.
- **Shape.** `shape` describes a value in an error message.
- **Parts.** `uint?`, `address?`, `string?` and `bool?` look inside a value of the right shape.
-/

namespace ChainClient

/-- A value of a contract type. -/
inductive AbiValue where
  /-- An account address. -/
  | address (a : Address)
  /-- An unsigned integer. -/
  | uint (n : Word)
  /-- A signed integer. -/
  | int (i : SignedWord)
  /-- A truth value. -/
  | bool (b : Bool)
  /-- A byte string of any length. -/
  | bytes (bs : Bytes)
  /-- A byte string of a fixed length. -/
  | fixedBytes (bs : Bytes)
  /-- A text. -/
  | string (s : String)
  /-- An array of any length. -/
  | array (elements : List AbiValue)
  /-- An array of a fixed length. -/
  | fixedArray (elements : List AbiValue)
  /-- A tuple. -/
  | tuple (fields : List AbiValue)
  deriving Inhabited

namespace AbiValue

/-- The value of type `bytes32` that holds a digest. -/
def ofDigest (d : Digest) : AbiValue := .fixedBytes d.bytes

/-- What a value looks like, in a few words. -/
def shape : AbiValue → String
  | .address _ => "address"
  | .uint _ => "uint"
  | .int _ => "int"
  | .bool _ => "bool"
  | .bytes _ => "bytes"
  | .fixedBytes bs => "bytes" ++ bs.length.repr
  | .string _ => "string"
  | .array elements => "array of " ++ elements.length.repr
  | .fixedArray elements => "fixed array of " ++ elements.length.repr
  | .tuple fields => "tuple of " ++ fields.length.repr

/-- The number in an unsigned integer. -/
def uint? : AbiValue → Option Word
  | .uint n => some n
  | _ => none

/-- The address in an address. -/
def address? : AbiValue → Option Address
  | .address a => some a
  | _ => none

/-- The text in a text. -/
def string? : AbiValue → Option String
  | .string s => some s
  | _ => none

/-- The truth value in a truth value. -/
def bool? : AbiValue → Option Bool
  | .bool b => some b
  | _ => none

end AbiValue

end ChainClient
