import ChainClient.Hex

/-!
# `ChainClient.Digest` — hashes of 32 bytes

## Contents
- **Reading.** `Digest.parse` accepts exactly 32 bytes of hexadecimal, with or without a mark.
- **Writing.** `Digest.text` is `0x` and 64 lowercase digits.
-/

namespace ChainClient

/-- A hash value. -/
structure Digest where
  /-- Its 32 bytes. -/
  octets : FixedBytes 32
  deriving DecidableEq

namespace Digest

/-- Why something is no digest. -/
inductive Error where
  /-- A text is not hexadecimal. -/
  | invalidHex (fault : Hex.DigitFault)
  /-- There are not 32 bytes. -/
  | invalidLength (length : Nat)
  deriving DecidableEq, Repr

/-- The wording of an error. -/
def Error.message : Error → String
  | .invalidHex fault => "invalid hex string: " ++ fault.message
  | .invalidLength length => "invalid hash length: expected 32 bytes, got " ++ length.repr

/-- The bytes of a digest. -/
def bytes (d : Digest) : Bytes := d.octets.bytes

/-- Whether every byte is zero. -/
def isZero (d : Digest) : Bool := d.octets == .zero 32

/-- The digest with the given bytes, of which there have to be 32. -/
def ofBytes (bs : Bytes) : Except Error Digest :=
  match FixedBytes.ofBytes? 32 bs with
  | some octets => .ok ⟨octets⟩
  | none => .error (.invalidLength bs.length)

/-- The digest with the last 32 of the given bytes, padded with zeros in front. -/
def fit (bs : Bytes) : Digest := ⟨.fit 32 bs⟩

/-- The digest that a text of 64 digits spells, with or without a mark. -/
def parse (s : String) : Except Error Digest :=
  match Hex.decode (Utf8.encode (Hex.dropMark s.toList)) with
  | .ok bs => ofBytes bs
  | .error fault => .error (.invalidHex fault)

/-- The text of a digest: `0x` and lowercase digits. -/
def text (d : Digest) : String := Hex.marked d.bytes

/-- The text that names the type as well. -/
def debugText (d : Digest) : String := "H256(" ++ d.text ++ ")"

end Digest

end ChainClient
