import ChainClient.Address
import ChainClient.Crypto.Keccak

/-!
# `ChainClient.Address.Checksum` — the mixed-case text of an address

The case of a letter carries a bit of the hash of the lowercase digits: letter `i` is a capital
exactly when half-byte `i` of the hash is above 7. Which hash that is does not matter to writing and
checking, so both are defined under any hash; the network's is Keccak-256.

## Contents
- **Hash.** `halfByte` picks a half-byte of a digest.
- **Writing.** `checksumText` capitalises the digits of an address; `checksumTextBy` does so under
  any hash.
- **Checking.** `isChecksumText` accepts 40 digits, marked or not, in exactly that case pattern;
  `isChecksumTextBy` does so under any hash.
-/

namespace ChainClient.Address

/-- Half-byte `i` of a digest, the high half of a byte first. -/
def halfByte (digest : Digest) (i : Nat) : Nat :=
  let b := (digest.bytes.getD (i / 2) 0).toNat
  if i % 2 = 0 then b / 16 else b % 16

/-- The hash that decides the case of the given lowercase digits. -/
def caseHash (hash : Bytes → Digest) (digits : List Char) : Digest := hash (Utf8.encode digits)

/-- The digits with the case that a digest asks for, from half-byte `i` on. -/
def applyCase (digest : Digest) : (i : Nat) → List Char → List Char
  | _, [] => []
  | i, c :: rest =>
    (if 7 < halfByte digest i then c.toUpper else c) :: applyCase digest (i + 1) rest

/-- The checksum text of an address under a hash, marked with `0x`. -/
def checksumTextBy (hash : Bytes → Digest) (a : Address) : String :=
  let digits := Hex.encode a.bytes
  String.ofList ('0' :: 'x' :: applyCase (caseHash hash digits) 0 digits)

/-- The checksum text of an address, marked with `0x`. -/
def checksumText (a : Address) : String := checksumTextBy Crypto.Keccak.keccak256 a

/-- Whether no letter has a case other than the one that a digest asks for, from half-byte `i`
    on. -/
def caseAgrees (digest : Digest) : (i : Nat) → List Char → Bool
  | _, [] => true
  | i, c :: rest =>
    (if 7 < halfByte digest i then !c.isLower else !c.isUpper) && caseAgrees digest (i + 1) rest

/-- Whether a character is an ASCII hexadecimal digit of either case. -/
def isHexDigit (c : Char) : Bool :=
  c.isDigit || ('a' ≤ c && c ≤ 'f') || ('A' ≤ c && c ≤ 'F')

/-- Whether a text is 40 digits, marked or not, whose case pattern is their checksum under a
    hash. -/
def isChecksumTextBy (hash : Bytes → Digest) (s : String) : Bool :=
  let digits := Hex.dropMark s.toList
  digits.length == 40 && digits.all isHexDigit &&
    caseAgrees (caseHash hash (digits.map Char.toLower)) 0 digits

/-- Whether a text is 40 digits, marked or not, whose case pattern is their checksum. -/
def isChecksumText (s : String) : Bool := isChecksumTextBy Crypto.Keccak.keccak256 s

end ChainClient.Address
