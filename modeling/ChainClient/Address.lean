import ChainClient.Hex

/-!
# `ChainClient.Address` — account addresses of 20 bytes

The canonical text of an address is `0x` and 40 lowercase digits. The mixed-case checksum form and
the IBAN form are in modules of their own.

## Contents
- **Reading.** `Address.parse` accepts exactly 20 bytes of hexadecimal, with or without a mark;
  `Address.lossy` never fails.
- **Writing.** `Address.text` is the canonical text; `Address.strictText` brings a text that
  somebody wrote into that form as far as possible, and `Address.isStrictText` recognises it.
-/

namespace ChainClient

/-- An account address. -/
structure Address where
  /-- Its 20 bytes. -/
  octets : FixedBytes 20
  deriving DecidableEq

namespace Address

/-- Why something is no address. -/
inductive Error where
  /-- A text is not hexadecimal. -/
  | invalidHex (fault : Hex.DigitFault)
  /-- There are not 20 bytes. -/
  | invalidLength (length : Nat)
  deriving DecidableEq, Repr

/-- The wording of an error. -/
def Error.message : Error → String
  | .invalidHex fault => "invalid hex string: " ++ fault.message
  | .invalidLength length => "invalid address length: expected 20 bytes, got " ++ length.repr

/-- The bytes of an address. -/
def bytes (a : Address) : Bytes := a.octets.bytes

/-- The address of zero bytes. -/
def zero : Address := ⟨.zero 20⟩

/-- Whether every byte is zero. -/
def isZero (a : Address) : Bool := a == zero

/-! ## Reading -/

/-- The address with the given bytes, of which there have to be 20. -/
def ofBytes (bs : Bytes) : Except Error Address :=
  match FixedBytes.ofBytes? 20 bs with
  | some octets => .ok ⟨octets⟩
  | none => .error (.invalidLength bs.length)

/-- The address with the last 20 of the given bytes, padded with zeros in front. -/
def fit (bs : Bytes) : Address := ⟨.fit 20 bs⟩

@[simp] theorem length_bytes (a : Address) : a.bytes.length = 20 := a.octets.length_bytes

/-- Twenty bytes are those of the address made of them. -/
theorem bytes_fit_of_length {bs : Bytes} (h : bs.length = 20) : (fit bs).bytes = bs :=
  Bytes.fit_of_length h

/-- An address is made of its bytes. -/
theorem fit_bytes (a : Address) : fit a.bytes = a := by
  rcases a with ⟨⟨bs, h⟩⟩
  simp only [fit, FixedBytes.fit, bytes, Bytes.fit_of_length h]

/-- The address that a text of 40 digits spells, with or without a mark. -/
def parse (s : String) : Except Error Address :=
  match Hex.decode (Utf8.encode (Hex.dropMark s.toList)) with
  | .ok bs => ofBytes bs
  | .error fault => .error (.invalidHex fault)

/-- The address that a text spells as far as it is hexadecimal. -/
def lossy (s : String) : Address := fit (Hex.lossy s)

/-! ## Writing -/

/-- The canonical text: `0x` and lowercase digits. -/
def text (a : Address) : String := Hex.marked a.bytes

/-- The text that names the type as well. -/
def debugText (a : Address) : String := "Address(" ++ a.text ++ ")"

/-- Whether a byte is the code of a decimal digit or of one of the letters `a` to `f`. -/
def isLowerHexDigit (b : UInt8) : Bool := (0x30 ≤ b && b ≤ 0x39) || (0x61 ≤ b && b ≤ 0x66)

/-- Whether a text is `0x` and 40 lowercase digits, 42 bytes in all. -/
def isStrictText (s : String) : Bool :=
  let bs := Utf8.bytes s
  bs.length == 42 && bs.take 2 == [0x30, 0x78] && (bs.drop 2).all isLowerHexDigit

/-- A text in canonical form: the mark becomes `0x`, ASCII letters become small, and zeros are put
    in front of what is shorter than 40 characters. Nothing else is changed or cut. -/
def strictText (s : String) : String :=
  if isStrictText s then s
  else
    let digits := (Hex.dropMark s.toList).map Char.toLower
    String.ofList ('0' :: 'x' :: (List.replicate (40 - digits.length) '0' ++ digits))

/-- Whether `a` comes no later than `b` in the order of their bytes. -/
def precedes (a b : Address) : Bool := a.octets.value ≤ b.octets.value

end Address

end ChainClient
