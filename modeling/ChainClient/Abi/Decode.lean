import ChainClient.Abi.Error
import ChainClient.Abi.Value

/-!
# `ChainClient.Abi.Decode` — unpacking values from data that nobody vouches for

Pointers count from the start of their region, and a region reaches to the end of the data. Every
word is checked against its region before it is followed, so what the data claims is never taken on
trust; data after the last value does not matter.

## Contents
- **Reading.** `wordAt`, `offsetAt` and `bytesAt` read from a region, `regionFrom` narrows it.
- **Unpacking.** `decodeValue` unpacks one value, `decode` a list of values.
- **Refusals.** `reasonOf` is the text that a contract gave for refusing a call.
-/

namespace ChainClient.Abi

open AbiType (maxOffset)

/-! ## Reading -/

/-- The 32 bytes at an offset. -/
def wordAt (region : Bytes) (offset : Nat) : Except AbiError Bytes :=
  if offset + 32 ≤ region.length then .ok ((region.drop offset).take 32)
  else .error (.outOfRange (min (offset + 32) maxOffset) region.length)

/-- The pointer or length at an offset, which cannot be greater than the region is long. -/
def offsetAt (region : Bytes) (offset : Nat) : Except AbiError Nat :=
  match wordAt region offset with
  | .error e => .error e
  | .ok word =>
    if Bytes.value word ≤ region.length then .ok (Bytes.value word)
    else .error (.outOfRange (min (Bytes.value word) maxOffset) region.length)

/-- The region from an offset on. -/
def regionFrom (region : Bytes) (offset : Nat) : Except AbiError Bytes :=
  if offset ≤ region.length then .ok (region.drop offset)
  else .error (.outOfRange offset region.length)

/-- The byte string at an offset, behind its length. -/
def bytesAt (region : Bytes) (offset : Nat) : Except AbiError Bytes :=
  match offsetAt region offset with
  | .error e => .error e
  | .ok length =>
    if offset + 32 + length ≤ region.length then
      .ok ((region.drop (offset + 32)).take length)
    else .error (.outOfRange (offset + 32 + length) region.length)

/-- Whether the heads of `count` elements fit the region. -/
def ensureFits (element : AbiType) (count : Nat) (region : Bytes) : Except AbiError Unit :=
  let needed := min (count * element.headLength) maxOffset
  if needed ≤ region.length then .ok () else .error (.outOfRange needed region.length)

/-- The head that follows one of the given length. -/
def nextHead (head : Nat) (type : AbiType) : Nat := min (head + type.headLength) maxOffset

/-! ## Unpacking -/

/-- Applies a reader at `count` places, the first at `head`, each as far from the last as a head of
    the type is long. -/
def readEach (type : AbiType) (read : Nat → Except AbiError AbiValue) :
    (count head : Nat) → Except AbiError (List AbiValue)
  | 0, _ => .ok []
  | count + 1, head =>
    match read head with
    | .error e => .error e
    | .ok value =>
      match readEach type read count (nextHead head type) with
      | .error e => .error e
      | .ok values => .ok (value :: values)

/-- Where the encoding of a value starts whose head is given: there, or where the head points. -/
def startOf (type : AbiType) (region : Bytes) (head : Nat) : Except AbiError Nat :=
  if type.isDynamic then offsetAt region head else .ok head

mutual

/-- The value of a type whose encoding starts at an offset of a region. -/
def decodeValue : AbiType → (region : Bytes) → (offset : Nat) → Except AbiError AbiValue
  | .address, region, offset => do
    let word ← wordAt region offset
    return .address (.fit (word.drop 12))
  | .uint bits, region, offset => do
    let n := Word.ofBytes (← wordAt region offset)
    if n.toNat < bitBound bits then return .uint n
    else throw (.integerOverflow (AbiType.uint bits).text n.text)
  | .int bits, region, offset => do
    let i := SignedWord.ofWord (Word.ofBytes (← wordAt region offset))
    if i.fitsIn bits then return .int i
    else throw (.integerOverflow (AbiType.int bits).text i.text)
  | .bool, region, offset => do
    let n := Bytes.value (← wordAt region offset)
    if n ≤ 1 then return .bool (n == 1)
    else throw (.invalidData "bool word is neither 0 nor 1")
  | .fixedBytes size, region, offset => do
    let word ← wordAt region offset
    if (word.drop size).all (· == 0) then return .fixedBytes (word.take size)
    else throw (.invalidData ("non-zero padding after " ++ (AbiType.fixedBytes size).text))
  | .bytes, region, offset => return .bytes (← bytesAt region offset)
  | .string, region, offset => do
    match Utf8.read (← bytesAt region offset) with
    | .ok s => return .string s
    | .error fault => throw (.invalidData ("invalid UTF-8: " ++ fault.message))
  | .array element, region, offset => do
    let count ← offsetAt region offset
    let body ← regionFrom region (offset + 32)
    ensureFits element count body
    let values ← readEach element
      (fun head => do decodeValue element body (← startOf element body head)) count 0
    return .array values
  | .fixedArray element size, region, offset => do
    let body ← regionFrom region offset
    ensureFits element size body
    let values ← readEach element
      (fun head => do decodeValue element body (← startOf element body head)) size 0
    return .fixedArray values
  | .tuple types, region, offset => do
    let body ← regionFrom region offset
    return .tuple (← decodeFields types body 0)

/-- The values of several types, the first of which has its head at an offset of a region. -/
def decodeFields : List AbiType → (region : Bytes) → (head : Nat) → Except AbiError (List AbiValue)
  | [], _, _ => return []
  | type :: types, region, head => do
    let value ← decodeValue type region (← startOf type region head)
    let values ← decodeFields types region (nextHead head type)
    return value :: values

end

/-- The values of several types that are packed at the start of the data. -/
def decode (types : List AbiType) (data : Bytes) : Except AbiError (List AbiValue) :=
  decodeFields types data 0

/-! ## Refusals -/

/-- The selector in front of the text by which a contract refuses a call. -/
def refusalSelector : Bytes := [0x08, 0xC3, 0x79, 0xA0]

/-- Whether the output of a call, in hexadecimal, is a refusal. -/
def isRefusal (out : String) : Bool := refusalSelector.isPrefixOf (Hex.lossy out)

/-- The text of a refusal. -/
def reasonOf (out : String) : Except AbiError String :=
  if isRefusal out then do
    match ← decode [.string] ((Hex.lossy out).drop 4) with
    | [.string reason] => return reason
    | _ => throw (.invalidData "revert reason is not a string")
  else .error (.invalidData "output is not a revert reason")

end ChainClient.Abi
