import ChainClient.Abi.Error
import ChainClient.Abi.Value
import ChainClient.Crypto.Keccak

/-!
# `ChainClient.Abi.Encode` — packing values

A list of values fills a region: first their heads, then the tails of the dynamic ones. The head of
a static value is its encoding; the head of a dynamic value is a pointer word to its encoding in the
tail, counted from the start of the region. Arrays and tuples are regions of their own.

Values are checked against their types before anything is packed.

## Contents
- **Checking.** `check` compares a value with a type; the first mismatch, from left to right and
  from the outside in, is the error.
- **Regions.** A `Part` is one value of a region; `layout` places the parts.
- **Packing.** `encodeValue` packs one value, `encode` a list of values after checking it.
- **Calls.** `selector` is the start of the data that calls a function.
-/

namespace ChainClient.Abi

/-! ## Checking -/

/-- The error of a value that is of another shape than its type. -/
def mismatch (type : AbiType) (value : AbiValue) : AbiError := .argumentType type.text value.shape

mutual

/-- Whether a value can be packed as a type, and why not. -/
def check : AbiType → AbiValue → Except AbiError Unit
  | .address, .address _ => .ok ()
  | .bool, .bool _ => .ok ()
  | .bytes, .bytes _ => .ok ()
  | .string, .string _ => .ok ()
  | .uint bits, .uint n =>
    if n.toNat < bitBound bits then .ok ()
    else .error (.integerOverflow (AbiType.uint bits).text n.text)
  | .int bits, .int i =>
    if i.fitsIn bits then .ok () else .error (.integerOverflow (AbiType.int bits).text i.text)
  | .fixedBytes size, .fixedBytes bs =>
    if bs.length = size then .ok () else .error (mismatch (.fixedBytes size) (.fixedBytes bs))
  | .array element, .array values => checkEach element values
  | .fixedArray element size, .fixedArray values =>
    if values.length = size then checkEach element values
    else .error (.arrayLength size values.length)
  | .tuple types, .tuple values =>
    if types.length = values.length then checkFields types values
    else .error (.argumentCount types.length values.length)
  | type, value => .error (mismatch type value)

/-- Whether every value can be packed as the same type. -/
def checkEach (type : AbiType) : List AbiValue → Except AbiError Unit
  | [] => .ok ()
  | value :: values =>
    match check type value with
    | .ok () => checkEach type values
    | .error e => .error e

/-- Whether values can be packed as the types in the same places. -/
def checkFields : List AbiType → List AbiValue → Except AbiError Unit
  | type :: types, value :: values =>
    match check type value with
    | .ok () => checkFields types values
    | .error e => .error e
  | _, _ => .ok ()

end

/-! ## Regions -/

/-- One value of a region. -/
structure Part where
  /-- Whether it is reached through a pointer. -/
  dynamic : Bool
  /-- The number of bytes it takes up in the head. -/
  headLength : Nat
  /-- Its encoding. -/
  body : Bytes

/-- The word of a length or an offset. -/
def offsetWord (n : Nat) : Bytes := Bytes.ofNat 32 n

/-- The heads and the tails of parts whose first tail goes to `offset`. -/
def place (offset : Nat) : List Part → Bytes × Bytes
  | [] => ([], [])
  | part :: parts =>
    if part.dynamic then
      let (heads, tails) := place (offset + part.body.length) parts
      (offsetWord offset ++ heads, part.body ++ tails)
    else
      let (heads, tails) := place offset parts
      (part.body ++ heads, tails)

/-- The number of bytes that the heads of parts take up. -/
def headsLength : List Part → Nat
  | [] => 0
  | part :: parts => part.headLength + headsLength parts

/-- The region that holds the parts. -/
def layout (parts : List Part) : Bytes :=
  let (heads, tails) := place (headsLength parts) parts
  heads ++ tails

/-! ## Packing -/

/-- A byte string behind its length, filled up to whole words. -/
def encodeBytes (bs : Bytes) : Bytes :=
  offsetWord bs.length ++ Bytes.padRight ((bs.length + 31) / 32 * 32) bs

mutual

/-- The encoding of a value of a type. A value that does not fit has none. -/
def encodeValue : AbiType → AbiValue → Bytes
  | .address, .address a => Bytes.padLeft 32 a.bytes
  | .uint _, .uint n => n.toBytes
  | .int _, .int i => i.toWord.toBytes
  | .bool, .bool b => offsetWord (if b then 1 else 0)
  | .fixedBytes _, .fixedBytes bs => Bytes.padRight 32 bs
  | .bytes, .bytes bs => encodeBytes bs
  | .string, .string s => encodeBytes (Utf8.bytes s)
  | .array element, .array values =>
    offsetWord values.length ++ layout (partsOfEach element values)
  | .fixedArray element _, .fixedArray values => layout (partsOfEach element values)
  | .tuple types, .tuple values => layout (partsOfFields types values)
  | _, _ => []

/-- The parts of values of the same type. -/
def partsOfEach (type : AbiType) : List AbiValue → List Part
  | [] => []
  | value :: values =>
    ⟨type.isDynamic, type.headLength, encodeValue type value⟩ :: partsOfEach type values

/-- The parts of values of the types in the same places. -/
def partsOfFields : List AbiType → List AbiValue → List Part
  | type :: types, value :: values =>
    ⟨type.isDynamic, type.headLength, encodeValue type value⟩ :: partsOfFields types values
  | _, _ => []

end

/-- The encoding of values of the types in the same places. -/
def encode (types : List AbiType) (values : List AbiValue) : Except AbiError Bytes :=
  if types.length = values.length then
    match checkFields types values with
    | .ok () => .ok (layout (partsOfFields types values))
    | .error e => .error e
  else .error (.argumentCount types.length values.length)

/-! ## Calls -/

/-- The first four bytes of the hash of a function's signature. -/
def selector (signature : String) : Bytes :=
  (Crypto.Keccak.keccak256 (Utf8.bytes signature)).bytes.take 4

/-- The data that calls a function: its selector and the encoding of its arguments. -/
def encodeCall (selector : Bytes) (types : List AbiType) (values : List AbiValue) :
    Except AbiError Bytes :=
  (encode types values).map (selector ++ ·)

end ChainClient.Abi
