import ChainClient.Text.Quoted

/-!
# `ChainClient.Abi.Error` — what can go wrong with contract types, values and descriptions

## Contents
- **Causes.** One constructor of `AbiError` a cause; lengths and offsets count elements or bytes.
- **Wording.** `AbiError.message`.
-/

namespace ChainClient

/-- An error of a type text, a packed value or a contract description. -/
inductive AbiError where
  /-- A text names no type. -/
  | typeParse (text : String)
  /-- A contract description is not the JSON that it should be. -/
  | malformedJson
  /-- A contract description has an entry of an unknown kind. -/
  | unknownEntry (kind : String)
  /-- There are more or fewer values than types. -/
  | argumentCount (expected got : Nat)
  /-- A value is of another shape than its type. -/
  | argumentType (expected got : String)
  /-- A number does not fit its type. -/
  | integerOverflow (type value : String)
  /-- An array of fixed length has another number of elements. -/
  | arrayLength (expected got : Nat)
  /-- The data ends before a value does. -/
  | outOfRange (needed available : Nat)
  /-- The data breaks a rule of its type. -/
  | invalidData (reason : String)
  /-- The contract has no such function. -/
  | unknownMethod (name : String)
  /-- The contract has no such event. -/
  | unknownEvent (name : String)
  deriving DecidableEq, Repr

/-- The wording of an error. -/
def AbiError.message : AbiError → String
  | .typeParse text => "cannot parse ABI type " ++ Text.quoted text
  | .malformedJson => "invalid ABI JSON"
  | .unknownEntry kind => "invalid ABI JSON: unknown entry type " ++ Text.quoted kind
  | .argumentCount expected got =>
    "argument count mismatch: expected " ++ expected.repr ++ ", got " ++ got.repr
  | .argumentType expected got => "argument type mismatch: expected " ++ expected ++ ", got " ++ got
  | .integerOverflow type value => "integer overflow: " ++ value ++ " does not fit " ++ type
  | .arrayLength expected got =>
    "array length mismatch: expected " ++ expected.repr ++ ", got " ++ got.repr
  | .outOfRange needed available =>
    "offset out of range: need " ++ needed.repr ++ " bytes, have " ++ available.repr
  | .invalidData reason => "invalid encoded data: " ++ reason
  | .unknownMethod name => "unknown method: " ++ name
  | .unknownEvent name => "unknown event: " ++ name

end ChainClient
