import ChainClient.Json.Number
import ChainClient.Json.Source
import ChainClient.Word

/-!
# `ChainClient.Json.Reader` — values taken from JSON trees

A reader takes a value of a certain kind from a tree, or refuses it. Texts may nest arrays and
objects 127 deep where a reader looks; what no reader looks at may be as deep as it likes. Values
that were read before may be read again as something else, with no such limit.

## Contents
- **Places.** A `Place` says how many levels may still be opened, and whether the tree is a value in
  memory, whose numbers are taken over.
- **Scalars.** `bool`, `string`, `natural`, `uint8`, `uint32`, `uint64`, `int64`; `nullable` also
  takes `null`.
- **Values.** `value` takes any tree, `object` an object; of repeated members the last one stays. An
  object whose first key is `numberKey` is a number in disguise. `word` takes an amount.
- **Lists and records.** `list`; `fields` opens a record, written as an object or as the array of
  its fields, and `Fields.required` and `Fields.orElse` take its fields.
- **Running.** `ofText` reads a byte string, `ofValue` a value.
-/

namespace ChainClient

/-! ## Places -/

/-- Where a reader stands. -/
structure JsonReader.Place where
  /-- The number of arrays and objects that may still be opened inside each other, if there is a
      limit. -/
  levels? : Option Nat
  /-- Whether the tree is a value in memory, and not a text. -/
  inMemory : Bool

/-- A way to take a value from a tree. -/
abbrev JsonReader (α : Type) := JsonReader.Place → JsonSource → Option α

namespace JsonReader

/-- The place of a whole text. -/
def Place.text : Place := ⟨some 127, false⟩

/-- The place of a value that was read before. -/
def Place.value : Place := ⟨none, true⟩

/-- The place inside an array or object. -/
def Place.inner? : Place → Option Place
  | ⟨none, inMemory⟩ => some ⟨none, inMemory⟩
  | ⟨some 0, _⟩ => none
  | ⟨some (n + 1), inMemory⟩ => some ⟨some n, inMemory⟩

/-- The text of a number that stands at a place. -/
def Place.numberText (place : Place) (text : String) : String :=
  if place.inMemory then JsonNumber.takenOver text else text

/-! ## Scalars -/

/-- A truth value. -/
def bool : JsonReader Bool
  | _, .bool b => some b
  | _, _ => none

/-- A string. -/
def string : JsonReader String
  | _, .string text? => text?
  | _, _ => none

/-- A natural number below `bound`. -/
def natural (bound : Nat) : JsonReader Nat
  | _, .number text => (Numeral.readNat? 10 text.toList).filter (· < bound)
  | _, _ => none

/-- A number of 8 bits. -/
def uint8 : JsonReader UInt8 := fun place source =>
  (natural (bitBound 8) place source).map UInt8.ofNat

/-- A number of 32 bits. -/
def uint32 : JsonReader UInt32 := fun place source =>
  (natural (bitBound 32) place source).map UInt32.ofNat

/-- A number of 64 bits. -/
def uint64 : JsonReader UInt64 := fun place source =>
  (natural (bitBound 64) place source).map UInt64.ofNat

/-- A signed number of 64 bits. -/
def int64 : JsonReader Int64
  | place, .number text =>
    match text.toList with
    | '-' :: digits =>
      match Numeral.readNat? 10 digits with
      | some 0 => if place.inMemory then some 0 else none
      | some n => if n ≤ bitBound 63 then some (Int64.ofInt (-(n : Int))) else none
      | none => none
    | digits => ((Numeral.readNat? 10 digits).filter (· < bitBound 63)).map fun n => Int64.ofInt n
  | _, _ => none

/-- What a reader takes, or nothing for `null`. -/
def nullable {α : Type} (read : JsonReader α) : JsonReader (Option α)
  | _, .null => some none
  | place, source => (read place source).map some

/-! ## Values -/

/-- The key that marks a number in disguise: an object whose first key it is holds nothing but a
    text under it, and that text is the number. -/
def numberKey : String := "$serde_json::private::Number"

/-- The number in disguise in the value of the marking key and the members behind it. -/
def disguisedNumber? :
    (value : JsonSource) → (rest : List (Option String × JsonSource)) → Option Json
  | .string (some text), [] => (JsonSource.numberOf? text).map .number
  | _, _ => none

mutual

/-- The value of a tree. -/
def takeValue (place : Place) : JsonSource → Option Json
  | .null => some .null
  | .bool b => some (.bool b)
  | .number text => some (.number (place.numberText text))
  | .string text? => text?.map .string
  | .array elements => do
    let values ← takeElements (← place.inner?) elements
    return .array values
  | .object members => do
    let inner ← place.inner?
    match members with
    | (some key, source) :: rest =>
      if key = numberKey then disguisedNumber? source rest
      else return .object (Json.sortMembers (← takeMembers inner members))
    | _ => return .object (Json.sortMembers (← takeMembers inner members))

/-- The values of the elements of an array. -/
def takeElements (place : Place) : List JsonSource → Option (List Json)
  | [] => some []
  | source :: sources => do
    let first ← takeValue place source
    let rest ← takeElements place sources
    return first :: rest

/-- The values of the members of an object. -/
def takeMembers (place : Place) :
    List (Option String × JsonSource) → Option (List (String × Json))
  | [] => some []
  | (key?, source) :: sources => do
    let key ← key?
    let first ← takeValue place source
    let rest ← takeMembers place sources
    return (key, first) :: rest

end

/-- Any value. -/
def value : JsonReader Json := takeValue

/-- An object, also one with a number in disguise among its members, but not in its place. -/
def object : JsonReader (List (String × Json))
  | place, .object members => do
    let inner ← place.inner?
    return Json.sortMembers (← takeMembers inner members)
  | _, _ => none

/-- An amount: a number, or a text that spells one; `null` stands for zero. -/
def word : JsonReader Word := fun place source => do
  match ← value place source with
  | .null => some 0
  | .number text => (Word.parse text).toOption
  | .string text => (Word.parse text).toOption
  | _ => none

/-! ## Lists and records -/

/-- An array of values that a reader takes. -/
def list {α : Type} (element : JsonReader α) : JsonReader (List α)
  | place, .array elements => do
    let inner ← place.inner?
    elements.mapM (element inner)
  | _, _ => none

/-- The fields of a record, each with its tree if it is there. -/
structure Fields where
  /-- The place of the fields. -/
  place : Place
  /-- The fields that are there. -/
  present : List (String × JsonSource)

/-- The tree of a field, if it is there. -/
def Fields.find? (fields : Fields) (name : String) : Option JsonSource :=
  (fields.present.find? (·.1 == name)).map (·.2)

/-- A field that has to be there. -/
def Fields.required {α : Type} (fields : Fields) (name : String) (read : JsonReader α) : Option α :=
  (fields.find? name).bind (read fields.place)

/-- A field that has a default value. -/
def Fields.orElse {α : Type} (fields : Fields) (name : String) (fallback : α)
    (read : JsonReader α) : Option α :=
  match fields.find? name with
  | some source => read fields.place source
  | none => some fallback

/-- Whether no text occurs twice. -/
def distinct : List String → Bool
  | [] => true
  | name :: names => !names.contains name && distinct names

/-- The record whose fields have the given names. In an object a field stands at most once, and
    members that are no fields do not count; in an array the fields stand in their order, the last
    ones may be missing, and there is nothing else. -/
def fields (names : List String) : JsonReader Fields
  | place, .object members => do
    let inner ← place.inner?
    let named ← members.mapM fun member => member.1.map (·, member.2)
    let present := named.filter (names.contains ·.1)
    if distinct (present.map (·.1)) then some ⟨inner, present⟩ else none
  | place, .array elements => do
    let inner ← place.inner?
    if elements.length ≤ names.length then some ⟨inner, names.zip elements⟩ else none
  | _, _ => none

/-! ## Running -/

mutual

/-- The tree of a value. -/
def sourceOf : Json → JsonSource
  | .null => .null
  | .bool b => .bool b
  | .number text => .number text
  | .string text => .string (some text)
  | .array elements => .array (sourcesOf elements)
  | .object members => .object (memberSourcesOf members)

/-- The trees of values. -/
def sourcesOf : List Json → List JsonSource
  | [] => []
  | value :: values => sourceOf value :: sourcesOf values

/-- The trees of members. -/
def memberSourcesOf : List (String × Json) → List (Option String × JsonSource)
  | [] => []
  | (key, value) :: members => (some key, sourceOf value) :: memberSourcesOf members

end

/-- Reads a byte string that holds one text. -/
def ofText {α : Type} (read : JsonReader α) (bs : Bytes) : Option α :=
  (JsonSource.parse bs).bind (read .text)

/-- Reads a value. -/
def ofValue {α : Type} (read : JsonReader α) (json : Json) : Option α := read .value (sourceOf json)

end JsonReader

end ChainClient
