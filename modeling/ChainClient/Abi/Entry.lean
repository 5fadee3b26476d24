import ChainClient.Json.Reader

/-!
# `ChainClient.Abi.Entry` — the entries of a contract description

A description is a JSON array. Here it is only taken apart; what the types mean is settled in
`ChainClient.Abi.Interface`.

## Contents
- **Parameters.** `ParamEntry`, which for a tuple has parameters inside.
- **Entries.** `Entry` is a function, a constructor, an event, or one of the functions without a
  name.
- **JSON.** `Entry.readAll` reads the text of a description.
-/

namespace ChainClient.Abi

/-- A parameter, as it is described. -/
structure ParamEntry where
  /-- The name. -/
  name : String
  /-- The name of the type. -/
  type : String
  /-- The fields of a tuple. -/
  components : List ParamEntry
  /-- Whether the parameter of an event is a topic. -/
  indexed : Bool

/-- An entry, as it is described. -/
structure Entry where
  /-- The kind of entry. -/
  kind : String := "function"
  /-- The name. -/
  name : String := ""
  /-- The parameters that are taken. -/
  inputs : List ParamEntry := []
  /-- The parameters that are returned. -/
  outputs : List ParamEntry := []
  /-- Whether nothing is changed. -/
  constant : Bool := false
  /-- What is read and changed, in a word. -/
  mutability? : Option String := none
  /-- Whether an event has no topic for its signature. -/
  anonymous : Bool := false

/-- Reads a parameter with fewer than `nesting` parameters around the innermost one. -/
def ParamEntry.read : (nesting : Nat) → JsonReader ParamEntry
  | 0 => fun _ _ => none
  | nesting + 1 => fun place source => do
    let fields ← JsonReader.fields ["name", "type", "components", "indexed"] place source
    let name ← fields.orElse "name" "" JsonReader.string
    let type ← fields.required "type" JsonReader.string
    let components ← fields.orElse "components" [] (JsonReader.list (ParamEntry.read nesting))
    let indexed ← fields.orElse "indexed" false JsonReader.bool
    return ⟨name, type, components, indexed⟩

namespace Entry

/-- The number of parameters that no text nests: each takes two of 127 levels. -/
def nestingBound : Nat := 64

/-- The names of the fields in JSON, in their order. -/
def fieldNames : List String :=
  ["type", "name", "inputs", "outputs", "constant", "stateMutability", "anonymous"]

/-- Reads an entry. -/
def read : JsonReader Entry := fun place source => do
  let fields ← JsonReader.fields fieldNames place source
  let params := JsonReader.list (ParamEntry.read nestingBound)
  let kind ← fields.orElse "type" "function" JsonReader.string
  let name ← fields.orElse "name" "" JsonReader.string
  let inputs ← fields.orElse "inputs" [] params
  let outputs ← fields.orElse "outputs" [] params
  let constant ← fields.orElse "constant" false JsonReader.bool
  let mutability? ← fields.orElse "stateMutability" none (JsonReader.nullable JsonReader.string)
  let anonymous ← fields.orElse "anonymous" false JsonReader.bool
  return { kind, name, inputs, outputs, constant, mutability?, anonymous }

/-- The entries in the text of a description. -/
def readAll (description : String) : Option (List Entry) :=
  JsonReader.ofText (JsonReader.list read) (Utf8.bytes description)

end Entry

end ChainClient.Abi
