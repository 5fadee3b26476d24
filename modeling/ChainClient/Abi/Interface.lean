import ChainClient.Abi.Decode
import ChainClient.Abi.Encode
import ChainClient.Abi.Entry
import ChainClient.Abi.Type.Notation
import ChainClient.NameMap

/-!
# `ChainClient.Abi.Interface` — what a contract offers

## Contents
- **Parameters.** `Param` has a name and a type.
- **Functions.** `Function`, with its signature and selector; `encodeInput`, `decodeInput` and
  `decodeOutput` pack and unpack its arguments and results.
- **Events.** `Event`, with its signature and identifier; `decodeData` unpacks what is no topic.
- **Interfaces.** `Interface` holds functions and events by name. `Interface.ofJson` reads a
  description, `pack` and `unpack` work on the function of a name.
-/

namespace ChainClient.Abi

/-! ## Parameters -/

/-- A parameter of a function or event. -/
structure Param where
  /-- The name, which may be empty. -/
  name : String
  /-- The type. -/
  type : AbiType
  /-- Whether the parameter of an event is a topic. -/
  indexed : Bool := false

namespace Param

mutual

/-- The parameter that an entry describes. The fields of a tuple are read before its own type. -/
def ofEntry : ParamEntry → Except AbiError Param
  | ⟨name, typeName, components, indexed⟩ =>
    match ofEntries components with
    | .error e => .error e
    | .ok fields =>
      match AbiType.parseWith (fields.map Param.type) typeName with
      | .error e => .error e
      | .ok type => .ok { name, type, indexed }

/-- The parameters that entries describe. -/
def ofEntries : List ParamEntry → Except AbiError (List Param)
  | [] => .ok []
  | entry :: entries =>
    match ofEntry entry with
    | .error e => .error e
    | .ok param =>
      match ofEntries entries with
      | .error e => .error e
      | .ok params => .ok (param :: params)

end

/-- The types of parameters. -/
def types (params : List Param) : List AbiType := params.map Param.type

/-- A type with a name behind it. -/
def namedText (param : Param) : String := param.type.text ++ " " ++ param.name

end Param

/-- The signature of a name and parameters: the name, and the types in parentheses. -/
def signatureOf (name : String) (params : List Param) : String :=
  name ++ "(" ++ AbiType.listText (Param.types params) ++ ")"

/-! ## Functions -/

/-- A function of a contract. A constructor is one without a name. -/
structure Function where
  /-- The name. -/
  name : String
  /-- The parameters that it takes. -/
  inputs : List Param
  /-- The parameters that it returns. -/
  outputs : List Param
  /-- Whether it changes nothing. -/
  constant : Bool

namespace Function

/-- The signature of a function. -/
def signature (f : Function) : String := signatureOf f.name f.inputs

/-- The selector of a function. -/
def selector (f : Function) : Bytes := Abi.selector f.signature

/-- The types of what it takes. -/
def inputTypes (f : Function) : List AbiType := Param.types f.inputs

/-- The types of what it returns. -/
def outputTypes (f : Function) : List AbiType := Param.types f.outputs

/-- The data of a call with the given arguments. -/
def encodeInput (f : Function) (arguments : List AbiValue) : Except AbiError Bytes :=
  encodeCall f.selector f.inputTypes arguments

/-- The arguments in the data of a call. -/
def decodeInput (f : Function) (data : Bytes) : Except AbiError (List AbiValue) :=
  if data.take 4 = f.selector then decode f.inputTypes (data.drop 4)
  else .error (.invalidData ("call data does not start with the selector of " ++ f.signature))

/-- The results in the output of a call. -/
def decodeOutput (f : Function) (data : Bytes) : Except AbiError (List AbiValue) :=
  decode f.outputTypes data

/-- The text of a result: its type, and its name if it has one. -/
def resultText (param : Param) : String :=
  if param.name = "" then param.type.text else param.namedText

/-- The declaration of a function. -/
def text (f : Function) : String :=
  "function " ++ f.name ++ "(" ++ ", ".intercalate (f.inputs.map Param.namedText) ++ ") "
    ++ (if f.constant then "constant " else "")
    ++ "returns(" ++ ", ".intercalate (f.outputs.map resultText) ++ ")"

end Function

/-! ## Events -/

/-- An event of a contract. -/
structure Event where
  /-- The name. -/
  name : String
  /-- The parameters, topics among them. -/
  inputs : List Param
  /-- Whether its identifier is no topic. -/
  anonymous : Bool

namespace Event

/-- The signature of an event. -/
def signature (e : Event) : String := signatureOf e.name e.inputs

/-- The identifier of an event: the hash of its signature. -/
def id (e : Event) : Digest := Crypto.Keccak.keccak256 (Utf8.bytes e.signature)

/-- The values in the data of a log, of the parameters that are no topics. -/
def decodeData (e : Event) (data : Bytes) : Except AbiError (List AbiValue) :=
  decode (Param.types (e.inputs.filter (!·.indexed))) data

/-- The text of a parameter: its type, whether it is a topic, and its name. -/
def paramText (param : Param) : String :=
  if param.indexed then param.type.text ++ " indexed " ++ param.name else param.namedText

/-- The declaration of an event. -/
def text (e : Event) : String :=
  "event " ++ e.name ++ "(" ++ ", ".intercalate (e.inputs.map paramText) ++ ")"

end Event

/-! ## Interfaces -/

/-- What a contract offers. -/
structure Interface where
  /-- The constructor, if one is described. -/
  constructor? : Option Function := none
  /-- The functions by name. -/
  functions : NameMap Function := []
  /-- The events by name. -/
  events : NameMap Event := []
  /-- Whether calls without a function are taken. -/
  fallback : Bool := false

namespace Interface

/-- Whether an entry describes a function that changes nothing. -/
def isConstant (entry : Entry) : Bool :=
  entry.constant || entry.mutability? == some "view" || entry.mutability? == some "pure"

/-- The function that an entry describes, under a name. -/
def functionOf (name : String) (entry : Entry) (inputs : List Param) :
    Except AbiError Function := do
  let outputs ← Param.ofEntries entry.outputs
  return { name, inputs, outputs, constant := isConstant entry }

/-- The interface with one more entry. A later function or event takes the place of an earlier one
    of the same name. -/
def addEntry (interface : Interface) (entry : Entry) : Except AbiError Interface := do
  let inputs ← Param.ofEntries entry.inputs
  if entry.kind = "function" then
    let f ← functionOf entry.name entry inputs
    return { interface with functions := interface.functions.insert entry.name f }
  else if entry.kind = "constructor" then
    let f ← functionOf "" entry inputs
    return { interface with constructor? := some f }
  else if entry.kind = "event" then
    let e : Event := { name := entry.name, inputs, anonymous := entry.anonymous }
    return { interface with events := interface.events.insert entry.name e }
  else if entry.kind = "fallback" ∨ entry.kind = "receive" then
    return { interface with fallback := true }
  else throw (.unknownEntry entry.kind)

/-- The interface that entries describe. -/
def ofEntries (entries : List Entry) : Except AbiError Interface := entries.foldlM addEntry {}

/-- The interface in the JSON text of a description. -/
def ofJson (description : String) : Except AbiError Interface :=
  match Entry.readAll description with
  | some entries => ofEntries entries
  | none => .error .malformedJson

/-- The function of a name. -/
def function (interface : Interface) (name : String) : Except AbiError Function :=
  match interface.functions.find? name with
  | some f => .ok f
  | none => .error (.unknownMethod name)

/-- The event of a name. -/
def event (interface : Interface) (name : String) : Except AbiError Event :=
  match interface.events.find? name with
  | some e => .ok e
  | none => .error (.unknownEvent name)

/-- The types that the constructor takes; none if none is described. -/
def constructorTypes (interface : Interface) : List AbiType :=
  (interface.constructor?.map Function.inputTypes).getD []

/-- The data of a call of the function of a name; for the empty name, the arguments of the
    constructor alone. -/
def pack (interface : Interface) (name : String) (arguments : List AbiValue) :
    Except AbiError Bytes :=
  if name = "" then encode interface.constructorTypes arguments
  else do (← interface.function name).encodeInput arguments

/-- The results in the output of the function of a name. -/
def unpack (interface : Interface) (name : String) (data : Bytes) :
    Except AbiError (List AbiValue) :=
  do (← interface.function name).decodeOutput data

end Interface

end ChainClient.Abi
