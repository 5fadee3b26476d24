import ChainClient.NameMap

/-!
# `ChainClient.Json.Value` — JSON values

## Contents
- **Values.** `Json`; numbers are kept as they are written, and the members of an object in their
  order.
- **Canonical order.** `Json.canonical` sorts the members of every object by key, with one member a
  key.
- **Text.** `Json.render` writes a value without blanks.
- **Parts.** `Json.member?` and `Json.string?` look inside a value.
-/

namespace ChainClient

/-- A JSON value. -/
inductive Json where
  /-- The value `null`. -/
  | null
  /-- A truth value. -/
  | bool (b : Bool)
  /-- A number, as it is written. -/
  | number (text : String)
  /-- A string. -/
  | string (s : String)
  /-- An array. -/
  | array (elements : List Json)
  /-- An object. -/
  | object (members : List (String × Json))
  deriving Inhabited

namespace Json

/-- The number with the given decimal digits. -/
def ofNat (n : Nat) : Json := .number n.repr

/-- The number with the given decimal digits, after a minus sign if it is below zero. -/
def ofInt (i : Int) : Json := .number ((if i < 0 then "-" else "") ++ i.natAbs.repr)

/-! ## Canonical order -/

/-- The members sorted by key; of members with the same key the last one stays. -/
def sortMembers (members : List (String × Json)) : List (String × Json) := NameMap.ofList members

mutual

/-- The value with the members of every object sorted. -/
def canonical : Json → Json
  | .array elements => .array (canonicalElements elements)
  | .object members => .object (sortMembers (canonicalMembers members))
  | value => value

/-- The values with the members of every object sorted. -/
def canonicalElements : List Json → List Json
  | [] => []
  | value :: values => value.canonical :: canonicalElements values

/-- The members with the members of every object in them sorted. -/
def canonicalMembers : List (String × Json) → List (String × Json)
  | [] => []
  | (key, value) :: members => (key, value.canonical) :: canonicalMembers members

end

/-! ## Text -/

/-- The spelling of a character in a string. -/
def escapeChar (c : Char) : List Char :=
  if c = Char.ofNat 0x22 then ['\\', c]
  else if c = '\\' then ['\\', '\\']
  else if c = Char.ofNat 0x08 then ['\\', 'b']
  else if c = Char.ofNat 0x0C then ['\\', 'f']
  else if c = '\n' then ['\\', 'n']
  else if c = '\r' then ['\\', 'r']
  else if c = '\t' then ['\\', 't']
  else if c.toNat < 0x20 then
    ['\\', 'u', '0', '0', Nat.digitChar (c.toNat / 16), Nat.digitChar (c.toNat % 16)]
  else [c]

/-- The spelling of a string, quotes included. -/
def renderString (s : String) : List Char :=
  Char.ofNat 0x22 :: s.toList.flatMap escapeChar ++ [Char.ofNat 0x22]

mutual

/-- The text of a value, without blanks. -/
def chars : Json → List Char
  | .null => "null".toList
  | .bool true => "true".toList
  | .bool false => "false".toList
  | .number text => text.toList
  | .string s => renderString s
  | .array elements => '[' :: elementChars elements ++ [']']
  | .object members => '{' :: memberChars members ++ ['}']

/-- The texts of the elements of an array, between commas. -/
def elementChars : List Json → List Char
  | [] => []
  | [value] => value.chars
  | value :: values => value.chars ++ ',' :: elementChars values

/-- The texts of the members of an object, between commas. -/
def memberChars : List (String × Json) → List Char
  | [] => []
  | [(key, value)] => renderString key ++ ':' :: value.chars
  | (key, value) :: members => renderString key ++ ':' :: value.chars ++ ',' :: memberChars members

end

/-- The text of a value, without blanks. -/
def render (value : Json) : String := String.ofList value.chars

/-! ## Parts -/

/-- The value of the member with a key, in an object. -/
def member? (key : String) : Json → Option Json
  | .object members => (members.find? (·.1 == key)).map (·.2)
  | _ => none

/-- The text of a string. -/
def string? : Json → Option String
  | .string s => some s
  | _ => none

end Json

end ChainClient
