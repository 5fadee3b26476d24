import ChainClient.Toml.Scalar

/-!
# `ChainClient.Toml.Document` — TOML documents

A document is read line by line. A header says which table the lines after it add to.

## Contents
- **Lines.** `Line`, and `Line.apply`, which adds a line to a `Draft` of a document.
- **Keys and values.** `Reader.key` reads a dotted key of fewer than 80 parts; `Reader.value` reads
  a value whose arrays and tables nest less than 80 deep.
- **Documents.** `Toml.parse` reads the entries of a whole text; `pairText` writes one line.
-/

namespace ChainClient.Toml

/-- The number of levels, and of parts of a key, that is too many. -/
def depthBound : Nat := 80

/-! ## Lines -/

/-- A line of a document. -/
inductive Line where
  /-- A line that says nothing. -/
  | blank
  /-- The header of a table. -/
  | header (path : List String) (key : String)
  /-- The header of one of several tables. -/
  | repeatedHeader (path : List String) (key : String)
  /-- A key and its value. -/
  | pair (path : List String) (key : String) (value : Toml)

/-- A document that is being read. -/
structure Draft where
  /-- The path of the table that keys are added to. -/
  current : List String := []
  /-- The entries so far. -/
  entries : Entries := []

/-- The document after a line. -/
def Line.apply (draft : Draft) : Line → Option Draft
  | .blank => some draft
  | .header path key => do
    return ⟨path ++ [key], ← openTable path key draft.entries⟩
  | .repeatedHeader path key => do
    return ⟨path ++ [key], ← appendTable path key draft.entries⟩
  | .pair path key value => do
    return { draft with
      entries := ← within (insert key value path true) draft.current draft.entries }

/-- The entries that pairs of a dotted key and a value make up. -/
def entriesOf : List ((List String × String) × Toml) → Entries → Option Entries
  | [], entries => some entries
  | ((path, key), value) :: pairs, entries => do
    entriesOf pairs (← insert key value path true entries)

namespace Reader

/-! ## Keys and values -/

/-- Whether a character may stand in a key without quotes. -/
def isBare (c : Char) : Bool := c.isAlphanum || c == '_' || c == '-'

/-- A part of a key. -/
def keyPart : Reader String :=
  String.ofList <$> (basic <|> literal <|> do return (← char isBare) :: (← span isBare))

/-- A dotted key: the parts before the last one, and the last one. -/
def key : Reader (List String × String) := do
  let parts ← separated (only '.') (blanks *> keyPart <* blanks)
  match parts.getLast? with
  | some last => if parts.length < depthBound then pure (parts.dropLast, last) else failure
  | none => failure

/-- A comment. -/
def comment : Reader Unit := only '#' *> discard (span isPlain)

/-- What may stand between the elements of an array: blanks, line breaks and comments. -/
def gap : Reader Unit :=
  discard (many (newline <|> discard (char isBlank) <|> (comment *> newline)))

/-- An array with elements of a kind. A comma may follow the last one. -/
def arrayOf (element : Reader Toml) : Reader Toml := do
  only '['
  let elements? ← opt (separated (only ',') (gap *> element <* gap) <* opt (only ','))
  gap
  only ']'
  return .array (elements?.getD [])

/-- A key and a value of a kind behind it. -/
def pairOf (element : Reader Toml) : Reader ((List String × String) × Toml) := do
  let key ← key
  only '='
  blanks
  let value ← element
  return (key, value)

/-- A table between braces, with values of a kind. -/
def inlineTableOf (element : Reader Toml) : Reader Toml := do
  only (Char.ofNat 0x7B)
  let pairs? ← opt (separated (only ',') (pairOf element <* blanks))
  blanks
  only (Char.ofNat 0x7D)
  match entriesOf (pairs?.getD []) [] with
  | some entries => pure (.table .inline entries)
  | none => failure

/-- A value with at most so many arrays and tables inside each other. -/
def value : (levels : Nat) → Reader Toml
  | 0 => scalar
  | levels + 1 => scalar <|> arrayOf (value levels) <|> inlineTableOf (value levels)

/-! ## Documents -/

/-- The end of a text. -/
def endOfText : Reader Unit
  | [] => some ((), [])
  | _ => none

/-- The end of a line, with a comment before it. -/
def lineEnd : Reader Unit := blanks *> discard (opt comment) *> (newline <|> endOfText)

/-- A line that says nothing. -/
def blankLine : Reader Line :=
  (newline <|> comment *> (newline <|> endOfText)) *> pure .blank

/-- The header of one of several tables. -/
def repeatedHeaderLine : Reader Line := do
  word "[["
  let (path, key) ← key
  word "]]"
  return .repeatedHeader path key

/-- The header of a table. -/
def headerLine : Reader Line := do
  only '['
  let (path, key) ← key
  only ']'
  return .header path key

/-- A key and its value. -/
def pairLine : Reader Line := do
  let ((path, key), value) ← pairOf (value (depthBound - 1))
  return .pair path key value

/-- A line. -/
def line : Reader Line :=
  blanks *> (blankLine <|> (repeatedHeaderLine <|> headerLine <|> pairLine) <* lineEnd)

/-- The lines of a text. A mark of the byte order may stand in front. -/
def lines : Reader (List Line) :=
  opt (only (Char.ofNat 0xFEFF)) *> many line <* blanks <* endOfText

end Reader

/-- The entries of the document that a text spells. -/
def parse (s : String) : Option Entries := do
  let (lines, _) ← Reader.lines s.toList
  let draft ← lines.foldlM Line.apply {}
  return draft.entries

/-- The line of a key that needs no quotes, and of the text of its value. -/
def pairText (key : String) (text : List Char) : List Char :=
  key.toList ++ " = ".toList ++ text ++ ['\n']

end ChainClient.Toml
