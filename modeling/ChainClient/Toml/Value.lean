/-!
# `ChainClient.Toml.Value` — TOML values, and the rules by which tables grow

A table can be written all at once between braces, or bit by bit: under a header, as part of another
table's header, or through dotted keys. Each table remembers how it came about, because that decides
what may still be added to it.

## Contents
- **Values.** `Toml`; floats and dates are kept as they are written.
- **Growth.** `Toml.alter` changes one entry; `within` follows the path of a header; `openTable` and
  `appendTable` act on headers, `insert` on keys.
-/

namespace ChainClient

/-- How a table came about. -/
inductive Toml.TableKind where
  /-- Written between braces. -/
  | inline
  /-- Opened by a header of its own. -/
  | header
  /-- Mentioned on the way to the table of a header. -/
  | implied
  /-- Mentioned in a dotted key. -/
  | dotted
  deriving DecidableEq, Repr

/-- A TOML value. -/
inductive Toml where
  /-- A string. -/
  | string (s : String)
  /-- An integer. -/
  | integer (i : Int)
  /-- A float, as it is written. -/
  | float (text : String)
  /-- A truth value. -/
  | boolean (b : Bool)
  /-- A date, a time or both, as they are written. -/
  | dateTime (text : String)
  /-- An array. -/
  | array (elements : List Toml)
  /-- A table. -/
  | table (kind : Toml.TableKind) (entries : List (String × Toml))
  /-- The tables of repeated headers. -/
  | tables (elements : List (List (String × Toml)))

namespace Toml

/-- The entries of a table. -/
abbrev Entries := List (String × Toml)

/-- The value of a key. -/
def find? (key : String) (entries : Entries) : Option Toml :=
  (entries.find? (·.1 == key)).map (·.2)

/-- The entries with a new value for a key. The value may depend on the old one, or be refused. -/
def alter (key : String) (change : Option Toml → Option Toml) : Entries → Option Entries
  | [] => (change none).map fun value => [(key, value)]
  | (k, old) :: entries =>
    if k = key then (change (some old)).map fun value => (k, value) :: entries
    else (alter key change entries).map ((k, old) :: ·)

/-- The tables with a change in the last of them. -/
def onLast (change : Entries → Option Entries) : List Entries → Option (List Entries)
  | [] => none
  | [last] => (change last).map ([·])
  | first :: rest => (onLast change rest).map (first :: ·)

/-- The entries with a change in the table at the end of a header's path. Missing tables on the way
    are implied; of repeated tables the last one is meant. -/
def within (change : Entries → Option Entries) : (path : List String) → Entries → Option Entries
  | [], entries => change entries
  | key :: path, entries =>
    alter key (fun
      | none => (within change path []).map (.table .implied)
      | some (.table .inline _) => none
      | some (.table kind inner) => (within change path inner).map (.table kind)
      | some (.tables elements) => (onLast (within change path) elements).map .tables
      | some _ => none) entries

/-- The entries after the header of a table. A table has one header at most. -/
def openTable (path : List String) (key : String) (entries : Entries) : Option Entries :=
  within (alter key fun
    | none => some (.table .header [])
    | some (.table .implied inner) => some (.table .header inner)
    | some _ => none) path entries

/-- The entries after the header of one of several tables. -/
def appendTable (path : List String) (key : String) (entries : Entries) : Option Entries :=
  within (alter key fun
    | none => some (.tables [[]])
    | some (.tables elements) => some (.tables (elements ++ [[]]))
    | some _ => none) path entries

/-- The entries with a value for a key at the end of a dotted path. A key has one value. Dotted keys
    may pass through tables that only other dotted keys or longer headers mention, but add to the
    former alone; `mayAdd` says whether the entries may be added to. -/
def insert (key : String) (value : Toml) :
    (path : List String) → (mayAdd : Bool) → Entries → Option Entries
  | [], mayAdd, entries =>
    if mayAdd then
      alter key (fun
        | none => some value
        | some _ => none) entries
    else none
  | step :: path, _, entries =>
    alter step (fun
      | none => (insert key value path true []).map (.table .dotted)
      | some (.table .dotted inner) => (insert key value path true inner).map (.table .dotted)
      | some (.table .implied inner) => (insert key value path false inner).map (.table .implied)
      | some (.tables elements) => (onLast (insert key value path false) elements).map .tables
      | some _ => none) entries

end Toml

end ChainClient
