/-!
# `ChainClient.Toml.Reader` — steps that read characters from the front of a text

## Contents
- **Steps.** A `Reader` takes characters from the front, or fails and takes none.
- **Pieces.** `char`, `word`, `span` and `digits` take characters of a kind.
- **Repetition.** `opt`, `many`, and `separated` for what stands between separators.
-/

namespace ChainClient.Toml

/-- A step of reading. -/
abbrev Reader := StateT (List Char) Option

namespace Reader

/-- A character of a kind. -/
def char (kind : Char → Bool) : Reader Char
  | [] => none
  | c :: rest => if kind c then some (c, rest) else none

/-- A fixed character. -/
def only (c : Char) : Reader Unit := discard (char (· == c))

/-- A fixed text. -/
def word (text : String) : Reader Unit := fun cs =>
  (text.toList.isPrefixOf? cs).map ((), ·)

/-- All characters of a kind. -/
def span (kind : Char → Bool) : Reader (List Char) := fun cs =>
  some (cs.takeWhile kind, cs.dropWhile kind)

/-- What a step reads, if it does. -/
def opt {α : Type} (step : Reader α) : Reader (Option α) := some <$> step <|> pure none

/-- What a step reads, as often as it does. -/
def many {α : Type} (step : Reader α) (cs : List Char) : Option (List α × List Char) :=
  match step cs with
  | none => some ([], cs)
  | some (a, rest) =>
    if _h : rest.length < cs.length then
      (many step rest).map fun (as, end_) => (a :: as, end_)
    else some ([], cs)
termination_by cs.length

/-- What a step reads, once at least, between separators. -/
def separated {α : Type} (separator : Reader Unit) (step : Reader α) : Reader (List α) := do
  let first ← step
  let rest ← many (separator *> step)
  return first :: rest

/-- The text that a step takes, instead of what it reads. -/
def taken {α : Type} (step : Reader α) : Reader (List Char) := fun cs =>
  (step cs).map fun (_, rest) => (cs.take (cs.length - rest.length), rest)

/-- Digits of a kind, with single underscores between them. -/
def digits (kind : Char → Bool) : Reader (List Char) := do
  let first ← char kind
  let rest ← many (opt (only '_') *> char kind)
  return first :: rest

/-- A fixed count of decimal digits, and the number they spell. -/
def count (n : Nat) : Reader Nat := fun cs =>
  let ds := cs.take n
  if ds.length = n ∧ ds.all Char.isDigit then
    some (ds.foldl (fun acc d => acc * 10 + (d.toNat - 48)) 0, cs.drop n)
  else none

end Reader

end ChainClient.Toml
