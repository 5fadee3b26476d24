import ChainClient.Text.Numeral
import ChainClient.Toml.Reader

/-!
# `ChainClient.Toml.Quotation` — strings between quotes, and back

A string stands between double quotes, where a backslash starts an escape, or between single quotes,
where nothing is escaped. Three quotes instead of one let a string run over lines; the line break
behind the first three does not count.

## Contents
- **Characters.** `isPlain` characters stand for themselves.
- **Reading.** `Reader.escape` reads an escape; `Reader.basic`, `literal`, `longBasic` and
  `longLiteral` read one form each, `quotation` any.
- **Writing.** `quote` chooses the plainest form a string has.
-/

namespace ChainClient.Toml

/-! ## Characters -/

/-- The double quote. -/
def doubleQuote : Char := Char.ofNat 0x22

/-- The single quote. -/
def singleQuote : Char := Char.ofNat 0x27

/-- Whether a character is a space or a tabulator. -/
def isBlank (c : Char) : Bool := c == ' ' || c == '\t'

/-- Whether a character is a tabulator or no control character of ASCII. -/
def isPlain (c : Char) : Bool := c == '\t' || (0x20 ≤ c.toNat && c.toNat != 0x7F)

/-- Whether a character stands for itself between double quotes. -/
def isBasic (c : Char) : Bool := isPlain c && c != doubleQuote && c != '\\'

/-- Whether a character stands for itself between single quotes. -/
def isLiteral (c : Char) : Bool := isPlain c && c != singleQuote

/-! ## Reading -/

namespace Reader

/-- Blanks. -/
def blanks : Reader Unit := discard (span isBlank)

/-- The end of a line. -/
def newline : Reader Unit := only '\n' <|> word "\r\n"

/-- The character with a code, if there is one. -/
def charOfCode? (n : Nat) : Option Char := if n.isValidChar then some (Char.ofNat n) else none

/-- The character with a code of `n` hexadecimal digits. -/
def codedChar (n : Nat) : Reader Char := fun cs =>
  if (cs.take n).length = n then do
    let code ← Numeral.readNat? 16 (cs.take n)
    return (← charOfCode? code, cs.drop n)
  else none

/-- The character that the letter of an escape stands for, where it takes no digits. -/
def escapedChar? (letter : Char) : Option Char :=
  if letter = 'b' then some (Char.ofNat 0x08)
  else if letter = 't' then some '\t'
  else if letter = 'n' then some '\n'
  else if letter = 'f' then some (Char.ofNat 0x0C)
  else if letter = 'r' then some '\r'
  else if letter = '\\' ∨ letter = doubleQuote then some letter
  else none

/-- An escape. -/
def escape : Reader Char := do
  only '\\'
  let letter ← char fun _ => true
  if letter = 'u' then codedChar 4
  else if letter = 'U' then codedChar 8
  else match escapedChar? letter with
    | some c => pure c
    | none => failure

/-- A string between double quotes. -/
def basic : Reader (List Char) :=
  only doubleQuote *> many (char isBasic <|> escape) <* only doubleQuote

/-- A string between single quotes. -/
def literal : Reader (List Char) :=
  only singleQuote *> span isLiteral <* only singleQuote

/-- Three quotes that open a string, and the line break behind them. -/
def openLong (quote : Char) : Reader Unit :=
  (only quote *> only quote *> only quote) <* opt newline

/-- One or two quotes inside a string between three quotes. -/
def innerQuotes (quote : Char) : Reader (List Char) := fun cs =>
  let quotes := cs.takeWhile (· == quote)
  if quotes.length = 1 ∨ quotes.length = 2 then some (quotes, cs.drop quotes.length) else none

/-- Three quotes that close a string, and up to two before them that belong to it. -/
def closeLong (quote : Char) : Reader (List Char) := fun cs =>
  let quotes := cs.takeWhile (· == quote)
  if quotes.length < 3 then none
  else
    let inner := quotes.take (min 2 (quotes.length - 3))
    some (inner, cs.drop (inner.length + 3))

/-- A backslash at the end of a line, with all blanks and line breaks behind it. -/
def continuation : Reader Unit := do
  only '\\'
  blanks
  newline
  discard (many (newline <|> discard (char isBlank)))

/-- A string between three quotes, with pieces of a kind before its last quotes. -/
def longOf (quote : Char) (piece : Reader (List Char)) : Reader (List Char) := do
  openLong quote
  let pieces ← many piece
  let last ← closeLong quote
  return pieces.flatten ++ last

/-- A piece of a string between three double quotes. -/
def longBasicPiece : Reader (List Char) :=
  (do return [← char isBasic]) <|> (continuation *> pure []) <|> (do return [← escape])
    <|> (newline *> pure ['\n']) <|> innerQuotes doubleQuote

/-- A string between three double quotes. -/
def longBasic : Reader (List Char) := longOf doubleQuote longBasicPiece

/-- A piece of a string between three single quotes. -/
def longLiteralPiece : Reader (List Char) :=
  (do return [← char isLiteral]) <|> (newline *> pure ['\n']) <|> innerQuotes singleQuote

/-- A string between three single quotes. -/
def longLiteral : Reader (List Char) := longOf singleQuote longLiteralPiece

/-- A string in any form. -/
def quotation : Reader String :=
  String.ofList <$> (longBasic <|> basic <|> longLiteral <|> literal)

end Reader

/-! ## Writing -/

/-- The greatest number of times that a character occurs in a row, `count` times so far. -/
def longestRun (c : Char) (count : Nat) : List Char → Nat
  | [] => count
  | d :: rest => if d = c then longestRun c (count + 1) rest else max count (longestRun c 0 rest)

/-- Whether a character cannot be written without an escape in any form of string. A line break
    can. -/
def isControl (c : Char) : Bool := !isPlain c && c != '\n'

/-- The spelling of a character between double quotes, but for double quotes. -/
def basicSpelling (long : Bool) (c : Char) : List Char :=
  if c = Char.ofNat 0x08 then ['\\', 'b']
  else if c = '\t' then ['\\', 't']
  else if c = '\n' then (if long then [c] else ['\\', 'n'])
  else if c = Char.ofNat 0x0C then ['\\', 'f']
  else if c = '\r' then ['\\', 'r']
  else if c = '\\' then ['\\', '\\']
  else if isControl c then
    ['\\', 'u', '0', '0', Numeral.upperDigit (c.toNat / 16), Numeral.upperDigit (c.toNat % 16)]
  else [c]

/-- The characters between double quotes that spell a string. Of double quotes in a row, each one
    beyond those `allowed` is escaped, and the count starts again; `count` of them were written
    last. -/
def basicBody (long : Bool) (allowed count : Nat) : List Char → List Char
  | [] => []
  | c :: rest =>
    if c = doubleQuote then
      if count < allowed then c :: basicBody long allowed (count + 1) rest
      else '\\' :: c :: basicBody long allowed 0 rest
    else basicSpelling long c ++ basicBody long allowed 0 rest

/-- A string between three quotes. One with line breaks starts on a line of its own. -/
def longForm (quote : Char) (cs body : List Char) : List Char :=
  List.replicate 3 quote ++ (if cs.contains '\n' then ['\n'] else []) ++ body
    ++ List.replicate 3 quote

/-- A string in the plainest form that it has: one line before several, double quotes before single
    ones, and escapes last. -/
def quote (cs : List Char) : List Char :=
  let hasControl := cs.any isControl
  let hasBreak := cs.contains '\n'
  let hasBackslash := cs.contains '\\'
  let double := longestRun doubleQuote 0 cs
  let single := longestRun singleQuote 0 cs
  let short := [doubleQuote] ++ basicBody false 0 0 cs ++ [doubleQuote]
  let long := longForm doubleQuote cs (basicBody true 2 0 cs)
  if !hasControl && !hasBackslash && double = 0 && !hasBreak then short
  else if !hasControl && single = 0 && !hasBreak then [singleQuote] ++ cs ++ [singleQuote]
  else if !hasControl && !hasBackslash && double ≤ 2 then long
  else if !hasControl && single ≤ 2 then longForm singleQuote cs cs
  else if hasBreak then long
  else short

end ChainClient.Toml
