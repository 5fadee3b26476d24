import ChainClient.Text.Printable

/-!
# `ChainClient.Text.Quoted` — texts and characters quoted inside a message

An error message shows the offending text between quotes, so that blanks, controls and marks in it
can be seen. A quote of the kind that encloses the text, and a backslash, are escaped; the other
kind of quote stands as it is.

## Contents
- **Escapes.** `escape` is the spelling of one character between quotes of a given kind.
- **Quotes.** `quoted` encloses a text in double quotes, `quotedChar` one character in single
  quotes.
-/

namespace ChainClient.Text

/-- The digits of a code point in lowercase hexadecimal between braces, after a backslash and a
    `u`. -/
def escapeCode (c : Char) : List Char :=
  ['\\', 'u', '{'] ++ Nat.toDigits 16 c.toNat ++ ['}']

/-- The spelling of a character between quotes of the kind `quote`. -/
def escape (quote c : Char) : List Char :=
  if c.toNat = 0 then ['\\', '0']
  else if c = '\t' then ['\\', 't']
  else if c = '\r' then ['\\', 'r']
  else if c = '\n' then ['\\', 'n']
  else if c = '\\' || c = quote then ['\\', c]
  else if isMark c || !isPrintable c then escapeCode c
  else [c]

/-- The double quote. -/
def doubleQuote : Char := Char.ofNat 34

/-- The single quote. -/
def singleQuote : Char := Char.ofNat 39

/-- A text in double quotes. -/
def quoted (s : String) : String :=
  String.ofList ([doubleQuote] ++ s.toList.flatMap (escape doubleQuote) ++ [doubleQuote])

/-- A character in single quotes. -/
def quotedChar (c : Char) : String :=
  String.ofList ([singleQuote] ++ escape singleQuote c ++ [singleQuote])

end ChainClient.Text
