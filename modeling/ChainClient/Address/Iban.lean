import ChainClient.Address.Checksum
import ChainClient.Text.Numeral
import ChainClient.Width

/-!
# `ChainClient.Address.Iban` — addresses as international bank account numbers (ISO 13616)

The number of an address is written in base 36 with capital letters, at least 30 digits of it, after
the country code `TH` and two check digits. The check digits make the whole number, its first four
characters moved to the end and its letters read as 10 to 35, leave 1 modulo 97.

## Contents
- **Check.** `remainder97?` is the remainder of a text; `checkDigits` are the digits that mend it.
- **Writing.** `ibanText` is the number of an address.
- **Reading.** `isDirectIban` looks at the length, `isValidIban` at form and check digits, `ofIban?`
  reads the address without looking at the check digits, and `checksumOfIban?` gives its checksum
  text.
-/

namespace ChainClient.Address

/-! ## Check -/

/-- The country code in front of every number. -/
def countryCode : List Char := ['T', 'H']

/-- The least number of digits of an account. -/
def accountWidth : Nat := 30

/-- The remainder modulo 97 after one more character, which is worth one decimal digit or two. -/
def feed97 (rem value : Nat) : Nat :=
  (rem * (if 10 ≤ value then 100 else 10) + value) % 97

/-- The remainder modulo 97 of a text of digits and letters, its first four characters read last. A
    text without those has none. -/
def remainder97? (cs : List Char) : Option Nat :=
  if cs.length < 4 then none
  else ((cs.drop 4 ++ cs.take 4).mapM (Numeral.digit? 36)).map fun values => values.foldl feed97 0

/-- Two decimal digits. -/
def twoDigits (n : Nat) : List Char := [Nat.digitChar (n / 10 % 10), Nat.digitChar (n % 10)]

/-! ## Writing -/

/-- The digits of an account: base 36 in capitals, padded with zeros in front. -/
def accountDigits (a : Address) : List Char :=
  let digits := (Numeral.digits 36 a.octets.value).map Numeral.upperDigit
  List.replicate (accountWidth - digits.length) '0' ++ digits

/-- The check digits of an account. -/
def checkDigits (account : List Char) : List Char :=
  twoDigits (98 - (remainder97? (countryCode ++ ['0', '0'] ++ account)).getD 0)

/-- The international bank account number of an address. -/
def ibanText (a : Address) : String :=
  let account := accountDigits a
  String.ofList (countryCode ++ checkDigits account ++ account)

/-! ## Reading -/

/-- Whether a text is as long as the number of an address: 34 or 35 bytes. -/
def isDirectIban (s : String) : Bool :=
  (Utf8.bytes s).length == 34 || (Utf8.bytes s).length == 35

/-- Whether a text has the form of the number of an address: country code, two digits, and digits or
    capital letters. -/
def hasIbanForm (cs : List Char) : Bool :=
  (cs.length == 34 || cs.length == 35) && cs.take 2 == countryCode &&
    ((cs.drop 2).take 2).all Char.isDigit && (cs.drop 4).all fun c => c.isDigit || c.isUpper

/-- Whether a text has the right form and check digits. -/
def isValidIban (s : String) : Bool :=
  hasIbanForm s.toList && remainder97? s.toList == some 1

/-- The characters after the first `n` bytes, if a character ends there. -/
def dropBytes? : (n : Nat) → List Char → Option (List Char)
  | 0, cs => some cs
  | _ + 1, [] => none
  | n + 1, c :: rest => if c.utf8Size ≤ n + 1 then dropBytes? (n + 1 - c.utf8Size) rest else none

/-- The address that a number of the right length stands for, its first four bytes aside. Letters of
    either case count. A number beyond 20 bytes stands for none. -/
def ofIban? (s : String) : Option Address := do
  guard (isDirectIban s)
  let account ← dropBytes? 4 s.toList
  let n ← (account.mapM (Numeral.digit? 36)).map (Numeral.ofDigits 36)
  guard (n < bitBound 160)
  return ⟨.ofNat 20 n⟩

/-- The checksum text of the address that a number stands for. -/
def checksumOfIban? (s : String) : Option String := (ofIban? s).map checksumText

end ChainClient.Address
