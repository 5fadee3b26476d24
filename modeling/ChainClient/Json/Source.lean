import ChainClient.Json.Value
import ChainClient.Text.Utf8

/-!
# `ChainClient.Json.Source` — JSON texts, as they stand in a byte string

Reading goes in two steps. First the bytes become a tree that keeps everything a reader may still
object to: repeated members, their order, and strings that spell no text because of a lone surrogate
or of bytes that are not UTF-8. Such a string is harmless where nobody looks at it. The second step
(`ChainClient.Json.Reader`) takes what it wants from the tree.

## Contents
- **Trees.** `JsonSource`; an unreadable string is `none`.
- **Readings.** `Reading` is what was read from the front of a byte string, and the shorter rest.
- **Tokens.** `readString` and `readNumber`; the exponent of a number is rewritten to a sign and
  digits. `numberOf?` takes a text for a number.
- **Texts.** `JsonSource.parse` reads a whole byte string.
-/

namespace ChainClient

/-- A JSON text as a tree. -/
inductive JsonSource where
  /-- The value `null`. -/
  | null
  /-- A truth value. -/
  | bool (b : Bool)
  /-- A number, as it is written. -/
  | number (text : String)
  /-- A string, if it spells a text. -/
  | string (text? : Option String)
  /-- An array. -/
  | array (elements : List JsonSource)
  /-- An object, with the members in their order and the keys that spell a text. -/
  | object (members : List (Option String × JsonSource))

namespace JsonSource

/-! ## Readings -/

/-- What was read from the front of `bs`, and what is left of it. -/
structure Reading (α : Type) (bs : Bytes) where
  /-- What was read. -/
  value : α
  /-- The bytes that are left. -/
  rest : Bytes
  /-- Something was read. -/
  shorter : rest.length < bs.length

/-- A reading from the end of a longer byte string. -/
def Reading.extend {α β : Type} {bs cs : Bytes} (r : Reading α bs) (f : α → β)
    (h : bs.length ≤ cs.length) : Reading β cs :=
  ⟨f r.value, r.rest, Nat.lt_of_lt_of_le r.shorter h⟩

/-- Whether a byte is a blank between tokens. -/
def isBlank (b : UInt8) : Bool := b == 0x20 || b == 0x0A || b == 0x0D || b == 0x09

/-- The bytes from the first token on. -/
def skipBlanks (bs : Bytes) : Bytes := bs.dropWhile isBlank

theorem length_skipBlanks_le (bs : Bytes) : (skipBlanks bs).length ≤ bs.length :=
  (List.dropWhile_sublist _).length_le

/-! ## Tokens -/

/-- A piece of a string: a byte that stands for itself, or an escaped UTF-16 unit. -/
inductive Piece where
  /-- A byte. -/
  | byte (b : UInt8)
  /-- A unit given by its number. -/
  | unit (code : Nat)

/-- The value of a hexadecimal digit. -/
def hexValue? (b : UInt8) : Option Nat :=
  if 0x30 ≤ b ∧ b ≤ 0x39 then some (b.toNat - 0x30)
  else if 0x61 ≤ b ∧ b ≤ 0x66 then some (b.toNat - 0x57)
  else if 0x41 ≤ b ∧ b ≤ 0x46 then some (b.toNat - 0x37)
  else none

/-- The byte that a letter after a backslash stands for. -/
def escapedByte? (letter : UInt8) : Option UInt8 :=
  if letter = 0x22 ∨ letter = 0x5C ∨ letter = 0x2F then some letter
  else if letter = 0x62 then some 0x08
  else if letter = 0x66 then some 0x0C
  else if letter = 0x6E then some 0x0A
  else if letter = 0x72 then some 0x0D
  else if letter = 0x74 then some 0x09
  else none

/-- The four hexadecimal digits of an escaped unit. -/
def unitOf? (a b c d : UInt8) : Option Nat := do
  let a ← hexValue? a
  let b ← hexValue? b
  let c ← hexValue? c
  let d ← hexValue? d
  return ((a * 16 + b) * 16 + c) * 16 + d

/-- The pieces of a string up to its closing quote. -/
def readPieces : (bs : Bytes) → Option (Reading (List Piece) bs)
  | [] => none
  | 0x22 :: rest => some ⟨[], rest, by simp⟩
  | 0x5C :: 0x75 :: a :: b :: c :: d :: rest =>
    match unitOf? a b c d, readPieces rest with
    | some code, some r => some (r.extend (.unit code :: ·) (by simp; omega))
    | _, _ => none
  | 0x5C :: letter :: rest =>
    match escapedByte? letter, readPieces rest with
    | some b, some r => some (r.extend (.byte b :: ·) (by simp; omega))
    | _, _ => none
  | b :: rest =>
    if b < 0x20 ∨ b = 0x5C then none
    else (readPieces rest).map fun r => r.extend (.byte b :: ·) (by simp)

/-- Whether a UTF-16 unit is the first half of a pair. -/
def isHighSurrogate (code : Nat) : Bool := 0xD800 ≤ code && code < 0xDC00

/-- Whether a UTF-16 unit is the second half of a pair. -/
def isLowSurrogate (code : Nat) : Bool := 0xDC00 ≤ code && code < 0xE000

/-- The UTF-8 bytes that pieces stand for; none if a surrogate is not part of a pair. -/
def pieceBytes? : List Piece → Option Bytes
  | [] => some []
  | .byte b :: pieces => (pieceBytes? pieces).map (b :: ·)
  | .unit high :: .unit low :: pieces =>
    if isHighSurrogate high then
      if isLowSurrogate low then
        let code := 0x10000 + (high - 0xD800) * 0x400 + (low - 0xDC00)
        (pieceBytes? pieces).map (String.utf8EncodeChar (Char.ofNat code) ++ ·)
      else none
    else if isLowSurrogate high then none
    else (pieceBytes? (.unit low :: pieces)).map (String.utf8EncodeChar (Char.ofNat high) ++ ·)
  | .unit code :: pieces =>
    if isHighSurrogate code || isLowSurrogate code then none
    else (pieceBytes? pieces).map (String.utf8EncodeChar (Char.ofNat code) ++ ·)

/-- The text that pieces spell, if they spell one. -/
def pieceText? (pieces : List Piece) : Option String := do
  (Utf8.read (← pieceBytes? pieces)).toOption

/-- The string behind an opening quote. -/
def readString (bs : Bytes) : Option (Reading (Option String) bs) :=
  (readPieces bs).map fun r => r.extend pieceText? (Nat.le_refl _)

/-- Whether a byte is a decimal digit. -/
def isDigit (b : UInt8) : Bool := 0x30 ≤ b && b ≤ 0x39

/-- The digits at the front, and the rest. -/
def spanDigits (bs : Bytes) : Bytes × Bytes := (bs.takeWhile isDigit, bs.dropWhile isDigit)

/-- The whole part of a number: a zero, or digits that do not start with one. -/
def readWhole : Bytes → Option (Bytes × Bytes)
  | 0x30 :: rest =>
    match rest with
    | [] => some ([0x30], [])
    | b :: _ => if isDigit b then none else some ([0x30], rest)
  | bs => if (spanDigits bs).1 = [] then none else some (spanDigits bs)

/-- The fraction of a number, if there is one. -/
def readFraction : Bytes → Option (Bytes × Bytes)
  | 0x2E :: rest =>
    if (spanDigits rest).1 = [] then none
    else some (0x2E :: (spanDigits rest).1, (spanDigits rest).2)
  | bs => some ([], bs)

/-- The exponent of a number, if there is one, rewritten to a small `e`, a sign and digits. -/
def readExponent : Bytes → Option (Bytes × Bytes)
  | [] => some ([], [])
  | b :: rest =>
    if b = 0x65 ∨ b = 0x45 then
      let (sign, behind) : UInt8 × Bytes :=
        match rest with
        | 0x2D :: behind => (0x2D, behind)
        | 0x2B :: behind => (0x2B, behind)
        | _ => (0x2B, rest)
      if (spanDigits behind).1 = [] then none
      else some (0x65 :: sign :: (spanDigits behind).1, (spanDigits behind).2)
    else some ([], b :: rest)

/-- The parts of a number and the rest. -/
def splitNumber (bs : Bytes) : Option (Bytes × Bytes) := do
  let (sign, bs) : Bytes × Bytes :=
    match bs with
    | 0x2D :: rest => ([0x2D], rest)
    | _ => ([], bs)
  let (whole, bs) ← readWhole bs
  let (fraction, bs) ← readFraction bs
  let (exponent, bs) ← readExponent bs
  return (sign ++ whole ++ fraction ++ exponent, bs)

/-- A number at the front. -/
def readNumber (bs : Bytes) : Option (Reading String bs) :=
  match splitNumber bs with
  | none => none
  | some (digits, rest) =>
    if h : rest.length < bs.length then
      some ⟨String.ofList (digits.map Char.ofUInt8), rest, h⟩
    else none

/-- The number that a whole text spells, with its exponent rewritten. -/
def numberOf? (text : String) : Option String :=
  match readNumber (Utf8.bytes text) with
  | some r => if r.rest = [] then some r.value else none
  | none => none

/-- The bytes behind a word at the front. -/
def readWord (word : String) (bs : Bytes) : Option (Reading Unit bs) :=
  match (Utf8.bytes word).isPrefixOf? bs with
  | none => none
  | some rest => if h : rest.length < bs.length then some ⟨(), rest, h⟩ else none

/-! ## Texts -/

mutual

/-- A value at the front, behind blanks. -/
def readValue (bs : Bytes) : Option (Reading JsonSource bs) :=
  match hs : skipBlanks bs with
  | [] => none
  | b :: rest =>
    have hlt : rest.length < bs.length := by
      have := length_skipBlanks_le bs
      rw [hs, List.length_cons] at this
      omega
    if b = 0x7B then
      match he : skipBlanks rest with
      | 0x7D :: behind =>
        some ⟨.object [], behind, by
          have := length_skipBlanks_le rest
          rw [he, List.length_cons] at this
          omega⟩
      | _ => (readMembers rest).map fun r => r.extend .object (by omega)
    else if b = 0x5B then
      match he : skipBlanks rest with
      | 0x5D :: behind =>
        some ⟨.array [], behind, by
          have := length_skipBlanks_le rest
          rw [he, List.length_cons] at this
          omega⟩
      | _ => (readElements rest).map fun r => r.extend .array (by omega)
    else
      have hle : (b :: rest).length ≤ bs.length := by simp only [List.length_cons]; omega
      if b = 0x22 then (readString rest).map fun r => r.extend .string (by omega)
      else if b = 0x6E then
        (readWord "null" (b :: rest)).map fun r => r.extend (fun _ => .null) hle
      else if b = 0x74 then
        (readWord "true" (b :: rest)).map fun r => r.extend (fun _ => .bool true) hle
      else if b = 0x66 then
        (readWord "false" (b :: rest)).map fun r => r.extend (fun _ => .bool false) hle
      else (readNumber (b :: rest)).map fun r => r.extend .number hle
termination_by (bs.length, 0)

/-- The elements of an array that has some, and its closing bracket. -/
def readElements (bs : Bytes) : Option (Reading (List JsonSource) bs) :=
  match readValue bs with
  | none => none
  | some first =>
    match hs : skipBlanks first.rest with
    | 0x2C :: rest =>
      have hlt : rest.length < bs.length := by
        have h1 := length_skipBlanks_le first.rest
        have h2 := first.shorter
        rw [hs, List.length_cons] at h1
        omega
      (readElements rest).map fun r => r.extend (first.value :: ·) (by omega)
    | 0x5D :: rest =>
      some ⟨[first.value], rest, by
        have h1 := length_skipBlanks_le first.rest
        have h2 := first.shorter
        rw [hs, List.length_cons] at h1
        omega⟩
    | _ => none
termination_by (bs.length, 1)

/-- The members of an object that has some, and its closing brace. -/
def readMembers (bs : Bytes) : Option (Reading (List (Option String × JsonSource)) bs) :=
  match hs : skipBlanks bs with
  | 0x22 :: rest =>
    match readString rest with
    | none => none
    | some key =>
      match hc : skipBlanks key.rest with
      | 0x3A :: behind =>
        have hlt : behind.length < bs.length := by
          have h1 := length_skipBlanks_le bs
          have h2 := length_skipBlanks_le key.rest
          have h3 := key.shorter
          rw [hs, List.length_cons] at h1
          rw [hc, List.length_cons] at h2
          omega
        match readValue behind with
        | none => none
        | some first =>
          match hn : skipBlanks first.rest with
          | 0x2C :: next =>
            have hlt' : next.length < bs.length := by
              have h1 := length_skipBlanks_le first.rest
              have h2 := first.shorter
              rw [hn, List.length_cons] at h1
              omega
            (readMembers next).map fun r =>
              r.extend ((key.value, first.value) :: ·) (by omega)
          | 0x7D :: next =>
            some ⟨[(key.value, first.value)], next, by
              have h1 := length_skipBlanks_le first.rest
              have h2 := first.shorter
              rw [hn, List.length_cons] at h1
              omega⟩
          | _ => none
      | _ => none
  | _ => none
termination_by (bs.length, 1)

end

/-- The tree of a whole byte string, which holds one value and blanks around it. -/
def parse (bs : Bytes) : Option JsonSource :=
  match readValue bs with
  | some r => if skipBlanks r.rest = [] then some r.value else none
  | none => none

end JsonSource

end ChainClient
