import ChainClient.Abi.Error
import ChainClient.Abi.Type
import ChainClient.Text.Blank
import ChainClient.Text.Numeral
import ChainClient.Text.Utf8

/-!
# `ChainClient.Abi.Type.Notation` — reading the names of types

A name is a word such as `uint8` or `bytes32`, a list of names in parentheses for a tuple, or a name
and a suffix in brackets for an array. Blanks around a name do not count, inside tuples as well.

## Contents
- **Suffixes.** `splitSuffix` takes a name apart at its last opening bracket.
- **Fields.** `tupleFields` takes the inside of a tuple apart at the commas outside inner
  parentheses. It is a pass over the characters (`FieldPass`) that cuts by the bytes it counts.
- **Words.** `parseWord` reads a name without brackets and parentheses.
- **Names.** `AbiType.parse`; `AbiType.parseWith` also reads `tuple`, whose fields are given apart.
-/

namespace ChainClient.AbiType

/-- The error for a text that names no type. -/
def notAType {α : Type} (cs : List Char) : Except AbiError α :=
  .error (.typeParse (String.ofList cs))

/-! ## Suffixes -/

/-- The parts of a text that ends in a bracket: what stands before its last opening bracket, and
    what stands between the two. -/
def splitBracket? (cs : List Char) : Option (List Char × List Char) :=
  match cs.reverse with
  | [] => none
  | _ :: behind =>
    match behind.dropWhile (· != '[') with
    | [] => none
    | _ :: before => some (before.reverse, (behind.takeWhile (· != '[')).reverse)

theorem length_of_splitBracket? {cs inner size : List Char}
    (h : splitBracket? cs = some (inner, size)) : inner.length < cs.length := by
  unfold splitBracket? at h
  split at h
  · simp at h
  · next c behind hrev =>
    split at h
    · simp at h
    · next d before hdrop =>
      have h1 := (List.dropWhile_sublist (l := behind) (· != '[')).length_le
      have h2 := congrArg List.length hrev
      rw [hdrop] at h1
      simp only [Option.some.injEq, Prod.mk.injEq] at h
      rw [← h.1]
      simp only [List.length_reverse, List.length_cons] at h1 h2 ⊢
      omega

/-- The name in front of an array suffix, and the length it gives, if it gives one. A length is a
    positive decimal number. -/
def splitSuffix (cs : List Char) : Except AbiError (List Char × Option Nat) :=
  match splitBracket? cs with
  | none => notAType cs
  | some (inner, size) =>
    if inner = [] then notAType cs
    else if size = [] then .ok (inner, none)
    else
      match Numeral.readUnsigned? (maxOffset + 1) size with
      | some n => if 0 < n then .ok (inner, some n) else notAType cs
      | none => notAType cs

theorem length_of_splitSuffix {cs inner : List Char} {size : Option Nat}
    (h : splitSuffix cs = .ok (inner, size)) : inner.length < cs.length := by
  unfold splitSuffix notAType at h
  cases hb : splitBracket? cs with
  | none => simp [hb] at h
  | some parts =>
    obtain ⟨before, between⟩ := parts
    have := length_of_splitBracket? hb
    simp only [hb] at h
    split at h
    · cases h
    · split at h
      · cases h; exact this
      · split at h
        · split at h
          · cases h; exact this
          · cases h
        · cases h

/-- The array type of an element type and a suffix. -/
def withSuffix (element : AbiType) : Option Nat → AbiType
  | some size => .fixedArray element size
  | none => .array element

/-! ## Fields -/

/-- A pass through the inside of a tuple, between two characters. -/
structure FieldPass where
  /-- The number of parentheses that are open. -/
  depth : Nat := 0
  /-- The byte that the current field starts at. -/
  start : Nat := 0
  /-- The fields in front of it. -/
  fields : List (List Char) := []

/-- Goes past a character of the inside of a tuple, given with the byte it starts at. A comma
    outside parentheses ends the current field. -/
def FieldPass.next (body : List Char) (pass : FieldPass) : Nat × Char → Except AbiError FieldPass
  | (_, '(') => .ok { pass with depth := pass.depth + 1 }
  | (_, ')') =>
    match pass.depth with
    | 0 => notAType body
    | depth + 1 => .ok { pass with depth }
  | (index, ',') =>
    if pass.depth = 0 then
      .ok { pass with
        start := index + 1
        fields := pass.fields ++ [Utf8.slice pass.start index body] }
    else .ok pass
  | _ => .ok pass

/-- The fields behind a whole pass. -/
def FieldPass.finish (body : List Char) (pass : FieldPass) : Except AbiError (List (List Char)) :=
  if pass.depth = 0 then
    .ok (pass.fields ++ [Utf8.slice pass.start (Utf8.encode body).length body])
  else notAType body

/-- The fields between the commas that stand outside parentheses, if the parentheses match. -/
def tupleFields (body : List Char) : Except AbiError (List (List Char)) := do
  let pass ← (Utf8.positions 0 body).foldlM (FieldPass.next body) {}
  pass.finish body

namespace FieldPass

/-- No field in front is longer than the inside of the tuple. -/
def IsShort (body : List Char) (pass : FieldPass) : Prop :=
  ∀ field ∈ pass.fields, field.length ≤ body.length

theorem IsShort.push {body : List Char} {pass : FieldPass} (h : pass.IsShort body)
    (first last : Nat) :
    ∀ field ∈ pass.fields ++ [Utf8.slice first last body], field.length ≤ body.length := by
  intro field hfield
  rcases List.mem_append.mp hfield with hfront | hlast
  · exact h field hfront
  · rw [List.mem_singleton.mp hlast]
    exact Utf8.length_slice_le first last body

theorem IsShort.next {body : List Char} {pass later : FieldPass} (h : pass.IsShort body)
    {p : Nat × Char} (hnext : pass.next body p = .ok later) : later.IsShort body := by
  unfold FieldPass.next at hnext
  split at hnext
  · cases hnext
    exact h
  · split at hnext <;> cases hnext
    exact h
  · split at hnext <;> cases hnext
    · exact h.push _ _
    · exact h
  · cases hnext
    exact h

theorem IsShort.foldlM {body : List Char} {ps : List (Nat × Char)} {pass later : FieldPass}
    (h : pass.IsShort body) (hrun : ps.foldlM (FieldPass.next body) pass = .ok later) :
    later.IsShort body := by
  induction ps generalizing pass with
  | nil =>
    cases hrun
    exact h
  | cons p ps ih =>
    rw [List.foldlM_cons] at hrun
    cases hnext : pass.next body p with
    | error e =>
      rw [hnext] at hrun
      cases hrun
    | ok middle =>
      rw [hnext] at hrun
      exact ih (h.next hnext) hrun

end FieldPass

theorem length_of_mem_tupleFields {body : List Char} {fields : List (List Char)}
    (h : tupleFields body = .ok fields) : ∀ field ∈ fields, field.length ≤ body.length := by
  unfold tupleFields at h
  cases hrun : (Utf8.positions 0 body).foldlM (FieldPass.next body) {} with
  | error e =>
    rw [hrun] at h
    cases h
  | ok pass =>
    rw [hrun] at h
    have hpass : pass.IsShort body :=
      FieldPass.IsShort.foldlM (fun field hfield => (List.not_mem_nil hfield).elim) hrun
    change pass.finish body = .ok fields at h
    unfold FieldPass.finish at h
    split at h <;> cases h
    exact hpass.push _ _

/-- What stands between the parentheses of a text that starts and ends with them. -/
def tupleBody? : List Char → Option (List Char)
  | '(' :: rest => if rest.getLast? = some ')' then some rest.dropLast else none
  | _ => none

theorem length_of_tupleBody? {cs body : List Char} (h : tupleBody? cs = some body) :
    body.length < cs.length := by
  unfold tupleBody? at h
  split at h
  · split at h
    · simp only [Option.some.injEq] at h
      rw [← h]
      simp only [List.length_dropLast, List.length_cons]
      omega
    · cases h
  · cases h

/-! ## Words -/

/-- What follows `head` in a text that starts with it. -/
def afterHead? (head : String) (cs : List Char) : Option (List Char) :=
  head.toList.isPrefixOf? cs

/-- The width at the end of the word `word`: a multiple of `step` up to `max`, which is also what no
    digits stand for. It does not start with a zero. -/
def parseWidth (word : List Char) (step max : Nat) (digits : List Char) : Except AbiError Nat :=
  if digits = [] then .ok max
  else if digits.head? = some '0' then notAType word
  else
    match Numeral.readUnsigned? (maxOffset + 1) digits with
    | some n => if step ≤ n ∧ n ≤ max ∧ n % step = 0 then .ok n else notAType word
    | none => notAType word

/-- The type that a single word names. -/
def parseWord (word : List Char) : Except AbiError AbiType :=
  if word = "address".toList then .ok .address
  else if word = "bool".toList then .ok .bool
  else if word = "string".toList then .ok .string
  else if word = "bytes".toList then .ok .bytes
  else
    match afterHead? "uint" word, afterHead? "int" word, afterHead? "bytes" word with
    | some digits, _, _ => (parseWidth word 8 256 digits).map .uint
    | none, some digits, _ => (parseWidth word 8 256 digits).map .int
    | none, none, some digits => (parseWidth word 1 32 digits).map .fixedBytes
    | none, none, none => notAType word

/-! ## Names -/

/-- The type that a text names. -/
def parseChars (cs : List Char) : Except AbiError AbiType :=
  let name := Text.trim cs
  if name.getLast? = some ']' then
    match _h : splitSuffix name with
    | .error e => .error e
    | .ok (inner, size) => (parseChars inner).map (withSuffix · size)
  else
    match _h : tupleBody? name with
    | none => parseWord name
    | some body =>
      if Text.trim body = [] then .ok (.tuple [])
      else
        match _hf : tupleFields body with
        | .error e => .error e
        | .ok fields =>
          (fields.attach.mapM fun field => parseChars field.val).map .tuple
termination_by cs.length
decreasing_by
  · have := length_of_splitSuffix _h
    have : name.length ≤ cs.length := Text.length_trim_le cs
    omega
  · have := length_of_tupleBody? _h
    have := length_of_mem_tupleFields _hf field.val field.property
    have : name.length ≤ cs.length := Text.length_trim_le cs
    omega

/-- The type that a text names. -/
def parse (s : String) : Except AbiError AbiType := parseChars s.toList

/-- The type that a text names, where `tuple` stands for the tuple of the given fields. -/
def parseWithChars (components : List AbiType) (cs : List Char) : Except AbiError AbiType :=
  let name := Text.trim cs
  if name = "tuple".toList then .ok (.tuple components)
  else if name.getLast? = some ']' ∧ (afterHead? "tuple" name).isSome then
    match _h : splitSuffix name with
    | .error e => .error e
    | .ok (inner, size) => (parseWithChars components inner).map (withSuffix · size)
  else parseChars name
termination_by cs.length
decreasing_by
  have := length_of_splitSuffix _h
  have : name.length ≤ cs.length := Text.length_trim_le cs
  omega

/-- The type that a text names, where `tuple` stands for the tuple of the given fields. -/
def parseWith (components : List AbiType) (s : String) : Except AbiError AbiType :=
  parseWithChars components s.toList

end ChainClient.AbiType
