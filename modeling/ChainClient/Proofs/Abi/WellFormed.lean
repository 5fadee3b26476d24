import ChainClient.Proofs.Abi.Fields
import ChainClient.Proofs.Outcome

/-!
# `ChainClient.Proofs.Abi.WellFormed` — the types that have a name

A contract type has a name that the reader of names accepts only if its widths and sizes are ones
that contracts know. The inductive type `AbiType` does not say so; the readers do.

## Contents
- **Predicates.** `AbiType.WellFormed` bounds widths and sizes at every depth; `AbiType.IsNamed`
  asks for a name.
- **Names.** `wellFormed_of_isNamed`: what a name names is well formed.
- **Readers.** `parseChars_suffix`, `parseChars_word` and `parseChars_tuple` say what a name with a
  suffix, a word and a tuple name.
-/

namespace ChainClient

namespace AbiType

/-! ## Predicates -/

/-- The widths of integers: whole bytes, up to a word. -/
def IsIntegerWidth (bits : Nat) : Prop := 8 ≤ bits ∧ bits ≤ 256 ∧ bits % 8 = 0

/-- **The types that contracts know.** Widths and sizes are in bounds at every depth. -/
inductive WellFormed : AbiType → Prop where
  | address : WellFormed .address
  | uint {bits : Nat} (h : IsIntegerWidth bits) : WellFormed (.uint bits)
  | int {bits : Nat} (h : IsIntegerWidth bits) : WellFormed (.int bits)
  | bool : WellFormed .bool
  | bytes : WellFormed .bytes
  | fixedBytes {size : Nat} (h : 1 ≤ size ∧ size ≤ 32) : WellFormed (.fixedBytes size)
  | string : WellFormed .string
  | array {element : AbiType} (h : WellFormed element) : WellFormed (.array element)
  | fixedArray {element : AbiType} {size : Nat} (hsize : 1 ≤ size ∧ size ≤ maxOffset)
      (h : WellFormed element) : WellFormed (.fixedArray element size)
  | tuple {fields : List AbiType} (h : ∀ field ∈ fields, WellFormed field) :
      WellFormed (.tuple fields)

/-- Whether some text names a type. -/
def IsNamed (type : AbiType) : Prop := ∃ name : String, parse name = .ok type

/-! ## Names -/

/-- The readers of names fail with a text, and never succeed by failing. -/
theorem notAType_ne_ok {α : Type} (cs : List Char) (a : α) :
    (notAType cs : Except AbiError α) ≠ .ok a :=
  fun h => nomatch h

/-- A numeral below a bound. -/
theorem lt_of_readUnsigned? {bound n : Nat} {cs : List Char}
    (h : Numeral.readUnsigned? bound cs = some n) : n < bound := by
  have := (Option.filter_eq_some_iff.mp h).2
  exact of_decide_eq_true this

theorem size_of_splitSuffix {cs inner : List Char} {n : Nat}
    (h : splitSuffix cs = .ok (inner, some n)) : 1 ≤ n ∧ n ≤ maxOffset := by
  unfold splitSuffix at h
  split at h
  · exact absurd h (notAType_ne_ok _ _)
  · split at h
    · exact absurd h (notAType_ne_ok _ _)
    · split at h
      · cases h
      · split at h
        · next hread =>
          split at h
          · next hpos =>
            cases h
            have := lt_of_readUnsigned? hread
            omega
          · exact absurd h (notAType_ne_ok _ _)
        · exact absurd h (notAType_ne_ok _ _)

theorem width_of_parseWidth {word digits : List Char} {step max n : Nat}
    (h : parseWidth word step max digits = .ok n) :
    n = max ∨ (step ≤ n ∧ n ≤ max ∧ n % step = 0) := by
  unfold parseWidth at h
  split at h
  · cases h; exact .inl rfl
  · split at h
    · exact absurd h (notAType_ne_ok _ _)
    · split at h
      · split at h
        · next hn => cases h; exact .inr hn
        · exact absurd h (notAType_ne_ok _ _)
      · exact absurd h (notAType_ne_ok _ _)

theorem isIntegerWidth_of_parseWidth {word digits : List Char} {n : Nat}
    (h : parseWidth word 8 256 digits = .ok n) : IsIntegerWidth n := by
  rcases width_of_parseWidth h with rfl | hn
  · exact ⟨by decide, by decide, by decide⟩
  · exact hn

theorem wellFormed_of_parseWord {word : List Char} {type : AbiType}
    (h : parseWord word = .ok type) : type.WellFormed := by
  unfold parseWord at h
  split at h
  · cases h; exact .address
  split at h
  · cases h; exact .bool
  split at h
  · cases h; exact .string
  split at h
  · cases h; exact .bytes
  split at h
  · obtain ⟨n, hn, rfl⟩ := Outcome.map_eq_ok_iff.mp h
    exact .uint (isIntegerWidth_of_parseWidth hn)
  · obtain ⟨n, hn, rfl⟩ := Outcome.map_eq_ok_iff.mp h
    exact .int (isIntegerWidth_of_parseWidth hn)
  · obtain ⟨n, hn, rfl⟩ := Outcome.map_eq_ok_iff.mp h
    have := width_of_parseWidth hn
    exact .fixedBytes (by omega)
  · exact absurd h (notAType_ne_ok _ _)

/-- An array of a suffix that was read is as well formed as its elements. -/
theorem WellFormed.withSuffix {cs inner : List Char} {size : Option Nat} {element : AbiType}
    (hsuffix : splitSuffix cs = .ok (inner, size)) (h : element.WellFormed) :
    (element.withSuffix size).WellFormed := by
  cases size with
  | none => exact .array h
  | some n => exact .fixedArray (size_of_splitSuffix hsuffix) h

/-- The induction follows the reader: a name is a suffix behind a shorter name, a tuple of shorter
    names, or a word. -/
theorem wellFormed_of_parseChars {cs : List Char} {type : AbiType}
    (h : parseChars cs = .ok type) : type.WellFormed := by
  fun_induction parseChars cs generalizing type with
  | case1 => cases h
  | case2 cs name hbracket inner size hsuffix =>
    rename_i ih
    obtain ⟨element, helement, rfl⟩ := Outcome.map_eq_ok_iff.mp h
    exact (ih helement).withSuffix hsuffix
  | case3 => exact wellFormed_of_parseWord h
  | case4 => cases h; exact .tuple (by simp)
  | case5 => cases h
  | case6 cs name hbracket body htuple hbody fields hfields =>
    rename_i ih
    obtain ⟨types, htypes, rfl⟩ := Outcome.map_eq_ok_iff.mp h
    have hread := Outcome.mapM_eq_ok_iff.mp htypes
    apply WellFormed.tuple
    intro type htype
    obtain ⟨i, hi, rfl⟩ := List.getElem_of_mem htype
    exact ih _ (List.Forall₂.get hread (hread.length_eq ▸ hi) hi)

/-- **What a name names is well formed.** -/
theorem wellFormed_of_isNamed {type : AbiType} (h : type.IsNamed) : type.WellFormed := by
  obtain ⟨name, hname⟩ := h
  exact wellFormed_of_parseChars hname

/-! ## Readers -/

/-- A name in front of an array suffix. -/
theorem parseChars_suffix {cs inner : List Char} {size : Option Nat} {element : AbiType}
    (hbracket : (Text.trim cs).getLast? = some ']')
    (hsuffix : splitSuffix (Text.trim cs) = .ok (inner, size))
    (h : parseChars inner = .ok element) : parseChars cs = .ok (element.withSuffix size) := by
  rw [parseChars, if_pos hbracket]
  split
  · next e he =>
    rw [hsuffix] at he
    cases he
  · next inner' size' hsplit =>
    rw [hsuffix] at hsplit
    cases hsplit
    rw [h]
    rfl

/-- A name without brackets and parentheses. -/
theorem parseChars_word {cs : List Char} (hbracket : (Text.trim cs).getLast? ≠ some ']')
    (htuple : tupleBody? (Text.trim cs) = none) : parseChars cs = parseWord (Text.trim cs) := by
  rw [parseChars, if_neg hbracket]
  split
  · rfl
  · next body hbody =>
    rw [htuple] at hbody
    cases hbody

/-- Names between the parentheses of a tuple. -/
theorem parseChars_tuple {cs body : List Char} {fields : List (List Char)} {types : List AbiType}
    (hbracket : (Text.trim cs).getLast? ≠ some ']')
    (htuple : tupleBody? (Text.trim cs) = some body) (hbody : Text.trim body ≠ [])
    (hfields : splitFields 0 body = some fields)
    (h : List.Forall₂ (fun field type => parseChars field = .ok type) fields types) :
    parseChars cs = .ok (.tuple types) := by
  rw [parseChars, if_neg hbracket]
  split
  · next hnone =>
    rw [htuple] at hnone
    cases hnone
  · next body' hsome =>
    rw [htuple] at hsome
    cases hsome
    rw [if_neg hbody]
    split
    · next hfail =>
      rw [tupleFields_eq_ok_iff.mpr hfields] at hfail
      cases hfail
    · next fields' hsome' =>
      rw [tupleFields_eq_ok_iff.mpr hfields] at hsome'
      cases hsome'
      -- the reader carries the membership proofs along that its termination needs
      rw [List.mapM_subtype fun _ _ => rfl, List.unattach_attach, Outcome.mapM_eq_ok_iff.mpr h]
      rfl

/-- A name with a suffix behind a tuple. -/
theorem isNamed_records : IsNamed (.array (.tuple [.string, .uint 8])) := by
  refine ⟨"(string,uint8)[]", @parseChars_suffix _ "(string,uint8)".toList none _ rfl rfl ?_⟩
  refine @parseChars_tuple _ "string,uint8".toList ["string".toList, "uint8".toList] _
    (by decide) rfl (by decide) rfl (.cons ?_ (.cons ?_ .nil))
  · exact parseChars_word (by decide) rfl
  · exact parseChars_word (by decide) rfl

end AbiType

end ChainClient
