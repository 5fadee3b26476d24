import ChainClient.Proofs.Abi.Inhabits
import ChainClient.Proofs.Abi.Spelling

/-!
# `ChainClient.Proofs.Abi.Notation` — names of types, written and read back

The writer of names never leaves the reader a wrong place to cut: brackets hold digits only, and a
name closes every parenthesis that it opens. So each type has a name of its own, also a type that
contracts do not know, and the name of a type that they do know is read back as the type.

## Contents
- **Characters.** `plain_word` and the lemmas behind it say which characters stand in a name.
  `form_induction` goes by the form of a name.
- **Cuts.** `splitBracket?_chars`, `tupleBody?_chars` and `splitFields_listChars`: the cuts are
  where the writer joined.
- **Reading.** `spells_chars`: a name is a text of the grammar, so `parse_text` reads it back.
- **Uniqueness.** `text_injective` and `listChars_injective`.
-/

namespace ChainClient

namespace AbiType

/-! ## Characters -/

/-- The types whose name is a word. -/
def IsElementary : AbiType → Prop
  | .array _ | .fixedArray _ _ | .tuple _ => False
  | _ => True

/-- The letters of a word. -/
def letters : AbiType → String
  | .address => "address"
  | .uint _ => "uint"
  | .int _ => "int"
  | .bool => "bool"
  | .bytes | .fixedBytes _ => "bytes"
  | .string => "string"
  | _ => ""

/-- The number behind the letters of a word. -/
def number? : AbiType → Option Nat
  | .uint bits | .int bits => some bits
  | .fixedBytes size => some size
  | _ => none

/-- The digits of a number that stands at the end of a word or between brackets, if one does. -/
def sizeChars : Option Nat → List Char
  | none => []
  | some size => Nat.toDigits 10 size

theorem chars_word {type : AbiType} (h : type.IsElementary) :
    type.chars = type.letters.toList ++ sizeChars type.number? := by
  cases type with
  | array => exact h.elim
  | fixedArray => exact h.elim
  | tuple => exact h.elim
  | _ => rfl

theorem mem_letters (type : AbiType) :
    ∀ c ∈ type.letters.toList, PlainChar c ∧ c.isDigit = false := by
  have hall : type.letters.toList.all (fun c => PlainChar c ∧ c.isDigit = false) = true := by
    cases type with
    | _ =>
      simp only [letters]
      rfl
  exact fun c hc => of_decide_eq_true (List.all_eq_true.mp hall c hc)

theorem isDigit_of_mem_sizeChars (size : Option Nat) : ∀ c ∈ sizeChars size, c.isDigit = true := by
  cases size with
  | none => exact fun c hc => (List.not_mem_nil hc).elim
  | some n => exact fun c hc => Nat.isDigit_of_mem_toDigits (by decide) (by decide) hc

theorem plain_sizeChars (size : Option Nat) : ∀ c ∈ sizeChars size, PlainChar c :=
  fun c hc => plainChar_of_isDigit (isDigit_of_mem_sizeChars size c hc)

/-- A word has plain characters only. -/
theorem plain_word {type : AbiType} (h : type.IsElementary) :
    ∀ c ∈ type.chars, PlainChar c := by
  rw [chars_word h]
  intro c hc
  rcases List.mem_append.mp hc with hletter | hdigit
  · exact (type.mem_letters c hletter).1
  · exact plain_sizeChars _ c hdigit

/-- The name of an array: the name of its elements, and brackets. -/
theorem chars_withSuffix (element : AbiType) (size : Option Nat) :
    (element.withSuffix size).chars = element.chars ++ '[' :: sizeChars size ++ [']'] := by
  cases size with
  | none => exact (List.append_assoc element.chars ['['] [']']).symm
  | some n => rfl

theorem chars_tuple (fields : List AbiType) :
    (AbiType.tuple fields).chars = '(' :: listChars fields ++ [')'] := rfl

/-- Induction on the form of a name: a word, an array of shorter names, or a tuple of them. -/
@[elab_as_elim]
theorem form_induction {motive : AbiType → Prop}
    (word : ∀ type, IsElementary type → motive type)
    (suffix : ∀ element size, motive element → motive (withSuffix element size))
    (tuple : ∀ fields, (∀ field ∈ fields, motive field) → motive (.tuple fields))
    (type : AbiType) : motive type := by
  induction type using AbiType.induction with
  | array element ih => exact suffix element none ih
  | fixedArray element size ih => exact suffix element (some size) ih
  | tuple fields ih => exact tuple fields ih
  | _ => exact word _ trivial

theorem chars_ne_nil (type : AbiType) : type.chars ≠ [] := by
  induction type using form_induction with
  | word type hword =>
    rw [chars_word hword]
    apply List.append_ne_nil_of_left_ne_nil
    cases type with
    | array => exact hword.elim
    | fixedArray => exact hword.elim
    | tuple => exact hword.elim
    | _ => simp only [letters]; decide
  | suffix element size _ =>
    rw [chars_withSuffix]
    exact List.append_ne_nil_of_right_ne_nil _ (List.cons_ne_nil _ _)
  | tuple fields _ => exact List.cons_ne_nil _ _

theorem listChars_eq_intercalate (types : List AbiType) :
    listChars types = [','].intercalate (types.map chars) := by
  induction types with
  | nil => rfl
  | cons type types ih =>
    cases types with
    | nil => exact List.intercalate_singleton.symm
    | cons other types =>
      have hne : (other :: types).map chars ≠ [] := List.cons_ne_nil _ _
      rw [List.map_cons, List.intercalate_cons_of_ne_nil hne, ← ih, List.append_assoc]
      rfl

/-! ## Cuts -/

theorem splitBracket?_chars (element : AbiType) (size : Option Nat) :
    splitBracket? (element.withSuffix size).chars = some (element.chars, sizeChars size) := by
  rw [chars_withSuffix]
  exact splitBracket?_suffix _ fun hmem => (plain_sizeChars size _ hmem).2.1 rfl

/-- **A name is passed over** at every depth: it closes what it opens. -/
theorem isPassed_chars (type : AbiType) (depth : Nat) : IsPassed depth type.chars := by
  induction type using form_induction generalizing depth with
  | word type hword => exact isPassed_plain (plain_word hword)
  | suffix element size ih =>
    rw [chars_withSuffix]
    exact (ih depth).brackets (plain_sizeChars size)
  | tuple fields ih =>
    rw [chars_tuple, listChars_eq_intercalate]
    refine (isPassed_intercalate fun text htext => ?_).parens
    obtain ⟨field, hfield, rfl⟩ := List.mem_map.mp htext
    exact ih field hfield (depth + 1)

/-- **The commas.** A list of names is cut into the names. -/
theorem splitFields_listChars {types : List AbiType} (h : types ≠ []) :
    splitFields 0 (listChars types) = some (types.map chars) := by
  rw [listChars_eq_intercalate]
  refine splitFields_intercalate (mt List.map_eq_nil_iff.mp h) fun text htext => ?_
  obtain ⟨type, _, rfl⟩ := List.mem_map.mp htext
  exact isPassed_chars type 0

/-- **The parentheses.** -/
theorem tupleBody?_chars (fields : List AbiType) :
    tupleBody? (AbiType.tuple fields).chars = some (listChars fields) :=
  tupleBody?_eq_some_iff.mpr rfl

theorem listChars_ne_nil {types : List AbiType} (h : types ≠ []) : listChars types ≠ [] := by
  obtain ⟨type, htype⟩ := List.exists_mem_of_ne_nil types h
  have hpart := isInfix_intercalate (List.mem_map_of_mem (f := chars) htype)
  rw [listChars_eq_intercalate]
  intro hnil
  rw [hnil, List.infix_nil] at hpart
  exact type.chars_ne_nil hpart

theorem getLast?_word {type : AbiType} (h : type.IsElementary) {c : Char}
    (hc : ¬ PlainChar c) : type.chars.getLast? ≠ some c :=
  fun hlast => hc (plain_word h c (List.mem_of_getLast? hlast))

theorem getLast?_withSuffix (element : AbiType) (size : Option Nat) :
    (element.withSuffix size).chars.getLast? = some ']' := by
  rw [chars_withSuffix, List.getLast?_concat]

theorem getLast?_tuple (fields : List AbiType) :
    (AbiType.tuple fields).chars.getLast? = some ')' := by
  rw [chars_tuple, List.getLast?_concat]

/-! ## Reading -/

theorem isWidth_toDigits {step max n : Nat} (hstep : 0 < step)
    (hn : step ≤ n ∧ n ≤ max ∧ n % step = 0) : IsWidth step max (Nat.toDigits 10 n) n :=
  .inr ⟨Numeral.isDecimal_toDigits n, Numeral.head?_toDigits (by omega), hn⟩

/-- The name of a type that contracts know is a text of the grammar. -/
theorem spells_chars {type : AbiType} (hwf : type.WellFormed) : Spells type.chars type := by
  induction hwf with
  | address => exact .word .address
  | uint h => exact .word (.uint (isWidth_toDigits (by decide) h))
  | int h => exact .word (.int (isWidth_toDigits (by decide) h))
  | bool => exact .word .bool
  | bytes => exact .word .bytes
  | fixedBytes h =>
    have hwidth := isWidth_toDigits (by decide) ⟨h.1, h.2, Nat.mod_one _⟩
    exact .word (.fixedBytes Nat.toDigits_ne_nil hwidth)
  | string => exact .word .string
  | @array element _ ih =>
    have hspells := @Spells.suffix _ [] _ none rfl ih
    exact (chars_withSuffix element none).symm ▸ hspells
  | @fixedArray element size hsize _ ih =>
    exact @Spells.suffix _ _ _ (some size) ⟨Numeral.isDecimal_toDigits size, hsize⟩ ih
  | @tuple fields _ ih =>
    have hspells := @Spells.tuple (fields.map fun field => (field.chars, field))
        fun pair hpair => by
      obtain ⟨field, hfield, rfl⟩ := List.mem_map.mp hpair
      exact ih field hfield
    rw [List.map_map, List.map_map] at hspells
    rw [chars_tuple, listChars_eq_intercalate]
    have hsame : fields.map (Prod.snd ∘ fun field => (field.chars, field)) = fields :=
      List.map_id fields
    rw [hsame] at hspells
    exact hspells

/-- **Names are read back**, for the types that contracts know. -/
theorem parse_text {type : AbiType} (hwf : type.WellFormed) : parse type.text = .ok type := by
  rw [parse, text, String.toList_ofList, parseChars_of_spells (spells_chars hwf)]

/-- The types that contracts know are those with a name. -/
theorem isNamed_iff {type : AbiType} : type.IsNamed ↔ type.WellFormed :=
  ⟨wellFormed_of_isNamed, fun hwf => ⟨type.text, parse_text hwf⟩⟩

/-! ## Uniqueness -/

theorem toDigits_injective : Function.Injective (Nat.toDigits 10) := by
  intro m n h
  rw [← Nat.ofDigitChars_ten_toDigits (n := m), h, Nat.ofDigitChars_ten_toDigits]

theorem sizeChars_injective : Function.Injective sizeChars := by
  intro s t h
  cases s with
  | none =>
    cases t with
    | none => rfl
    | some n => exact absurd h.symm Nat.toDigits_ne_nil
  | some m =>
    cases t with
    | none => exact absurd h Nat.toDigits_ne_nil
    | some n => exact congrArg some (toDigits_injective h)

/-- The letters of a word end where its digits start. -/
theorem takeWhile_word {front digits : List Char} (hfront : ∀ c ∈ front, c.isDigit = false)
    (hdigits : ∀ c ∈ digits, c.isDigit = true) :
    (front ++ digits).takeWhile (!·.isDigit) = front := by
  rw [List.takeWhile_append_of_pos (by simpa using hfront)]
  cases digits with
  | nil => simp
  | cons d digits =>
    rw [List.takeWhile_cons_of_neg (by simp [hdigits d List.mem_cons_self]), List.append_nil]

/-- The elementary type with given letters and number. -/
def ofLetters? : String → Option Nat → Option AbiType
  | "address", none => some .address
  | "uint", some bits => some (.uint bits)
  | "int", some bits => some (.int bits)
  | "bool", none => some .bool
  | "bytes", none => some .bytes
  | "bytes", some size => some (.fixedBytes size)
  | "string", none => some .string
  | _, _ => none

theorem ofLetters?_letters {type : AbiType} (h : type.IsElementary) :
    ofLetters? type.letters type.number? = some type := by
  cases type with
  | array => exact h.elim
  | fixedArray => exact h.elim
  | tuple => exact h.elim
  | _ => rfl

/-- Words with different letters differ, and so do words with different numbers behind them. -/
theorem word_injective {type other : AbiType} (h : type.IsElementary) (hother : other.IsElementary)
    (heq : type.chars = other.chars) : type = other := by
  rw [chars_word h, chars_word hother] at heq
  -- letters are no digits, so the names have the same letters, and then the same numbers
  have hletters := congrArg (List.takeWhile (!·.isDigit)) heq
  have hfront : ∀ t : AbiType, ∀ c ∈ t.letters.toList, c.isDigit = false := fun t c hc =>
    (t.mem_letters c hc).2
  rw [takeWhile_word (hfront type) (isDigit_of_mem_sizeChars _),
    takeWhile_word (hfront other) (isDigit_of_mem_sizeChars _)] at hletters
  rw [hletters] at heq
  have hnumber := sizeChars_injective (List.append_cancel_left heq)
  have htype := ofLetters?_letters h
  rw [String.toList_inj.mp hletters, hnumber, ofLetters?_letters hother] at htype
  exact (Option.some.inj htype).symm

/-- Whether no other type has the name of a type. -/
def HasOwnName (type : AbiType) : Prop :=
  ∀ other : AbiType, type.chars = other.chars → type = other

theorem eq_of_map_chars {types others : List AbiType} (h : ∀ type ∈ types, HasOwnName type)
    (heq : types.map chars = others.map chars) : types = others := by
  induction types generalizing others with
  | nil => exact (List.map_eq_nil_iff.mp heq.symm).symm
  | cons type types ih =>
    cases others with
    | nil => cases heq
    | cons other others =>
      rw [List.map_cons, List.map_cons, List.cons.injEq] at heq
      rw [h type List.mem_cons_self other heq.1,
        ih (fun t ht => h t (List.mem_cons_of_mem type ht)) heq.2]

/-- Lists of names are equal when the names are: they are cut at the same commas. -/
theorem eq_of_listChars {types others : List AbiType} (h : ∀ type ∈ types, HasOwnName type)
    (heq : listChars types = listChars others) : types = others := by
  by_cases hnil : types = []
  · subst hnil
    by_contra hne
    exact listChars_ne_nil (Ne.symm hne) heq.symm
  · have hother : others ≠ [] := by
      rintro rfl
      exact listChars_ne_nil hnil heq
    have hsplit := splitFields_listChars hnil
    rw [heq, splitFields_listChars hother] at hsplit
    exact eq_of_map_chars h (Option.some.inj hsplit).symm

/-- A name ends as its form does, so types of different forms have different names. -/
theorem hasOwnName (type : AbiType) : HasOwnName type := by
  intro other heq
  -- the last character tells the forms apart: a bracket, a parenthesis, or neither
  have hlast := congrArg List.getLast? heq
  induction type using form_induction generalizing other with
  | word type hword =>
    induction other using form_induction with
    | word other hother => exact word_injective hword hother heq
    | suffix element size _ =>
      rw [getLast?_withSuffix] at hlast
      exact absurd hlast (getLast?_word hword (by decide))
    | tuple fields _ =>
      rw [getLast?_tuple] at hlast
      exact absurd hlast (getLast?_word hword (by decide))
  | suffix element size ih =>
    rw [getLast?_withSuffix] at hlast
    induction other using form_induction with
    | word other hother => exact absurd hlast.symm (getLast?_word hother (by decide))
    | suffix element' size' _ =>
      have hsplit := splitBracket?_chars element size
      rw [heq, splitBracket?_chars, Option.some.injEq, Prod.mk.injEq] at hsplit
      rw [ih element' hsplit.1.symm (congrArg List.getLast? hsplit.1.symm),
        sizeChars_injective hsplit.2]
    | tuple fields _ =>
      rw [getLast?_tuple] at hlast
      exact absurd hlast (by decide)
  | tuple fields ih =>
    rw [getLast?_tuple] at hlast
    induction other using form_induction with
    | word other hother => exact absurd hlast.symm (getLast?_word hother (by decide))
    | suffix element size _ =>
      rw [getLast?_withSuffix] at hlast
      exact absurd hlast (by decide)
    | tuple fields' _ =>
      have hbody := tupleBody?_chars fields
      rw [heq, tupleBody?_chars] at hbody
      have hown : ∀ field ∈ fields, HasOwnName field := fun field hfield other hname =>
        ih field hfield other hname (congrArg List.getLast? hname)
      rw [eq_of_listChars hown (Option.some.inj hbody).symm]

/-- **No two types share a name**, whatever their widths and sizes. -/
theorem text_injective : Function.Injective text := by
  intro type other h
  exact type.hasOwnName other (String.ofList_injective h)

theorem listChars_injective : Function.Injective listChars :=
  fun _ _ h => eq_of_listChars (fun type _ => type.hasOwnName) h

end AbiType

end ChainClient
