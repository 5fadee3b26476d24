import ChainClient.Proofs.Abi.Notation
import Mathlib.Data.List.Chain

/-!
# `ChainClient.Proofs.Abi.Abbreviation` — how far a name may stray from the canonical one

A name without blanks is the canonical name of its type, or that name with a few of its `256` left
out, unless a number in it is written loosely. The reader of widths turns a leading zero down, and
nothing else: a plus sign passes everywhere, and zeros pass in front of the length of an array.

## Contents
- **Abbreviations.** `Abbreviates` leaves out the width of some `uint256` and `int256`.
- **Strict texts.** `IsStrict` texts have no plus sign, and no zero behind a bracket. Names are
  strict, and so is what abbreviates them.
- **Names.** `parse_abbreviates_iff`: of the texts that the reader accepts, the strict ones are
  those that abbreviate a name.
-/

namespace ChainClient

namespace AbiType

/-! ## Abbreviations -/

/-- **Abbreviations.** The first text is the second one without some of its widths: `int` stands for
    `int256`, also at the end of `uint` and `uint256`. -/
inductive Abbreviates : List Char → List Char → Prop where
  | nil : Abbreviates [] []
  | keep (c : Char) {short long : List Char} (h : Abbreviates short long) :
      Abbreviates (c :: short) (c :: long)
  | cut {short long : List Char} (h : Abbreviates short long) :
      Abbreviates ("int".toList ++ short) ("int256".toList ++ long)

theorem Abbreviates.refl (cs : List Char) : Abbreviates cs cs := by
  induction cs with
  | nil => exact .nil
  | cons c cs ih => exact .keep c ih

theorem Abbreviates.append {short long short' long' : List Char} (h : Abbreviates short long)
    (h' : Abbreviates short' long') : Abbreviates (short ++ short') (long ++ long') := by
  induction h with
  | nil => exact h'
  | keep c _ ih => exact .keep c ih
  | cut _ ih => exact .cut ih

theorem Abbreviates.intercalate {fields : List (List Char × AbiType)}
    (h : ∀ field ∈ fields, Abbreviates field.1 field.2.chars) :
    Abbreviates ([','].intercalate (fields.map Prod.fst)) (listChars (fields.map Prod.snd)) := by
  induction fields with
  | nil => exact .nil
  | cons field fields ih =>
    have hfield := h field List.mem_cons_self
    have hrest := ih fun f hf => h f (List.mem_cons_of_mem field hf)
    cases fields with
    | nil =>
      rw [List.map_singleton, List.intercalate_singleton]
      exact hfield
    | cons other fields =>
      rw [List.map_cons, List.map_cons, List.intercalate_cons_cons, List.append_assoc]
      exact hfield.append (.keep ',' hrest)

theorem Abbreviates.head?_eq {short long : List Char} (h : Abbreviates short long) :
    short.head? = long.head? := by
  cases h <;> rfl

/-! ## Strict texts -/

/-- **Strict texts.** No number has a sign in front, and no length starts with a zero. -/
def IsStrict (cs : List Char) : Prop :=
  '+' ∉ cs ∧ cs.IsChain fun c d => c = '[' → d ≠ '0'

instance (cs : List Char) : Decidable (IsStrict cs) := inferInstanceAs (Decidable (_ ∧ _))

theorem IsStrict.part {cs part : List Char} (h : IsStrict cs) (hpart : part <:+: cs) :
    IsStrict part :=
  ⟨fun hmem => h.1 (hpart.subset hmem), List.IsChain.infix h.2 hpart⟩

theorem isStrict_append {cs ds : List Char} (hcs : IsStrict cs) (hds : IsStrict ds)
    (hmeet : cs.getLast? ≠ some '[' ∨ ds.head? ≠ some '0') : IsStrict (cs ++ ds) := by
  refine ⟨fun hmem => (List.mem_append.mp hmem).elim hcs.1 hds.1, ?_⟩
  refine List.isChain_append.mpr ⟨hcs.2, hds.2, ?_⟩
  rintro c hc d hd rfl rfl
  exact hmeet.elim (fun h => h hc) fun h => h hd

/-- Text without brackets is strict if it has no sign. -/
theorem isStrict_of_forall {cs : List Char} (h : ∀ c ∈ cs, c ≠ '+' ∧ c ≠ '[') : IsStrict cs := by
  refine ⟨fun hmem => (h _ hmem).1 rfl, ?_⟩
  induction cs with
  | nil => exact .nil
  | cons c cs ih =>
    refine List.isChain_cons.mpr ⟨fun d _ hc => absurd hc (h c List.mem_cons_self).2, ?_⟩
    exact ih fun d hd => h d (List.mem_cons_of_mem c hd)

theorem isStrict_digits (size : Option Nat) : IsStrict (sizeChars size) := by
  refine isStrict_of_forall fun c hc => ?_
  have hdigit := isDigit_of_mem_sizeChars size c hc
  constructor <;> rintro rfl <;> exact absurd hdigit (by decide)

theorem isStrict_intercalate {texts : List (List Char)} (h : ∀ text ∈ texts, IsStrict text) :
    IsStrict ([','].intercalate texts) := by
  refine intercalate_induction (by decide) (fun text rest htext hrest => ?_) h
  have hbehind : IsStrict (',' :: rest) :=
    @isStrict_append [','] rest (by decide) hrest (.inl (by decide))
  exact isStrict_append htext hbehind (.inr fun h => absurd (Option.some.inj h) (by decide))

/-- **Names are strict.** -/
theorem isStrict_chars {type : AbiType} (hwf : type.WellFormed) : IsStrict type.chars := by
  have hnumbered {word : String} (hword : IsStrict word.toList)
      (hlast : word.toList.getLast? ≠ some '[') (n : Nat) :
      IsStrict (word.toList ++ Nat.toDigits 10 n) :=
    isStrict_append hword (isStrict_digits (some n)) (.inl hlast)
  have hsuffix {element : AbiType} (h : IsStrict element.chars) (size : Option Nat)
      (hsize : (sizeChars size).head? ≠ some '0') : IsStrict (element.withSuffix size).chars := by
    rw [chars_withSuffix]
    have hopen : IsStrict ('[' :: sizeChars size) :=
      @isStrict_append ['['] _ (by decide) (isStrict_digits size) (.inr hsize)
    refine isStrict_append (isStrict_append h hopen (.inr ?_)) (by decide) (.inr ?_)
    · exact fun hhead => absurd (Option.some.inj hhead) (by decide)
    · decide
  induction hwf with
  | address => decide
  | bool => decide
  | bytes => decide
  | string => decide
  | uint => exact hnumbered (by decide) (by decide) _
  | int => exact hnumbered (by decide) (by decide) _
  | fixedBytes => exact hnumbered (by decide) (by decide) _
  | array _ ih => exact hsuffix ih none (by decide)
  | fixedArray hsize _ ih => exact hsuffix ih (some _) (Numeral.head?_toDigits hsize.1)
  | tuple _ ih =>
    rw [chars_tuple, listChars_eq_intercalate]
    have hfields := isStrict_intercalate fun text htext => by
      obtain ⟨field, hfield, rfl⟩ := List.mem_map.mp htext
      exact ih field hfield
    have hopen := @isStrict_append ['('] _ (by decide) hfields (.inl (by decide))
    exact isStrict_append hopen (by decide) (.inr (by decide))

/-- What abbreviates a strict text is strict: nothing is left out behind a bracket. -/
theorem Abbreviates.isStrict {short long : List Char} (h : Abbreviates short long)
    (hlong : IsStrict long) : IsStrict short := by
  induction h with
  | nil => exact hlong
  | keep c h ih =>
    -- behind a character that is kept, the two texts go on with the same one
    have hrest := ih (hlong.part (List.suffix_cons c _).isInfix)
    refine ⟨?_, List.isChain_cons.mpr ⟨fun d hd => ?_, hrest.2⟩⟩
    · rintro (- | ⟨_, hmem⟩)
      · exact hlong.1 List.mem_cons_self
      · exact hrest.1 hmem
    · exact (List.isChain_cons.mp hlong.2).1 d (h.head?_eq ▸ hd)
  | cut h ih =>
    have hrest := ih (hlong.part (List.suffix_append _ _).isInfix)
    exact isStrict_append (by decide) hrest (.inl (by decide))

/-- A numeral without a sign and zeros in front is the one that the standard writer gives. -/
theorem eq_toDigits_of_isDecimal {cs : List Char} {n : Nat} (h : Numeral.IsDecimal cs n)
    (hsign : '+' ∉ cs) (hzero : cs.head? ≠ some '0') : cs = Nat.toDigits 10 n := by
  obtain ⟨sign, _, hsigned, rfl, zeros, rfl⟩ := h
  rcases hsigned with rfl | rfl
  · cases zeros with
    | zero => rfl
    | succ zeros => exact absurd rfl hzero
  · exact absurd List.mem_cons_self hsign

/-! ## Names -/

theorem SpellsWord.abbreviates {cs : List Char} {type : AbiType} (h : SpellsWord cs type)
    (hsign : '+' ∉ cs) : Abbreviates cs type.chars := by
  have hnumbered {word : String} {cs : List Char} {n : Nat} (hdecimal : Numeral.IsDecimal cs n)
      (hzero : cs.head? ≠ some '0') (hsign : '+' ∉ word.toList ++ cs) :
      Abbreviates (word.toList ++ cs) (word.toList ++ Nat.toDigits 10 n) := by
    rw [eq_toDigits_of_isDecimal hdecimal (fun h => hsign (List.mem_append_right _ h)) hzero]
    exact .refl _
  cases h with
  | address => exact .refl _
  | bool => exact .refl _
  | string => exact .refl _
  | bytes => exact .refl _
  | uint hwidth =>
    rcases hwidth with ⟨rfl, rfl⟩ | ⟨hdecimal, hzero, _⟩
    · exact .keep 'u' (.cut .nil)
    · exact hnumbered hdecimal hzero hsign
  | int hwidth =>
    rcases hwidth with ⟨rfl, rfl⟩ | ⟨hdecimal, hzero, _⟩
    · exact .cut .nil
    · exact hnumbered hdecimal hzero hsign
  | fixedBytes hne hwidth =>
    rcases hwidth with ⟨rfl, _⟩ | ⟨hdecimal, hzero, _⟩
    · exact absurd rfl hne
    · exact hnumbered hdecimal hzero hsign

/-- **Strict texts of the grammar** abbreviate the name of their type. -/
theorem Spells.abbreviates {cs : List Char} {type : AbiType} (h : Spells cs type)
    (hstrict : IsStrict cs) : Abbreviates cs type.chars := by
  induction h with
  | word h => exact h.abbreviates hstrict.1
  | @suffix cs between element size hsize _ ih =>
    rw [List.append_assoc] at hstrict
    have hfront := ih (hstrict.part (List.prefix_append _ _).isInfix)
    have hbehind := hstrict.part (List.suffix_append _ _).isInfix
    have hbetween : between = sizeChars size := by
      cases size with
      | none => exact hsize
      | some n =>
        -- the bracket in front is what keeps zeros out
        refine eq_toDigits_of_isDecimal hsize.1 (fun h => hbehind.1 ?_) fun hzero => ?_
        · exact List.mem_cons_of_mem _ (List.mem_append_left _ h)
        · have hhead : (between ++ [']']).head? = some '0' :=
            (List.head?_append_of_ne_nil _ hsize.1.ne_nil).trans hzero
          exact (List.isChain_cons.mp hbehind.2).1 '0' hhead rfl rfl
    rw [chars_withSuffix, List.append_assoc, List.append_assoc, hbetween]
    exact hfront.append (.refl _)
  | @tuple fields _ ih =>
    have hfields : Abbreviates ([','].intercalate (fields.map Prod.fst)) _ :=
      Abbreviates.intercalate fun field hfield => by
        have hpart := isInfix_intercalate (List.mem_map_of_mem (f := Prod.fst) hfield)
        refine ih field hfield (hstrict.part (hpart.trans ?_))
        exact ⟨['('], [')'], rfl⟩
    exact .keep '(' (hfields.append (.refl [')']))

/-- **What the reader of names accepts**, of the texts without blanks: the texts of the grammar. An
    accepted text abbreviates the name of its type exactly when it is strict, and what is not
    accepted is reported as no type. -/
theorem parse_abbreviates_iff (name : String)
    (hblank : ∀ c ∈ name.toList, Text.isBlank c = false) :
    ((∃ type, parse name = .ok type) ∨ ∃ text, parse name = .error (.typeParse text)) ∧
      ∀ type, (parse name = .ok type ↔ Spells name.toList type) ∧
        (parse name = .ok type →
          (Abbreviates name.toList type.text.toList ↔ IsStrict name.toList)) := by
  refine ⟨?_, fun type => ⟨parseChars_eq_ok_iff hblank, fun h => ?_⟩⟩
  · cases h : parse name with
    | ok type => exact .inl ⟨type, rfl⟩
    | error e =>
      obtain ⟨text, rfl⟩ := isTypeError_of_parseChars h
      exact .inr ⟨text, rfl⟩
  · rw [text, String.toList_ofList]
    constructor
    · exact fun hshort => hshort.isStrict (isStrict_chars (wellFormed_of_parseChars h))
    · exact ((parseChars_eq_ok_iff hblank).mp h).abbreviates

/-- Three pairs of numbers, the first ones at their greatest width. -/
theorem parse_abbreviates_iff_of_pairs :
    (∀ c ∈ "(uint,int8)[3]".toList, Text.isBlank c = false) ∧
      parse "(uint,int8)[3]" = .ok (.fixedArray (.tuple [.uint 256, .int 8]) 3) ∧
      Abbreviates "(uint,int8)[3]".toList "(uint256,int8)[3]".toList := by
  have hwidth : IsWidth 8 256 ['8'] 8 := isWidth_toDigits (n := 8) (by decide) (by decide)
  have hlength : IsLength ['3'] (some 3) := ⟨Numeral.isDecimal_toDigits 3, by decide, by decide⟩
  have hpair := @Spells.tuple [("uint".toList, .uint 256), ("int8".toList, .int 8)]
      fun field h => by
    rcases List.mem_cons.mp h with rfl | h
    · exact .word (.uint (.inl ⟨rfl, rfl⟩))
    · rw [List.mem_singleton.mp h]
      exact .word (.int hwidth)
  have htext : Spells "(uint,int8)[3]".toList (.fixedArray (.tuple [.uint 256, .int 8]) 3) :=
    .suffix hlength hpair
  obtain ⟨-, haccept⟩ := parse_abbreviates_iff "(uint,int8)[3]" htext.isBlank_eq_false
  obtain ⟨hspells, hstrict⟩ := haccept (.fixedArray (.tuple [.uint 256, .int 8]) 3)
  have hread := hspells.mpr htext
  exact ⟨htext.isBlank_eq_false, hread, (hstrict hread).mpr (by decide)⟩

/-- A sign passes: `uint+8` is read, and it does not abbreviate `uint8`. -/
theorem parse_sign :
    parse "uint+8" = .ok (.uint 8) ∧
      ¬ Abbreviates "uint+8".toList (AbiType.uint 8).text.toList := by
  have hdecimal : Numeral.IsDecimal ['+', '8'] 8 :=
    ⟨['+'], ['8'], .inr rfl, rfl, 0, rfl⟩
  have hspells : Spells "uint+8".toList (.uint 8) :=
    .word (@SpellsWord.uint ['+', '8'] 8 (.inr ⟨hdecimal, by decide, by decide⟩))
  refine ⟨parseChars_of_spells hspells, fun h => ?_⟩
  exact absurd (h.isStrict (by decide)) (by decide)

end AbiType

end ChainClient
