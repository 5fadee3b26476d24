import ChainClient.Proofs.Abi.Notation
import Mathlib.Data.List.DropRight

/-!
# `ChainClient.Proofs.Abi.Suffix` — what may stand behind the name of a tuple

A tuple is named in two ways: by the word `tuple`, where its fields are given apart, and by the
names of its fields in parentheses. Behind either name there may be suffixes and blanks, and two
different readers take them off. Here one relation says which texts these are and which types they
make, and both readers are shown to go by it. So they also refuse the same texts.

## Contents
- **Blanks.** `trim_trim`, and `exists_trim`: what is trimmed is blank.
- **Fronts.** `IsFront` are texts that trimming and cutting leave whole, whatever stands behind
  them.
- **Suffixes.** `Suffixed` is the relation, `ReadsSuffixes` says of a reader that it goes by it, and
  `ReadsSuffixes.eq_ok_iff` that it then does.
- **Words.** `parseWithChars_tuple_iff` is about the word `tuple`, which stands for nothing where no
  fields are given apart (`parseChars_ne_ok_of_head`).
- **Parentheses.** `parseChars_parens_iff` is about names of fields in parentheses.
-/

namespace ChainClient

namespace AbiType

/-! ## Blanks -/

/-- What trimming takes off is blank. -/
theorem exists_trim (cs : List Char) : ∃ front behind, cs = front ++ Text.trim cs ++ behind ∧
    (∀ c ∈ front, Text.isBlank c = true) ∧ ∀ c ∈ behind, Text.isBlank c = true := by
  refine ⟨cs.takeWhile Text.isBlank, (cs.dropWhile Text.isBlank).rtakeWhile Text.isBlank, ?_,
    fun c hc => List.mem_takeWhile_imp hc, fun c hc => List.mem_rtakeWhile_imp hc⟩
  have hbehind : Text.trim cs ++ (cs.dropWhile Text.isBlank).rtakeWhile Text.isBlank =
      cs.dropWhile Text.isBlank := List.rdropWhile_append_rtakeWhile ..
  rw [List.append_assoc, hbehind, List.takeWhile_append_dropWhile]

/-- Nothing is taken off a text up to its last character that is not blank. -/
theorem rdropWhile_append {front : List Char} {c : Char} (hlast : front.getLast? = some c)
    (hc : Text.isBlank c = false) (cs : List Char) :
    (front ++ cs).rdropWhile Text.isBlank = front ++ cs.rdropWhile Text.isBlank := by
  induction cs using List.reverseRecOn with
  | nil =>
    obtain ⟨before, rfl⟩ := List.getLast?_eq_some_iff.mp hlast
    rw [List.append_nil, List.rdropWhile_nil, List.append_nil,
      List.rdropWhile_concat_neg _ _ _ (Bool.not_eq_true _ ▸ hc)]
  | append_singleton cs d ih =>
    rw [← List.append_assoc]
    by_cases hd : Text.isBlank d = true
    · rw [List.rdropWhile_concat_pos _ _ _ hd, List.rdropWhile_concat_pos _ _ _ hd, ih]
    · rw [List.rdropWhile_concat_neg _ _ _ hd, List.rdropWhile_concat_neg _ _ _ hd,
        List.append_assoc]

/-- Nothing is taken off in front of a character that is not blank. -/
theorem trim_cons {c : Char} (hc : Text.isBlank c = false) (cs : List Char) :
    Text.trim (c :: cs) = c :: cs.rdropWhile Text.isBlank := by
  rw [Text.trim, List.dropWhile_cons_of_neg (Bool.not_eq_true _ ▸ hc)]
  exact @rdropWhile_append [c] c rfl hc cs

theorem trim_trim (cs : List Char) : Text.trim (Text.trim cs) = Text.trim cs := by
  cases hdrop : cs.dropWhile Text.isBlank with
  | nil =>
    rw [Text.trim, Text.trim, hdrop]
    rfl
  | cons c rest =>
    have hfirst := List.head?_dropWhile_not Text.isBlank cs
    rw [hdrop] at hfirst
    have hc : Text.isBlank c = false := by simpa using hfirst
    have htrim : Text.trim cs = c :: rest.rdropWhile Text.isBlank := by
      rw [← trim_cons hc, ← hdrop, Text.trim, Text.trim, List.dropWhile_idempotent]
    rw [htrim, trim_cons hc, List.rdropWhile_idempotent]

/-- The reader of names sees the trimmed text only. -/
theorem parseChars_trim (cs : List Char) : parseChars (Text.trim cs) = parseChars cs := by
  conv_lhs => rw [parseChars, trim_trim]
  conv_rhs => rw [parseChars]

/-- Blanks around a text do not change where it is cut. -/
theorem isPassed_of_trim {depth : Nat} {cs : List Char} (h : IsPassed depth (Text.trim cs)) :
    IsPassed depth cs := by
  obtain ⟨front, behind, hcs, hfront, hbehind⟩ := exists_trim cs
  have hblank : ∀ blanks : List Char, (∀ c ∈ blanks, Text.isBlank c = true) →
      IsPassed depth blanks := by
    refine fun blanks hblanks => isPassed_of_forall fun c hc => ⟨?_, ?_, ?_⟩ <;>
      · rintro rfl
        exact absurd (hblanks _ hc) (by decide)
  rw [hcs]
  exact ((hblank front hfront).append h).append (hblank behind hbehind)

/-- **A text that names a type is passed over**, blanks and all. -/
theorem isPassed_of_parseChars {cs : List Char} {type : AbiType} (h : parseChars cs = .ok type)
    (depth : Nat) : IsPassed depth cs := by
  fun_induction parseChars cs generalizing type depth with
  | case1 => cases h
  | case2 cs name hbracket inner size hsuffix =>
    -- a suffix
    rename_i ih
    obtain ⟨element, helement, rfl⟩ := Outcome.map_eq_ok_iff.mp h
    obtain ⟨_, between, hname, hlength⟩ := (splitSuffix_eq_ok_iff hbracket).mp hsuffix
    apply isPassed_of_trim
    show IsPassed depth name
    rw [hname]
    exact (ih helement depth).brackets hlength.plain
  | case3 => exact isPassed_of_trim (isPassed_plain (parseWord_eq_ok_iff.mp h).plain)
  | case4 cs name hbracket body htuple =>
    -- the tuple of nothing
    rename_i htrim
    apply isPassed_of_trim
    show IsPassed depth name
    rw [tupleBody?_eq_some_iff.mp htuple]
    refine (isPassed_of_trim ?_).parens
    rw [htrim]
    exact isPassed_nil _
  | case5 => cases h
  | case6 cs name hbracket body htuple hbody fields hfields =>
    -- a tuple
    rename_i ih
    obtain ⟨types, htypes, rfl⟩ := Outcome.map_eq_ok_iff.mp h
    rw [List.mapM_subtype fun _ _ => rfl, List.unattach_attach] at htypes
    apply isPassed_of_trim
    show IsPassed depth name
    rw [tupleBody?_eq_some_iff.mp htuple,
      ← (intercalate_of_splitFields (tupleFields_eq_ok_iff.mp hfields)).2]
    refine (isPassed_intercalate fun text htext => ?_).parens
    obtain ⟨i, hi, rfl⟩ := List.getElem_of_mem htext
    have hread := Outcome.mapM_eq_ok_iff.mp htypes
    exact ih ⟨_, htext⟩ (List.Forall₂.get hread hi (hread.length_eq ▸ hi)) (depth + 1)

/-! ## Fronts -/

/-- Texts that stay whole in front of suffixes: nothing is trimmed off them, and no bracket in them
    opens what could be the length of an array. -/
structure IsFront (front : List Char) : Prop where
  head : ∃ c rest, front = c :: rest ∧ Text.isBlank c = false
  last : ∃ c, front.getLast? = some c ∧ Text.isBlank c = false
  uncut : ∀ inner between, front = inner ++ '[' :: between → ∃ c ∈ between, ¬ PlainChar c

namespace IsFront

variable {front : List Char}

theorem ne_nil (h : IsFront front) : front ≠ [] := by
  obtain ⟨c, rest, rfl, -⟩ := h.head
  exact List.cons_ne_nil c rest

theorem trim_append (h : IsFront front) (cs : List Char) :
    Text.trim (front ++ cs) = front ++ cs.rdropWhile Text.isBlank := by
  obtain ⟨d, hlast, hd⟩ := h.last
  rw [← rdropWhile_append hlast hd]
  obtain ⟨c, rest, rfl, hc⟩ := h.head
  rw [Text.trim, List.cons_append, List.dropWhile_cons_of_neg (Bool.not_eq_true _ ▸ hc)]
  rfl

/-- A suffix is cut off behind a front. -/
theorem splitSuffix_append (h : IsFront front) {behind inner : List Char} {size : Option Nat}
    (hlast : behind.getLast? = some ']') :
    splitSuffix (front ++ behind) = .ok (inner, size) ↔ ∃ rest between, inner = front ++ rest ∧
      behind = rest ++ '[' :: between ++ [']'] ∧ IsLength between size := by
  have hwhole : (front ++ behind).getLast? = some ']' := by
    rw [List.getLast?_append, hlast]
    rfl
  rw [splitSuffix_eq_ok_iff hwhole]
  constructor
  · rintro ⟨-, between, hcut, hlength⟩
    obtain ⟨body, rfl⟩ := List.getLast?_eq_some_iff.mp hlast
    rw [← List.append_assoc] at hcut
    have hbody := List.append_cancel_right hcut
    rcases List.append_eq_append_iff.mp hbody with ⟨rest, hinner, hrest⟩ | ⟨rest, hfront, hrest⟩
    · exact ⟨rest, between, hinner, by rw [hrest], hlength⟩
    · cases rest with
      | nil =>
        refine ⟨[], between, ?_, ?_, hlength⟩
        · rw [hfront, List.append_nil, List.append_nil]
        · rw [List.nil_append] at hrest
          rw [← hrest]
          rfl
      | cons c rest =>
        -- the bracket would stand in the front
        obtain ⟨rfl, hbetween⟩ := List.cons.inj hrest
        obtain ⟨d, hd, hplain⟩ := h.uncut inner rest hfront
        refine absurd (hlength.plain d ?_) hplain
        rw [hbetween]
        exact List.mem_append_left body hd
  · rintro ⟨rest, between, rfl, rfl, hlength⟩
    refine ⟨List.append_ne_nil_of_left_ne_nil h.ne_nil rest, between, ?_, hlength⟩
    simp only [List.append_assoc]

/-- A word is a front. -/
theorem of_plain {word : List Char} (hne : word ≠ [])
    (hplain : word.all (fun c => PlainChar c) = true) : IsFront word := by
  have h : ∀ c ∈ word, PlainChar c := fun c hc =>
    of_decide_eq_true (List.all_eq_true.mp hplain c hc)
  refine ⟨?_, ⟨word.getLast hne, List.getLast?_eq_some_getLast hne, ?_⟩, ?_⟩
  · obtain ⟨c, rest, rfl⟩ := List.exists_cons_of_ne_nil hne
    exact ⟨c, rest, rfl, (h c List.mem_cons_self).1⟩
  · exact (h _ (List.getLast_mem hne)).1
  · intro inner between heq
    have hmem : '[' ∈ word := heq ▸ List.mem_append_right inner List.mem_cons_self
    exact absurd (h '[' hmem) (by decide)

end IsFront

/-! ## Suffixes -/

/-- **What may stand behind a name.** Suffixes with blanks behind them, and blanks behind the name
    itself, and the type that they make of the type with the name. -/
inductive Suffixed (base : AbiType) : List Char → AbiType → Prop where
  | base {blanks : List Char} (hblank : ∀ c ∈ blanks, Text.isBlank c = true) :
      Suffixed base blanks base
  | suffix {front between blanks : List Char} {element : AbiType} {size : Option Nat}
      (hsize : IsLength between size) (hblank : ∀ c ∈ blanks, Text.isBlank c = true)
      (h : Suffixed base front element) :
      Suffixed base (front ++ '[' :: between ++ [']'] ++ blanks) (element.withSuffix size)

/-- What a reader of names does with a text that starts with the name of a type. -/
structure ReadsSuffixes (read : List Char → Except AbiError AbiType) (front : List Char)
    (base : AbiType) : Prop where
  /-- The name alone is read. -/
  alone {cs : List Char} (h : Text.trim cs = front) : read cs = .ok base
  /-- A suffix is taken off. -/
  suffix {cs behind : List Char} (h : Text.trim cs = front ++ behind)
    (hlast : behind.getLast? = some ']') (type : AbiType) : read cs = .ok type ↔
      ∃ inner size element, splitSuffix (front ++ behind) = .ok (inner, size) ∧
        read inner = .ok element ∧ type = element.withSuffix size
  /-- Anything else is refused. -/
  other {cs behind : List Char} (h : Text.trim cs = front ++ behind) (hne : behind ≠ [])
    (hlast : behind.getLast? ≠ some ']') (type : AbiType) : read cs ≠ .ok type

/-- **Such readers go by the relation.** The induction is on the length of what stands behind the
    name: a suffix leaves a shorter text. -/
theorem ReadsSuffixes.eq_ok_iff {read : List Char → Except AbiError AbiType} {front : List Char}
    {base : AbiType} (hread : ReadsSuffixes read front base) (hfront : IsFront front)
    {cs : List Char} {type : AbiType} : read (front ++ cs) = .ok type ↔ Suffixed base cs type := by
  constructor
  · intro h
    induction hn : cs.length using Nat.strong_induction_on generalizing cs type with
    | _ n ih =>
      subst hn
      have htrim := hfront.trim_append cs
      by_cases hblank : cs.rdropWhile Text.isBlank = []
      · -- the name alone
        rw [hblank, List.append_nil] at htrim
        rw [hread.alone htrim] at h
        cases h
        exact .base (List.rdropWhile_eq_nil_iff.mp hblank)
      by_cases hlast : (cs.rdropWhile Text.isBlank).getLast? = some ']'
      · -- a suffix at the end, in front of which the same name stands
        obtain ⟨inner, size, element, hsplit, hinner, rfl⟩ := (hread.suffix htrim hlast type).mp h
        obtain ⟨rest, between, rfl, hbehind, hlength⟩ := (hfront.splitSuffix_append hlast).mp hsplit
        have hcs := @List.rdropWhile_append_rtakeWhile _ Text.isBlank cs
        rw [hbehind] at hcs
        rw [← hcs]
        refine .suffix hlength (fun c hc => List.mem_rtakeWhile_imp hc) (ih _ ?_ hinner rfl)
        rw [← hcs]
        simp only [List.length_append, List.length_cons]
        omega
      · exact absurd h (hread.other htrim hblank hlast type)
  · intro h
    induction h with
    | @base blanks hblank =>
      refine hread.alone ?_
      rw [hfront.trim_append, List.rdropWhile_eq_nil_iff.mpr hblank, List.append_nil]
    | @suffix rest between blanks element size hsize hblank h ih =>
      have hlast : (rest ++ '[' :: between ++ [']']).getLast? = some ']' := List.getLast?_concat
      have htrim : Text.trim (front ++ (rest ++ '[' :: between ++ [']'] ++ blanks)) =
          front ++ (rest ++ '[' :: between ++ [']']) := by
        rw [hfront.trim_append, rdropWhile_append hlast (by decide),
          List.rdropWhile_eq_nil_iff.mpr hblank, List.append_nil]
      refine (hread.suffix htrim hlast _).mpr ⟨front ++ rest, size, element, ?_, ih, rfl⟩
      exact (hfront.splitSuffix_append hlast).mpr ⟨rest, between, rfl, rfl, hsize⟩

/-! ## Words -/

/-- A name behind which a suffix stands. -/
theorem parseChars_eq_ok_iff_of_bracket {cs : List Char} {type : AbiType}
    (hbracket : (Text.trim cs).getLast? = some ']') : parseChars cs = .ok type ↔
      ∃ inner size element, splitSuffix (Text.trim cs) = .ok (inner, size) ∧
        parseChars inner = .ok element ∧ type = element.withSuffix size := by
  constructor
  · intro h
    rw [parseChars, if_pos hbracket] at h
    split at h
    · cases h
    · next inner size hsplit =>
      obtain ⟨element, helement, rfl⟩ := Outcome.map_eq_ok_iff.mp h
      exact ⟨inner, size, element, hsplit, helement, rfl⟩
  · rintro ⟨inner, size, element, hsplit, helement, rfl⟩
    exact parseChars_suffix hbracket hsplit helement

/-- No word that names a type starts with this letter. -/
theorem head?_of_spellsWord {cs : List Char} {type : AbiType} (h : SpellsWord cs type) :
    cs.head? ≠ some 't' := by
  cases h <;> exact fun h => absurd (Option.some.inj h) (by decide)

/-- **No name of a type starts like the word `tuple`.** -/
theorem parseChars_ne_ok_of_head {cs behind : List Char} (h : Text.trim cs = 't' :: behind)
    (type : AbiType) : parseChars cs ≠ .ok type := by
  have hfront : IsFront ['t'] := .of_plain (List.cons_ne_nil _ _) rfl
  induction hn : cs.length using Nat.strong_induction_on generalizing cs behind type with
  | _ n ih =>
    subst hn
    intro hread
    by_cases hbracket : (Text.trim cs).getLast? = some ']'
    · obtain ⟨inner, size, element, hsplit, hinner, rfl⟩ :=
        (parseChars_eq_ok_iff_of_bracket hbracket).mp hread
      have hshorter : inner.length < cs.length :=
        Nat.lt_of_lt_of_le (length_of_splitSuffix hsplit) (Text.length_trim_le cs)
      have hlast : behind.getLast? = some ']' := by
        rw [h] at hbracket
        cases behind with
        | nil => exact absurd hbracket (by decide)
        | cons c behind => rwa [List.getLast?_cons_cons] at hbracket
      rw [h] at hsplit
      obtain ⟨rest, between, rfl, -, -⟩ := (hfront.splitSuffix_append hlast).mp hsplit
      exact ih _ hshorter (hfront.trim_append rest) element rfl hinner
    · have htuple : tupleBody? (Text.trim cs) = none := by
        rw [h]
        rfl
      rw [parseChars_word hbracket htuple, parseWord_eq_ok_iff] at hread
      refine head?_of_spellsWord hread ?_
      rw [h]
      rfl

/-- A text that does not start with the word `tuple` names the same type wherever it stands. -/
theorem parseWithChars_of_head {components : List AbiType} {cs : List Char}
    (h : afterHead? "tuple" (Text.trim cs) = none) :
    parseWithChars components cs = parseChars cs := by
  have hword : Text.trim cs ≠ "tuple".toList := by
    intro heq
    rw [heq] at h
    exact absurd h (by decide)
  rw [parseWithChars, if_neg hword, if_neg (by simp [h]), parseChars_trim]

/-- The reader sees the trimmed text only. -/
theorem parseWithChars_trim (components : List AbiType) (cs : List Char) :
    parseWithChars components (Text.trim cs) = parseWithChars components cs := by
  conv_lhs => rw [parseWithChars, trim_trim]
  conv_rhs => rw [parseWithChars]

theorem readsSuffixes_tuple (components : List AbiType) :
    ReadsSuffixes (parseWithChars components) "tuple".toList (.tuple components) where
  alone h := by
    rw [parseWithChars]
    exact if_pos h
  suffix := by
    intro cs behind h hlast type
    have hword : Text.trim cs ≠ "tuple".toList := by
      rw [h]
      intro hnil
      rw [List.append_right_eq_self.mp hnil] at hlast
      cases hlast
    have hbracket : (Text.trim cs).getLast? = some ']' := by
      rw [h, List.getLast?_append, hlast]
      rfl
    have hhead : (afterHead? "tuple" (Text.trim cs)).isSome = true := by
      rw [afterHead?_eq_some_iff.mpr h]
      rfl
    rw [parseWithChars, if_neg hword, if_pos ⟨hbracket, hhead⟩, ← h]
    constructor
    · intro hread
      split at hread
      · cases hread
      · next inner size hsplit =>
        obtain ⟨element, helement, rfl⟩ := Outcome.map_eq_ok_iff.mp hread
        exact ⟨inner, size, element, hsplit, helement, rfl⟩
    · rintro ⟨inner, size, element, hsplit, helement, rfl⟩
      split
      · next e he =>
        rw [hsplit] at he
        cases he
      · next inner' size' hsplit' =>
        rw [hsplit] at hsplit'
        cases hsplit'
        rw [helement]
        rfl
  other := by
    intro cs behind h hne hlast type
    have hword : Text.trim cs ≠ "tuple".toList := by
      rw [h]
      exact fun hnil => hne (List.append_right_eq_self.mp hnil)
    have hbracket : (Text.trim cs).getLast? ≠ some ']' := by
      rw [h, List.getLast?_append_of_ne_nil _ hne]
      exact hlast
    rw [parseWithChars, if_neg hword, if_neg fun hsuffix => hbracket hsuffix.1, parseChars_trim]
    exact parseChars_ne_ok_of_head h type

/-- **The word.** -/
theorem parseWithChars_tuple_iff {components : List AbiType} {cs : List Char} {type : AbiType} :
    parseWithChars components ("tuple".toList ++ cs) = .ok type ↔
      Suffixed (.tuple components) cs type :=
  (readsSuffixes_tuple components).eq_ok_iff (.of_plain (List.cons_ne_nil _ _) rfl)

/-! ## Parentheses -/

/-- Names of fields in parentheses. -/
def parens (texts : List (List Char)) : List Char := '(' :: [','].intercalate texts ++ [')']

theorem isFront_parens (texts : List (List Char)) : IsFront (parens texts) where
  head := ⟨'(', _, rfl, rfl⟩
  last := ⟨')', List.getLast?_concat, rfl⟩
  uncut inner between h := by
    -- a closing parenthesis stands behind every bracket
    refine ⟨')', ?_, by decide⟩
    have hlast : (inner ++ '[' :: between).getLast? = some ')' := by
      rw [← h, parens, List.getLast?_concat]
    rw [List.getLast?_append_of_ne_nil _ (List.cons_ne_nil _ _), List.getLast?_cons] at hlast
    cases hbetween : between.getLast? with
    | none =>
      rw [hbetween] at hlast
      exact absurd (Option.some.inj hlast) (by decide)
    | some c =>
      rw [hbetween] at hlast
      cases hlast
      exact List.mem_of_getLast? hbetween

/-- Nothing can be split that closes a parenthesis too many. -/
theorem splitFields_close {texts : List (List Char)} (h : ∀ text ∈ texts, IsPassed 0 text)
    (rest : List Char) : splitFields 0 ([','].intercalate texts ++ ')' :: rest) = none := by
  have hclose : splitFields 0 (')' :: rest) = none := by rw [splitFields]
  induction texts with
  | nil => exact hclose
  | cons text texts ih =>
    have htext := h text List.mem_cons_self
    cases texts with
    | nil => rw [List.intercalate_singleton, htext, hclose, Option.map_none]
    | cons other texts =>
      have hrest := ih fun t ht => h t (List.mem_cons_of_mem text ht)
      rw [List.intercalate_cons_cons, List.append_assoc, List.append_assoc, htext,
        List.singleton_append, splitFields, hrest]
      rfl

theorem trim_ne_nil_of_mem {c : Char} (hc : Text.isBlank c = false) {cs : List Char}
    (hmem : c ∈ cs) : Text.trim cs ≠ [] := by
  intro hnil
  obtain ⟨front, behind, hcs, hfront, hbehind⟩ := exists_trim cs
  rw [hnil, List.append_nil] at hcs
  rw [hcs, List.mem_append] at hmem
  rw [← Bool.not_eq_true] at hc
  exact hmem.elim (fun h => hc (hfront c h)) fun h => hc (hbehind c h)

/-- A text that names a type is not blank. -/
theorem exists_of_parseChars {cs : List Char} {type : AbiType} (h : parseChars cs = .ok type) :
    ∃ c ∈ cs, Text.isBlank c = false := by
  by_contra hblank
  have hall : ∀ c ∈ cs, Text.isBlank c = true := by simpa using hblank
  have hnil : Text.trim cs = [] := by
    rw [Text.trim, List.dropWhile_eq_nil_iff.mpr hall]
    rfl
  rw [← parseChars_trim, hnil] at h
  exact (Spells.word (parseWord_eq_ok_iff.mp
    ((parseChars_word (by decide) rfl).symm.trans h))).ne_nil rfl

/-- Parentheses whose inside cannot be split. -/
theorem parseChars_ne_ok_of_splitFields {cs body : List Char}
    (hbracket : (Text.trim cs).getLast? ≠ some ']') (htuple : tupleBody? (Text.trim cs) = some body)
    (hbody : Text.trim body ≠ []) (hfields : splitFields 0 body = none) (type : AbiType) :
    parseChars cs ≠ .ok type := by
  intro h
  rw [parseChars, if_neg hbracket] at h
  split at h
  · next hnone =>
    rw [htuple] at hnone
    cases hnone
  · next body' hsome =>
    rw [htuple] at hsome
    cases hsome
    rw [if_neg hbody] at h
    split at h
    · cases h
    · next fields hsome' =>
      rw [tupleFields_eq_ok_iff.mp hsome'] at hfields
      cases hfields

theorem readsSuffixes_parens {texts : List (List Char)} {types : List AbiType}
    (h : List.Forall₂ (fun text type => parseChars text = .ok type) texts types) :
    ReadsSuffixes parseChars (parens texts) (.tuple types) := by
  have hpassed : ∀ text ∈ texts, IsPassed 0 text := by
    intro text htext
    obtain ⟨i, hi, rfl⟩ := List.getElem_of_mem htext
    exact isPassed_of_parseChars (List.Forall₂.get h hi (h.length_eq ▸ hi)) 0
  refine ⟨?_, ?_, ?_⟩
  · -- the tuple alone
    intro cs hcs
    cases h with
    | nil => rw [← parseChars_trim, hcs, ← parseChars_unit]; rfl
    | @cons text type texts types htext hrest =>
      have hbracket : (Text.trim cs).getLast? ≠ some ']' := by
        rw [hcs, parens, List.getLast?_concat]
        decide
      obtain ⟨c, hmem, hc⟩ := exists_of_parseChars htext
      refine parseChars_tuple hbracket (tupleBody?_eq_some_iff.mpr hcs)
        (trim_ne_nil_of_mem hc ?_) (splitFields_intercalate (List.cons_ne_nil _ _) hpassed)
        (.cons htext hrest)
      exact (isInfix_intercalate List.mem_cons_self).subset hmem
  · -- a suffix behind it
    intro cs behind hcs hlast type
    have hbracket : (Text.trim cs).getLast? = some ']' := by
      rw [hcs, List.getLast?_append, hlast]
      rfl
    rw [← hcs]
    exact parseChars_eq_ok_iff_of_bracket hbracket
  · -- anything else behind it: another parenthesis, which closes too many, or no end of a name
    intro cs behind hcs hne hlast type
    have hbracket : (Text.trim cs).getLast? ≠ some ']' := by
      rw [hcs, List.getLast?_append_of_ne_nil _ hne]
      exact hlast
    by_cases hclose : behind.getLast? = some ')'
    · obtain ⟨rest, rfl⟩ := List.getLast?_eq_some_iff.mp hclose
      have htuple : tupleBody? (Text.trim cs) = some ([','].intercalate texts ++ ')' :: rest) := by
        rw [hcs, tupleBody?_eq_some_iff, parens]
        simp
      have hinside : ')' ∈ [','].intercalate texts ++ ')' :: rest :=
        List.mem_append_right _ List.mem_cons_self
      exact parseChars_ne_ok_of_splitFields hbracket htuple (trim_ne_nil_of_mem (by decide) hinside)
        (splitFields_close hpassed rest) type
    · have htuple : tupleBody? (Text.trim cs) = none := by
        rw [Option.eq_none_iff_forall_ne_some]
        intro body hbody
        refine hclose ?_
        rw [← List.getLast?_append_of_ne_nil (parens texts) hne, ← hcs,
          tupleBody?_eq_some_iff.mp hbody, List.getLast?_concat]
      rw [parseChars_word hbracket htuple]
      intro hword
      refine absurd ((parseWord_eq_ok_iff.mp hword).plain '(' ?_) (by decide)
      rw [hcs]
      exact List.mem_append_left behind List.mem_cons_self

/-- **The parentheses.** -/
theorem parseChars_parens_iff {texts : List (List Char)} {types : List AbiType}
    (h : List.Forall₂ (fun text type => parseChars text = .ok type) texts types) {cs : List Char}
    {type : AbiType} :
    parseChars (parens texts ++ cs) = .ok type ↔ Suffixed (.tuple types) cs type :=
  (readsSuffixes_parens h).eq_ok_iff (isFront_parens texts)

/-- **The two names of a tuple** go with the same suffixes. -/
theorem parseWithChars_tuple_iff_parens {texts : List (List Char)} {types : List AbiType}
    (h : List.Forall₂ (fun text type => parseChars text = .ok type) texts types) {cs : List Char}
    {type : AbiType} : parseWithChars types ("tuple".toList ++ cs) = .ok type ↔
      parseChars (parens texts ++ cs) = .ok type :=
  parseWithChars_tuple_iff.trans (parseChars_parens_iff h).symm

end AbiType

end ChainClient
