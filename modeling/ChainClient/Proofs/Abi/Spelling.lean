import ChainClient.Proofs.Abi.WellFormed
import ChainClient.Proofs.Text.Numeral
import Mathlib.Data.List.Infix

/-!
# `ChainClient.Proofs.Abi.Spelling` — the texts that name a type

What the reader of names accepts, as a grammar: a word, a name with brackets behind it, or names
between parentheses. Numbers are read as numerals, so a sign is no obstacle, nor are zeros in front
of the length of an array.

## Contents
- **Characters.** `PlainChar` are the characters of words. Where nothing is blank, nothing is
  trimmed.
- **Cuts.** The reader cuts at the last bracket, at the outer parentheses and at the commas. Each
  cut is tied to the joined text, in both directions.
- **Grammar.** `SpellsWord` are the words and `Spells` the names.
- **Reading.** `parseChars_eq_ok_iff`: the names without blanks are the texts of the grammar.
- **Refusals.** `isTypeError_of_parseChars`: whatever is wrong with a text, the error says that it
  names no type.
-/

namespace ChainClient

namespace AbiType

/-! ## Characters -/

/-- The characters of words and numbers: no blanks, and none of the marks that join names. -/
def PlainChar (c : Char) : Prop :=
  Text.isBlank c = false ∧ c ≠ '[' ∧ c ≠ ']' ∧ c ≠ '(' ∧ c ≠ ')' ∧ c ≠ ','

instance (c : Char) : Decidable (PlainChar c) := inferInstanceAs (Decidable (_ ∧ _))

theorem plainChar_of_isDigit {c : Char} (h : c.isDigit = true) : PlainChar c := by
  have hcode := Numeral.code_of_isDigit h
  have hne : ∀ d : Char, d.toNat < 48 ∨ 57 < d.toNat → c ≠ d := by
    rintro d hd rfl
    omega
  refine ⟨?_, hne _ (by decide), hne _ (by decide), hne _ (by decide), hne _ (by decide),
    hne _ (by decide)⟩
  apply Bool.eq_false_iff.mpr
  intro hblank
  simp only [Text.isBlank, Bool.or_eq_true, Bool.and_eq_true, decide_eq_true_eq, beq_iff_eq]
    at hblank
  omega

/-- There is nothing to trim where no character is blank. -/
theorem trim_eq_self {cs : List Char} (h : ∀ c ∈ cs, Text.isBlank c = false) :
    Text.trim cs = cs := by
  have hdrop : ∀ ds : List Char, (∀ c ∈ ds, Text.isBlank c = false) →
      ds.dropWhile Text.isBlank = ds := by
    intro ds hds
    cases ds with
    | nil => rfl
    | cons d ds => rw [List.dropWhile_cons_of_neg (by simp [hds d List.mem_cons_self])]
  rw [Text.trim, hdrop cs h, hdrop cs.reverse fun c hc => h c (List.mem_reverse.mp hc),
    List.reverse_reverse]

/-! ## Cuts -/

/-- **The last bracket.** A name with a suffix is cut where the suffix was put. -/
theorem splitBracket?_suffix (inner : List Char) {between : List Char} (h : '[' ∉ between) :
    splitBracket? (inner ++ '[' :: between ++ [']']) = some (inner, between) := by
  have hbetween : ∀ c ∈ between.reverse, (c != '[') = true := by
    intro c hc
    rw [bne_iff_ne]
    rintro rfl
    exact h (List.mem_reverse.mp hc)
  have hdrop : (between.reverse ++ '[' :: inner.reverse).dropWhile (· != '[') =
      '[' :: inner.reverse := by
    rw [List.dropWhile_append_of_pos hbetween, List.dropWhile_cons_of_neg (by decide)]
  have htake : (between.reverse ++ '[' :: inner.reverse).takeWhile (· != '[') =
      between.reverse := by
    rw [List.takeWhile_append_of_pos hbetween, List.takeWhile_cons_of_neg (by decide),
      List.append_nil]
  have hreverse : (inner ++ '[' :: between ++ [']']).reverse =
      ']' :: (between.reverse ++ '[' :: inner.reverse) := by simp
  simp only [splitBracket?, hreverse, hdrop, htake, List.reverse_reverse]

/-- What is cut at its last bracket is joined again by it. -/
theorem eq_of_splitBracket? {cs inner between : List Char} (hlast : cs.getLast? = some ']')
    (h : splitBracket? cs = some (inner, between)) : cs = inner ++ '[' :: between ++ [']'] := by
  unfold splitBracket? at h
  split at h
  · cases h
  · next last behind hreverse =>
    have hcs : cs = behind.reverse ++ [last] := by
      rw [← List.reverse_cons, ← hreverse, List.reverse_reverse]
    have hclose : last = ']' := by
      rw [hcs, List.getLast?_concat] at hlast
      exact Option.some.inj hlast
    split at h
    · cases h
    · next c before hdrop =>
      cases h
      have hopen := List.head?_dropWhile_not (· != '[') behind
      rw [hdrop] at hopen
      have hc : c = '[' := by simpa using hopen
      have hparts := List.takeWhile_append_dropWhile (p := (· != '[')) (l := behind)
      rw [hdrop, hc] at hparts
      rw [hcs, hclose]
      conv_lhs => rw [← hparts]
      simp

/-- Parentheses. -/
theorem tupleBody?_eq_some_iff {cs body : List Char} :
    tupleBody? cs = some body ↔ cs = '(' :: body ++ [')'] := by
  constructor
  · intro h
    unfold tupleBody? at h
    split at h
    · next rest =>
      split at h
      · next hlast =>
        cases h
        obtain ⟨front, rfl⟩ := List.getLast?_eq_some_iff.mp hlast
        rw [List.dropLast_concat, List.cons_append]
      · cases h
    · cases h
  · rintro rfl
    rw [List.cons_append, tupleBody?, List.getLast?_concat, if_pos rfl, List.dropLast_concat]

theorem intercalate_pushFront (c : Char) (fields : List (List Char)) :
    [','].intercalate (pushFront c fields) = c :: [','].intercalate fields := by
  rcases fields with - | ⟨field, - | ⟨other, fields⟩⟩
  · rfl
  · simp [pushFront]
  · simp [pushFront, List.intercalate_cons_cons]

theorem isInfix_intercalate {texts : List (List Char)} {text : List Char} (h : text ∈ texts) :
    text <:+: [','].intercalate texts := by
  induction texts with
  | nil => exact (List.not_mem_nil h).elim
  | cons first texts ih =>
    cases texts with
    | nil =>
      rw [List.mem_singleton.mp h, List.intercalate_singleton]
    | cons other texts =>
      rw [List.intercalate_cons_cons, List.append_assoc]
      rcases List.mem_cons.mp h with rfl | h
      · exact (List.prefix_append text _).isInfix
      · exact ((ih h).trans (List.suffix_append _ _).isInfix).trans (List.suffix_append _ _).isInfix

/-- What holds of texts holds of the joined text if commas keep it. -/
theorem intercalate_induction {motive : List Char → Prop} (nil : motive [])
    (comma : ∀ text rest, motive text → motive rest → motive (text ++ ',' :: rest))
    {texts : List (List Char)} (h : ∀ text ∈ texts, motive text) :
    motive ([','].intercalate texts) := by
  induction texts with
  | nil => exact nil
  | cons text texts ih =>
    have htext := h text List.mem_cons_self
    cases texts with
    | nil =>
      rw [List.intercalate_singleton]
      exact htext
    | cons other texts =>
      rw [List.intercalate_cons_cons, List.append_assoc]
      exact comma text _ htext (ih fun t ht => h t (List.mem_cons_of_mem text ht))

/-- A property of characters holds in joined texts if it holds in the texts and of the comma. -/
theorem forall_mem_intercalate {p : Char → Prop} (hcomma : p ',') {texts : List (List Char)}
    (h : ∀ text ∈ texts, ∀ c ∈ text, p c) : ∀ c ∈ [','].intercalate texts, p c := by
  refine intercalate_induction (motive := fun cs => ∀ c ∈ cs, p c) ?_ ?_ h
  · exact List.forall_mem_nil _
  · exact fun text rest htext hrest =>
      List.forall_mem_append.mpr ⟨htext, List.forall_mem_cons.mpr ⟨hcomma, hrest⟩⟩

/-- What is cut at commas is joined again by them. -/
theorem intercalate_of_splitFields {depth : Nat} {cs : List Char} {fields : List (List Char)}
    (h : splitFields depth cs = some fields) : fields ≠ [] ∧ [','].intercalate fields = cs := by
  fun_induction splitFields depth cs generalizing fields with
  | case1 => cases h; exact ⟨List.cons_ne_nil _ _, rfl⟩
  | case2 => cases h
  | case4 => cases h
  | case6 rest ih =>
    -- a comma that cuts
    obtain ⟨others, hothers, rfl⟩ := Option.map_eq_some_iff.mp h
    obtain ⟨hne, hjoin⟩ := ih hothers
    refine ⟨List.cons_ne_nil _ _, ?_⟩
    rw [List.intercalate_cons_of_ne_nil hne, hjoin]
    rfl
  | case3 | case5 | case7 =>
    -- every other character goes into the first field
    rename_i ih
    obtain ⟨others, hothers, rfl⟩ := Option.map_eq_some_iff.mp h
    obtain ⟨hne, hjoin⟩ := ih hothers
    rw [intercalate_pushFront, hjoin]
    refine ⟨?_, rfl⟩
    cases others <;> exact List.cons_ne_nil _ _

/-- Text that the splitter passes over at a depth: what follows is split as if it stood alone, and
    the text goes in front of the first field. -/
def IsPassed (depth : Nat) (cs : List Char) : Prop :=
  ∀ rest, splitFields depth (cs ++ rest) = (splitFields depth rest).map (pushAll cs)

theorem isPassed_nil (depth : Nat) : IsPassed depth [] :=
  fun _ => Option.map_id'.symm

theorem IsPassed.append {depth : Nat} {cs ds : List Char} (hcs : IsPassed depth cs)
    (hds : IsPassed depth ds) : IsPassed depth (cs ++ ds) := by
  intro rest
  rw [List.append_assoc, hcs, hds, Option.map_map]
  congr 1
  funext fields
  exact List.foldr_append.symm

/-- A character that neither opens nor closes anything, and is no comma outside parentheses. -/
theorem isPassed_char {depth : Nat} {c : Char} (hopen : c ≠ '(') (hclose : c ≠ ')')
    (hcomma : c = ',' → depth ≠ 0) : IsPassed depth [c] := by
  intro rest
  rw [List.singleton_append, splitFields_cons hopen hclose hcomma]
  rfl

/-- Text without parentheses and commas. -/
theorem isPassed_of_forall {depth : Nat} {cs : List Char}
    (h : ∀ c ∈ cs, c ≠ '(' ∧ c ≠ ')' ∧ c ≠ ',') : IsPassed depth cs := by
  induction cs with
  | nil => exact isPassed_nil depth
  | cons c cs ih =>
    obtain ⟨hopen, hclose, hcomma⟩ := h c List.mem_cons_self
    have hc : IsPassed depth [c] := isPassed_char hopen hclose fun h => absurd h hcomma
    exact hc.append (ih fun d hd => h d (List.mem_cons_of_mem c hd))

theorem isPassed_plain {depth : Nat} {cs : List Char} (h : ∀ c ∈ cs, PlainChar c) :
    IsPassed depth cs :=
  isPassed_of_forall fun c hc => (h c hc).2.2.2

/-- Parentheses around text that is passed over inside them. -/
theorem IsPassed.parens {depth : Nat} {cs : List Char} (h : IsPassed (depth + 1) cs) :
    IsPassed depth ('(' :: cs ++ [')']) := by
  intro rest
  have hsplit : '(' :: cs ++ [')'] ++ rest = '(' :: (cs ++ ')' :: rest) := by simp
  rw [hsplit, splitFields, h, splitFields, Option.map_map, Option.map_map]
  congr 1
  funext fields
  simp [pushAll]

/-- A suffix in brackets. -/
theorem IsPassed.brackets {depth : Nat} {cs between : List Char} (h : IsPassed depth cs)
    (hplain : ∀ c ∈ between, PlainChar c) : IsPassed depth (cs ++ '[' :: between ++ [']']) := by
  have hopen : IsPassed depth ['['] :=
    isPassed_char (by decide) (by decide) fun h => absurd h (by decide)
  have hclose : IsPassed depth [']'] :=
    isPassed_char (by decide) (by decide) fun h => absurd h (by decide)
  exact (h.append (hopen.append (isPassed_plain hplain))).append hclose

/-- Text between commas inside parentheses is passed over if each part is. -/
theorem isPassed_intercalate {depth : Nat} {texts : List (List Char)}
    (h : ∀ text ∈ texts, IsPassed (depth + 1) text) :
    IsPassed (depth + 1) ([','].intercalate texts) := by
  have hcomma : IsPassed (depth + 1) [','] :=
    isPassed_char (by decide) (by decide) fun _ => Nat.succ_ne_zero depth
  refine intercalate_induction (isPassed_nil _) (fun text rest htext hrest => ?_) h
  exact htext.append (hcomma.append hrest)

/-- **The commas.** Texts that close what they open are cut where they were joined. -/
theorem splitFields_intercalate {texts : List (List Char)} (hne : texts ≠ [])
    (h : ∀ text ∈ texts, IsPassed 0 text) :
    splitFields 0 ([','].intercalate texts) = some texts := by
  induction texts with
  | nil => exact absurd rfl hne
  | cons text texts ih =>
    have hpassed := h text List.mem_cons_self
    cases texts with
    | nil =>
      have hlast := hpassed []
      rw [List.append_nil] at hlast
      rw [List.intercalate_singleton, hlast, splitFields, Option.map_some, pushAll_cons,
        List.append_nil]
    | cons other texts =>
      have hrest := ih (List.cons_ne_nil _ _) fun t ht => h t (List.mem_cons_of_mem text ht)
      rw [List.intercalate_cons_cons, List.append_assoc, hpassed, List.singleton_append,
        splitFields, hrest, Option.map_some, Option.map_some, pushAll_cons, List.append_nil]

/-! ## Grammar -/

/-- The texts of a width at the end of a word: nothing for the greatest one, or a numeral that does
    not start with a zero. -/
def IsWidth (step max : Nat) (cs : List Char) (n : Nat) : Prop :=
  cs = [] ∧ n = max ∨
    Numeral.IsDecimal cs n ∧ cs.head? ≠ some '0' ∧ step ≤ n ∧ n ≤ max ∧ n % step = 0

/-- The texts of a length between brackets: nothing for any length, or a numeral. -/
def IsLength (cs : List Char) : Option Nat → Prop
  | none => cs = []
  | some n => Numeral.IsDecimal cs n ∧ 0 < n ∧ n ≤ maxOffset

theorem plainChar_of_isDecimal {cs : List Char} {n : Nat} (h : Numeral.IsDecimal cs n) :
    ∀ c ∈ cs, PlainChar c := by
  obtain ⟨sign, numeral, hsign, rfl, hnumeral⟩ := h
  intro c hc
  rcases List.mem_append.mp hc with hplus | hdigit
  · rcases hsign with rfl | rfl
    · exact (List.not_mem_nil hplus).elim
    · rw [List.mem_singleton.mp hplus]
      decide
  · exact plainChar_of_isDigit (Numeral.isDigit_of_mem hnumeral hdigit)

/-- The words that name a type. -/
inductive SpellsWord : List Char → AbiType → Prop where
  | address : SpellsWord "address".toList .address
  | bool : SpellsWord "bool".toList .bool
  | string : SpellsWord "string".toList .string
  | bytes : SpellsWord "bytes".toList .bytes
  | uint {cs : List Char} {bits : Nat} (h : IsWidth 8 256 cs bits) :
      SpellsWord ("uint".toList ++ cs) (.uint bits)
  | int {cs : List Char} {bits : Nat} (h : IsWidth 8 256 cs bits) :
      SpellsWord ("int".toList ++ cs) (.int bits)
  | fixedBytes {cs : List Char} {size : Nat} (hne : cs ≠ []) (h : IsWidth 1 32 cs size) :
      SpellsWord ("bytes".toList ++ cs) (.fixedBytes size)

/-- **The texts that name a type.** -/
inductive Spells : List Char → AbiType → Prop where
  | word {cs : List Char} {type : AbiType} (h : SpellsWord cs type) : Spells cs type
  | suffix {cs between : List Char} {element : AbiType} {size : Option Nat}
      (hsize : IsLength between size) (h : Spells cs element) :
      Spells (cs ++ '[' :: between ++ [']']) (element.withSuffix size)
  | tuple {fields : List (List Char × AbiType)}
      (h : ∀ field ∈ fields, Spells field.1 field.2) :
      Spells ('(' :: [','].intercalate (fields.map Prod.fst) ++ [')'])
        (.tuple (fields.map Prod.snd))

/-! ## Reading -/

theorem parseWidth_eq_ok_iff {word cs : List Char} {step max n : Nat} (hmax : max ≤ maxOffset) :
    parseWidth word step max cs = .ok n ↔ IsWidth step max cs n := by
  unfold parseWidth IsWidth
  split
  · next hnil =>
    subst hnil
    constructor
    · intro h
      cases h
      exact .inl ⟨rfl, rfl⟩
    · rintro (⟨_, rfl⟩ | ⟨hdecimal, _⟩)
      · rfl
      · exact absurd rfl hdecimal.ne_nil
  · next hne =>
    rw [or_iff_right fun h => hne h.1]
    split
    · next hzero => exact ⟨fun h => (nomatch h), fun h => absurd hzero h.2.1⟩
    · next hzero =>
      constructor
      · intro h
        split at h
        · next m hread =>
          split at h
          · next hm =>
            cases h
            exact ⟨(Numeral.readUnsigned?_eq_some_iff.mp hread).1, hzero, hm⟩
          · cases h
        · cases h
      · rintro ⟨hdecimal, _, hn⟩
        have hread : Numeral.readUnsigned? (maxOffset + 1) cs = some n :=
          Numeral.readUnsigned?_eq_some_iff.mpr ⟨hdecimal, by omega⟩
        rw [hread]
        exact if_pos hn

theorem afterHead?_eq_some_iff {head : String} {cs rest : List Char} :
    afterHead? head cs = some rest ↔ cs = head.toList ++ rest :=
  List.isPrefixOf?_eq_some_iff_append_eq.trans eq_comm

/-! Each of the words with a number is read by its number. -/

theorem parseWord_uint (cs : List Char) :
    parseWord ("uint".toList ++ cs) = (parseWidth ("uint".toList ++ cs) 8 256 cs).map .uint := rfl

theorem parseWord_int (cs : List Char) :
    parseWord ("int".toList ++ cs) = (parseWidth ("int".toList ++ cs) 8 256 cs).map .int := rfl

theorem parseWord_bytes {cs : List Char} (hne : cs ≠ []) : parseWord ("bytes".toList ++ cs) =
    (parseWidth ("bytes".toList ++ cs) 1 32 cs).map .fixedBytes := by
  cases cs with
  | nil => exact absurd rfl hne
  | cons c cs => rfl

/-- **Words.** -/
theorem parseWord_eq_ok_iff {cs : List Char} {type : AbiType} :
    parseWord cs = .ok type ↔ SpellsWord cs type := by
  constructor
  · intro h
    unfold parseWord at h
    split at h
    · next heq => cases h; exact heq ▸ .address
    split at h
    · next heq => cases h; exact heq ▸ .bool
    split at h
    · next heq => cases h; exact heq ▸ .string
    split at h
    · next heq => cases h; exact heq ▸ .bytes
    next hbytes =>
    split at h
    · next rest hhead =>
      obtain ⟨n, hn, rfl⟩ := Outcome.map_eq_ok_iff.mp h
      rw [afterHead?_eq_some_iff.mp hhead]
      exact .uint ((parseWidth_eq_ok_iff (by decide)).mp hn)
    · next rest _ hhead =>
      obtain ⟨n, hn, rfl⟩ := Outcome.map_eq_ok_iff.mp h
      rw [afterHead?_eq_some_iff.mp hhead]
      exact .int ((parseWidth_eq_ok_iff (by decide)).mp hn)
    · next rest _ _ hhead =>
      obtain ⟨n, hn, rfl⟩ := Outcome.map_eq_ok_iff.mp h
      have hcs := afterHead?_eq_some_iff.mp hhead
      have hne : rest ≠ [] := by
        rintro rfl
        exact hbytes (hcs.trans (List.append_nil _))
      rw [hcs]
      exact .fixedBytes hne ((parseWidth_eq_ok_iff (by decide)).mp hn)
    · cases h
  · intro h
    cases h with
    | address => rfl
    | bool => rfl
    | string => rfl
    | bytes => rfl
    | uint hwidth => rw [parseWord_uint, (parseWidth_eq_ok_iff (by decide)).mpr hwidth]; rfl
    | int hwidth => rw [parseWord_int, (parseWidth_eq_ok_iff (by decide)).mpr hwidth]; rfl
    | fixedBytes hne hwidth =>
      rw [parseWord_bytes hne, (parseWidth_eq_ok_iff (by decide)).mpr hwidth]
      rfl

/-- **Suffixes.** What stands in front of one is not empty, and what stands between its brackets is
    a length. -/
theorem splitSuffix_eq_ok_iff {cs inner : List Char} {size : Option Nat}
    (hlast : cs.getLast? = some ']') : splitSuffix cs = .ok (inner, size) ↔
      inner ≠ [] ∧ ∃ between, cs = inner ++ '[' :: between ++ [']'] ∧ IsLength between size := by
  constructor
  · intro h
    unfold splitSuffix at h
    split at h
    · cases h
    · next front between hsplit =>
      have hcs := eq_of_splitBracket? hlast hsplit
      split at h
      · cases h
      next hne =>
      split at h
      · next hnil =>
        cases h
        exact ⟨hne, between, hcs, hnil⟩
      · split at h
        · next n hread =>
          obtain ⟨hdecimal, hbound⟩ := Numeral.readUnsigned?_eq_some_iff.mp hread
          split at h
          · next hpos =>
            cases h
            exact ⟨hne, between, hcs, hdecimal, hpos, Nat.le_of_lt_succ hbound⟩
          · cases h
        · cases h
  · rintro ⟨hne, between, rfl, hlength⟩
    -- a length has no bracket, so the cut is at the bracket in front of it
    have hplain : '[' ∉ between := by
      cases size with
      | none => exact hlength ▸ List.not_mem_nil
      | some n =>
        intro hmem
        exact absurd (plainChar_of_isDecimal hlength.1 _ hmem) (by decide)
    unfold splitSuffix
    rw [splitBracket?_suffix inner hplain]
    simp only [if_neg hne]
    cases size with
    | none => exact if_pos hlength
    | some n =>
      obtain ⟨hdecimal, hpos, hmax⟩ := hlength
      rw [if_neg hdecimal.ne_nil,
        Numeral.readUnsigned?_eq_some_iff.mpr ⟨hdecimal, Nat.lt_succ_of_le hmax⟩]
      exact if_pos hpos

/-- **Faithful.** A name without blanks is a text of the grammar. The induction follows the
    reader. -/
theorem spells_of_parseChars {cs : List Char} {type : AbiType}
    (hblank : ∀ c ∈ cs, Text.isBlank c = false) (h : parseChars cs = .ok type) :
    Spells cs type := by
  fun_induction parseChars cs generalizing type with
  | case1 => cases h
  | case2 cs name hbracket inner size hsuffix =>
    -- a suffix
    rename_i ih
    obtain ⟨element, helement, rfl⟩ := Outcome.map_eq_ok_iff.mp h
    have hname : name = cs := trim_eq_self hblank
    rw [hname] at hbracket hsuffix
    obtain ⟨_, between, rfl, hlength⟩ := (splitSuffix_eq_ok_iff hbracket).mp hsuffix
    refine .suffix hlength (ih (fun c hc => hblank c ?_) helement)
    simp [hc]
  | case3 cs name =>
    -- a word
    have hname : name = cs := trim_eq_self hblank
    exact .word (parseWord_eq_ok_iff.mp (hname ▸ h))
  | case4 cs name hbracket body htuple =>
    -- the tuple of nothing: its parentheses may hold blanks, of which there are none here
    rename_i htrim
    cases h
    have hname : name = cs := trim_eq_self hblank
    have hcs := tupleBody?_eq_some_iff.mp (hname ▸ htuple)
    have hnil : body = [] := by
      rw [← htrim, trim_eq_self]
      intro c hc
      exact hblank c (by simp [hcs, hc])
    rw [hcs, hnil]
    exact @Spells.tuple [] fun field hfield => (List.not_mem_nil hfield).elim
  | case5 => cases h
  | case6 cs name hbracket body htuple hbody fields hfields =>
    -- a tuple
    rename_i ih
    obtain ⟨types, htypes, rfl⟩ := Outcome.map_eq_ok_iff.mp h
    have hname : name = cs := trim_eq_self hblank
    have hcs := tupleBody?_eq_some_iff.mp (hname ▸ htuple)
    have hjoin := (intercalate_of_splitFields (tupleFields_eq_ok_iff.mp hfields)).2
    -- the reader carries the membership proofs along that its termination needs
    rw [List.mapM_subtype fun _ _ => rfl, List.unattach_attach] at htypes
    obtain ⟨hlength, hread⟩ := List.forall₂_iff_zip.mp (Outcome.mapM_eq_ok_iff.mp htypes)
    have hspells := @Spells.tuple (fields.zip types) fun field hfield => by
      have hmem := (List.of_mem_zip hfield).1
      refine ih ⟨field.1, hmem⟩ (fun c hc => hblank c ?_) (hread hfield)
      have hbody : c ∈ body := hjoin ▸ (isInfix_intercalate hmem).subset hc
      simp [hcs, hbody]
    rw [List.map_fst_zip (Nat.le_of_eq hlength), List.map_snd_zip (Nat.le_of_eq hlength.symm),
      hjoin] at hspells
    exact hcs ▸ hspells

/-! A text of the grammar has something in it, nothing blank, and closes what it opens. -/

theorem SpellsWord.plain {cs : List Char} {type : AbiType} (h : SpellsWord cs type) :
    ∀ c ∈ cs, PlainChar c := by
  have hwidth {step max n : Nat} {cs : List Char} (h : IsWidth step max cs n) :
      ∀ c ∈ cs, PlainChar c := by
    rcases h with ⟨rfl, _⟩ | ⟨hdecimal, _⟩
    · exact fun c hc => (List.not_mem_nil hc).elim
    · exact plainChar_of_isDecimal hdecimal
  have hall {word : String} (h : word.toList.all (fun c => PlainChar c) = true) :
      ∀ c ∈ word.toList, PlainChar c :=
    fun c hc => of_decide_eq_true (List.all_eq_true.mp h c hc)
  cases h with
  | address => exact hall rfl
  | bool => exact hall rfl
  | string => exact hall rfl
  | bytes => exact hall rfl
  | uint h => exact List.forall_mem_append.mpr ⟨hall rfl, hwidth h⟩
  | int h => exact List.forall_mem_append.mpr ⟨hall rfl, hwidth h⟩
  | fixedBytes _ h => exact List.forall_mem_append.mpr ⟨hall rfl, hwidth h⟩

theorem IsLength.plain {cs : List Char} {size : Option Nat} (h : IsLength cs size) :
    ∀ c ∈ cs, PlainChar c := by
  cases size with
  | none => exact fun c hc => (List.not_mem_nil (h ▸ hc)).elim
  | some n => exact plainChar_of_isDecimal h.1

theorem Spells.ne_nil {cs : List Char} {type : AbiType} (h : Spells cs type) : cs ≠ [] := by
  cases h with
  | word h => cases h <;> exact List.cons_ne_nil _ _
  | suffix => exact List.append_ne_nil_of_right_ne_nil _ (List.cons_ne_nil _ _)
  | tuple => exact List.cons_ne_nil _ _

theorem Spells.isBlank_eq_false {cs : List Char} {type : AbiType} (h : Spells cs type) :
    ∀ c ∈ cs, Text.isBlank c = false := by
  induction h with
  | word h => exact fun c hc => (h.plain c hc).1
  | suffix hsize _ ih =>
    intro c hc
    simp only [List.mem_append, List.mem_cons, List.not_mem_nil, or_false] at hc
    rcases hc with (hc | rfl | hc) | rfl
    · exact ih c hc
    · decide
    · exact (hsize.plain c hc).1
    · decide
  | tuple _ ih =>
    intro c hc
    simp only [List.mem_append, List.mem_cons, List.not_mem_nil, or_false] at hc
    rcases hc with (rfl | hc) | rfl
    · decide
    · refine forall_mem_intercalate (p := fun c => Text.isBlank c = false) (by decide)
        (fun text htext => ?_) c hc
      obtain ⟨field, hfield, rfl⟩ := List.mem_map.mp htext
      exact ih field hfield
    · decide

theorem Spells.isPassed {cs : List Char} {type : AbiType} (h : Spells cs type) (depth : Nat) :
    IsPassed depth cs := by
  induction h generalizing depth with
  | word h => exact isPassed_plain h.plain
  | suffix hsize _ ih => exact (ih depth).brackets hsize.plain
  | tuple _ ih =>
    refine (isPassed_intercalate fun text htext => ?_).parens
    obtain ⟨field, hfield, rfl⟩ := List.mem_map.mp htext
    exact ih field hfield (depth + 1)

/-- The tuple of nothing. -/
theorem parseChars_unit : parseChars ['(', ')'] = .ok (.tuple []) := by
  rw [parseChars, if_neg (by decide)]
  split
  · next hnone => cases hnone
  · next body hbody =>
    cases hbody
    rfl

/-- **Complete.** A text of the grammar is read as the type that it names. -/
theorem parseChars_of_spells {cs : List Char} {type : AbiType} (h : Spells cs type) :
    parseChars cs = .ok type := by
  induction h with
  | @word cs type h =>
    -- a word ends in no bracket and in no parenthesis, so it is not cut
    have htrim : Text.trim cs = cs := trim_eq_self fun c hc => (h.plain c hc).1
    have hlast : ∀ c, ¬ PlainChar c → cs.getLast? ≠ some c :=
      fun c hc hlast => hc (h.plain c (List.mem_of_getLast? hlast))
    have htuple : tupleBody? cs = none := by
      rw [Option.eq_none_iff_forall_ne_some]
      intro body hbody
      refine hlast ')' (by decide) ?_
      rw [tupleBody?_eq_some_iff.mp hbody, List.getLast?_concat]
    rw [parseChars_word, htrim, parseWord_eq_ok_iff.mpr h]
    · exact htrim.symm ▸ hlast ']' (by decide)
    · exact htrim.symm ▸ htuple
  | @suffix cs between element size hsize h ih =>
    have htrim := trim_eq_self (Spells.suffix hsize h).isBlank_eq_false
    have hlast : (cs ++ '[' :: between ++ [']']).getLast? = some ']' := List.getLast?_concat
    apply parseChars_suffix _ _ ih
    · exact htrim.symm ▸ hlast
    · exact htrim.symm ▸ (splitSuffix_eq_ok_iff hlast).mpr ⟨h.ne_nil, between, rfl, hsize⟩
  | @tuple fields h ih =>
    have hblank := (Spells.tuple h).isBlank_eq_false
    have htrim := trim_eq_self hblank
    have hlast : ('(' :: [','].intercalate (fields.map Prod.fst) ++ [')']).getLast? ≠ some ']' := by
      rw [List.getLast?_concat]
      decide
    by_cases hnil : fields = []
    · subst hnil
      exact parseChars_unit
    · have hne : fields.map Prod.fst ≠ [] := mt List.map_eq_nil_iff.mp hnil
      have hmem : ∀ text ∈ fields.map Prod.fst, ∃ type, Spells text type := by
        intro text htext
        obtain ⟨field, hfield, rfl⟩ := List.mem_map.mp htext
        exact ⟨_, h field hfield⟩
      have hbody : Text.trim ([','].intercalate (fields.map Prod.fst)) =
          [','].intercalate (fields.map Prod.fst) :=
        trim_eq_self fun c hc => hblank c (by simp [hc])
      apply parseChars_tuple
      · exact htrim.symm ▸ hlast
      · exact htrim.symm ▸ tupleBody?_eq_some_iff.mpr rfl
      · -- a field of the tuple has something in it
        rw [hbody]
        obtain ⟨text, htext⟩ := List.exists_mem_of_ne_nil _ hne
        obtain ⟨type, htype⟩ := hmem text htext
        intro hempty
        have hpart := isInfix_intercalate htext
        rw [hempty, List.infix_nil] at hpart
        exact htype.ne_nil hpart
      · exact splitFields_intercalate hne fun text htext =>
          (hmem text htext).choose_spec.isPassed 0
      · rw [List.forall₂_map_left_iff, List.forall₂_map_right_iff, List.forall₂_same]
        exact ih

/-- **Names.** -/
theorem parseChars_eq_ok_iff {cs : List Char} (hblank : ∀ c ∈ cs, Text.isBlank c = false)
    {type : AbiType} : parseChars cs = .ok type ↔ Spells cs type :=
  ⟨spells_of_parseChars hblank, parseChars_of_spells⟩

/-! ## Refusals -/

/-- Whether an error says that some text names no type. -/
def IsTypeError (e : AbiError) : Prop := ∃ text, e = .typeParse text

theorem isTypeError_of_notAType {α : Type} {cs : List Char} {e : AbiError}
    (h : (notAType cs : Except AbiError α) = .error e) : IsTypeError e := by
  cases h
  exact ⟨_, rfl⟩

theorem isTypeError_of_splitSuffix {cs : List Char} {e : AbiError}
    (h : splitSuffix cs = .error e) : IsTypeError e := by
  unfold splitSuffix at h
  split at h
  · exact isTypeError_of_notAType h
  · split at h
    · exact isTypeError_of_notAType h
    · split at h
      · cases h
      · split at h
        · split at h
          · cases h
          · exact isTypeError_of_notAType h
        · exact isTypeError_of_notAType h

theorem isTypeError_of_parseWidth {word cs : List Char} {step max : Nat} {e : AbiError}
    (h : parseWidth word step max cs = .error e) : IsTypeError e := by
  unfold parseWidth at h
  split at h
  · cases h
  · split at h
    · exact isTypeError_of_notAType h
    · split at h
      · split at h
        · cases h
        · exact isTypeError_of_notAType h
      · exact isTypeError_of_notAType h

theorem isTypeError_of_parseWord {word : List Char} {e : AbiError}
    (h : parseWord word = .error e) : IsTypeError e := by
  unfold parseWord at h
  split at h
  · cases h
  split at h
  · cases h
  split at h
  · cases h
  split at h
  · cases h
  split at h
  · exact isTypeError_of_parseWidth (Outcome.map_eq_error_iff.mp h)
  · exact isTypeError_of_parseWidth (Outcome.map_eq_error_iff.mp h)
  · exact isTypeError_of_parseWidth (Outcome.map_eq_error_iff.mp h)
  · exact isTypeError_of_notAType h

/-- **Refusals.** Whatever is wrong with a text, the error is that some text names no type. -/
theorem isTypeError_of_parseChars {cs : List Char} {e : AbiError}
    (h : parseChars cs = .error e) : IsTypeError e := by
  fun_induction parseChars cs with
  | case1 =>
    rename_i hsuffix
    cases h
    exact isTypeError_of_splitSuffix hsuffix
  | case2 =>
    rename_i ih
    exact ih (Outcome.map_eq_error_iff.mp h)
  | case3 => exact isTypeError_of_parseWord h
  | case4 => cases h
  | case5 =>
    rename_i hfields
    cases h
    exact ⟨_, (tupleFields_eq_error_iff.mp hfields).2⟩
  | case6 =>
    rename_i ih
    obtain ⟨field, _, hfield⟩ := Outcome.exists_of_mapM_eq_error (Outcome.map_eq_error_iff.mp h)
    exact ih field hfield

end AbiType

end ChainClient
