import ChainClient.Proofs.Abi.Spelling

/-!
# `ChainClient.Proofs.Abi.Balance` — fields and matching parentheses

Whether the inside of a tuple can be taken apart depends on its parentheses alone, and these are
stated here by counting: a text is balanced if no front of it closes more parentheses than it opens,
and the whole text as many. Where a text begins inside parentheses, the ones that are open count as
well; so the laws below say what one character does to that number, and each result about a text is
an induction over its characters.

## Contents
- **Counting.** `BalancedFrom` and `CommasInsideFrom`, behind a number of open parentheses, and
  `IsFieldFrom` for both; `balancedFrom_cons_iff` and `commasInsideFrom_cons_iff` go past a
  character.
- **Splitting.** Balanced texts are the ones that can be split (`isSome_splitFields_iff`), into
  fields (`isFieldFrom_of_splitFields`); fields are passed over (`isPassed_of_isField`).
- **Tuples.** `tupleFields_exact`.
-/

namespace ChainClient

namespace AbiType

/-! ## Counting -/

/-- **Matching parentheses**, where `depth` of them are open in front: no front of the text closes
    more than are open, and none stays open. -/
structure BalancedFrom (depth : Nat) (cs : List Char) : Prop where
  front : ∀ front, front <+: cs → front.count ')' ≤ depth + front.count '('
  whole : cs.count ')' = depth + cs.count '('

/-- **Commas inside parentheses**, where `depth` of them are open in front: at every comma, one is
    open. -/
def CommasInsideFrom (depth : Nat) (cs : List Char) : Prop :=
  ∀ front, front ++ [','] <+: cs → front.count ')' < depth + front.count '('

/-- A field, where `depth` parentheses are open in front. -/
structure IsFieldFrom (depth : Nat) (cs : List Char) : Prop where
  balanced : BalancedFrom depth cs
  commas : CommasInsideFrom depth cs

/-- A text whose parentheses match. -/
abbrev Balanced (cs : List Char) : Prop := BalancedFrom 0 cs

/-- A text whose parentheses match, and whose commas stand inside them. -/
abbrev IsField (cs : List Char) : Prop := IsFieldFrom 0 cs

variable {depth later : Nat} {c : Char} {cs : List Char}

/-- The parentheses that are open behind a character are those in front of it, one more behind an
    opening one and one fewer behind a closing one. -/
def Passes (depth : Nat) (c : Char) (later : Nat) : Prop :=
  depth + [c].count '(' = later + [c].count ')'

theorem passes_open (depth : Nat) : Passes depth '(' (depth + 1) := rfl

theorem passes_close (depth : Nat) : Passes (depth + 1) ')' depth := rfl

theorem passes_other (hopen : c ≠ '(') (hclose : c ≠ ')') : Passes depth c depth := by
  rw [Passes, List.count_singleton, List.count_singleton, if_neg (by simpa using hopen),
    if_neg (by simpa using hclose)]

theorem count_cons (x c : Char) (cs : List Char) :
    (c :: cs).count x = [c].count x + cs.count x := by
  rw [← List.count_append, List.singleton_append]

theorem balancedFrom_nil_iff : BalancedFrom depth [] ↔ depth = 0 := by
  constructor
  · intro h
    exact h.whole.symm
  · rintro rfl
    exact ⟨fun front hfront => by rw [List.prefix_nil.mp hfront]; rfl, rfl⟩

/-- Going past a character. -/
theorem balancedFrom_cons_iff (h : Passes depth c later) :
    BalancedFrom depth (c :: cs) ↔ BalancedFrom later cs := by
  unfold Passes at h
  constructor
  · intro hbalanced
    refine ⟨fun front hfront => ?_, ?_⟩
    · have := hbalanced.front (c :: front) (List.cons_prefix_cons.mpr ⟨rfl, hfront⟩)
      rw [count_cons, count_cons '('] at this
      omega
    · have := hbalanced.whole
      rw [count_cons, count_cons '('] at this
      omega
  · intro hbalanced
    refine ⟨fun front hfront => ?_, ?_⟩
    · rcases List.prefix_cons_iff.mp hfront with rfl | ⟨front', rfl, hfront'⟩
      · exact Nat.zero_le _
      · have := hbalanced.front front' hfront'
        rw [count_cons, count_cons '(']
        omega
    · have := hbalanced.whole
      rw [count_cons, count_cons '(']
      omega

/-- A parenthesis that closes nothing. -/
theorem not_balancedFrom_close : ¬ BalancedFrom 0 (')' :: cs) := by
  intro h
  have := h.front [')'] (List.cons_prefix_cons.mpr ⟨rfl, List.nil_prefix⟩)
  exact absurd this (by decide)

theorem commasInsideFrom_nil : CommasInsideFrom depth [] := by
  intro front hfront
  have hne := List.append_ne_nil_of_right_ne_nil front (List.cons_ne_nil ',' [])
  exact absurd (List.prefix_nil.mp hfront) hne

/-- Going past a character that is no comma outside parentheses. -/
theorem commasInsideFrom_cons_iff (h : Passes depth c later) (hcomma : c = ',' → depth ≠ 0) :
    CommasInsideFrom depth (c :: cs) ↔ CommasInsideFrom later cs := by
  unfold Passes at h
  constructor
  · intro hcommas front hfront
    have := hcommas (c :: front) (List.cons_prefix_cons.mpr ⟨rfl, hfront⟩)
    rw [count_cons, count_cons '('] at this
    omega
  · intro hcommas front hfront
    cases front with
    | nil =>
      obtain ⟨rfl, -⟩ := List.cons_prefix_cons.mp hfront
      exact Nat.pos_of_ne_zero (hcomma rfl)
    | cons d front =>
      obtain ⟨rfl, hrest⟩ := List.cons_prefix_cons.mp hfront
      have := hcommas front hrest
      rw [count_cons, count_cons '(']
      omega

theorem isFieldFrom_nil : IsFieldFrom 0 [] := ⟨balancedFrom_nil_iff.mpr rfl, commasInsideFrom_nil⟩

theorem isFieldFrom_cons_iff (h : Passes depth c later) (hcomma : c = ',' → depth ≠ 0) :
    IsFieldFrom depth (c :: cs) ↔ IsFieldFrom later cs :=
  ⟨fun hfield => ⟨(balancedFrom_cons_iff h).mp hfield.balanced,
      (commasInsideFrom_cons_iff h hcomma).mp hfield.commas⟩,
    fun hfield => ⟨(balancedFrom_cons_iff h).mpr hfield.balanced,
      (commasInsideFrom_cons_iff h hcomma).mpr hfield.commas⟩⟩

/-! ## Splitting -/

/-- The recursion meets a closing parenthesis in two cases, with none open and with some. -/
theorem ne_close (hzero : depth = 0 → c = ')' → False)
    (hsucc : ∀ n, depth = n + 1 → c = ')' → False) : c ≠ ')' := by
  rintro rfl
  cases depth with
  | zero => exact hzero rfl rfl
  | succ depth => exact hsucc depth rfl rfl

/-- **Balanced texts** are the ones that can be split. -/
theorem isSome_splitFields_iff : (splitFields depth cs).isSome ↔ BalancedFrom depth cs := by
  fun_induction splitFields depth cs with
  | case1 => exact iff_of_true rfl (balancedFrom_nil_iff.mpr rfl)
  | case2 depth =>
    exact iff_of_false (by simp) fun h => Nat.succ_ne_zero depth (balancedFrom_nil_iff.mp h)
  | case3 depth rest ih => rw [Option.isSome_map, ih, balancedFrom_cons_iff (passes_open depth)]
  | case4 => exact iff_of_false (by simp) not_balancedFrom_close
  | case5 depth rest ih => rw [Option.isSome_map, ih, balancedFrom_cons_iff (passes_close depth)]
  | case6 rest ih =>
    rw [Option.isSome_map, ih, balancedFrom_cons_iff (passes_other (by decide) (by decide))]
  | case7 depth c rest hopen hclose hclose' _ ih =>
    rw [Option.isSome_map, ih, balancedFrom_cons_iff (passes_other hopen (ne_close hclose hclose'))]

/-- A character goes into the first field. -/
theorem exists_of_map_pushFront {first : List Char} {others : List (List Char)}
    (h : (splitFields depth cs).map (pushFront c) = some (first :: others)) :
    ∃ front, splitFields depth cs = some (front :: others) ∧ first = c :: front := by
  obtain ⟨fields, hfields, hpush⟩ := Option.map_eq_some_iff.mp h
  obtain ⟨front, rest, rfl⟩ :=
    List.exists_cons_of_ne_nil (intercalate_of_splitFields hfields).1
  obtain ⟨rfl, rfl⟩ := List.cons.inj hpush
  exact ⟨front, hfields, rfl⟩

/-- Fields are what texts are split into. The first one begins inside the open parentheses. -/
theorem isFieldFrom_of_splitFields {first : List Char} {others : List (List Char)}
    (h : splitFields depth cs = some (first :: others)) :
    IsFieldFrom depth first ∧ ∀ field ∈ others, IsField field := by
  fun_induction splitFields depth cs generalizing first others with
  | case1 =>
    cases h
    exact ⟨isFieldFrom_nil, List.forall_mem_nil _⟩
  | case2 => cases h
  | case3 depth rest ih =>
    obtain ⟨front, hfront, rfl⟩ := exists_of_map_pushFront h
    obtain ⟨hfield, hothers⟩ := ih hfront
    have hcomma : '(' = ',' → depth ≠ 0 := fun h => absurd h (by decide)
    exact ⟨(isFieldFrom_cons_iff (passes_open depth) hcomma).mpr hfield, hothers⟩
  | case4 => cases h
  | case5 depth rest ih =>
    obtain ⟨front, hfront, rfl⟩ := exists_of_map_pushFront h
    obtain ⟨hfield, hothers⟩ := ih hfront
    have hcomma : ')' = ',' → depth + 1 ≠ 0 := fun _ => Nat.succ_ne_zero depth
    exact ⟨(isFieldFrom_cons_iff (passes_close depth) hcomma).mpr hfield, hothers⟩
  | case6 rest ih =>
    -- a comma that cuts
    obtain ⟨fields, hfields, hcut⟩ := Option.map_eq_some_iff.mp h
    obtain ⟨rfl, rfl⟩ := List.cons.inj hcut
    obtain ⟨front, others, rfl⟩ :=
      List.exists_cons_of_ne_nil (intercalate_of_splitFields hfields).1
    exact ⟨isFieldFrom_nil, List.forall_mem_cons.mpr (ih hfields)⟩
  | case7 depth c rest hopen hclose hclose' hcomma ih =>
    obtain ⟨front, hfront, rfl⟩ := exists_of_map_pushFront h
    obtain ⟨hfield, hothers⟩ := ih hfront
    have hpasses : Passes depth c depth := passes_other hopen (ne_close hclose hclose')
    exact ⟨(isFieldFrom_cons_iff hpasses fun hc hdepth => hcomma hdepth hc).mpr hfield, hothers⟩

/-- What closes the open parentheses, and has its commas inside them, is passed over. -/
theorem splitFields_append (h : IsFieldFrom depth cs) (rest : List Char) :
    splitFields depth (cs ++ rest) = (splitFields 0 rest).map (pushAll cs) := by
  induction cs generalizing depth with
  | nil =>
    rw [balancedFrom_nil_iff.mp h.balanced]
    exact Option.map_id'.symm
  | cons c cs ih =>
    have hpush {later : Nat} (hpasses : Passes depth c later) (hcomma : c = ',' → depth ≠ 0)
        (hsplit : splitFields depth (c :: (cs ++ rest)) =
          (splitFields later (cs ++ rest)).map (pushFront c)) :
        splitFields depth (c :: cs ++ rest) = (splitFields 0 rest).map (pushAll (c :: cs)) := by
      rw [List.cons_append, hsplit, ih ((isFieldFrom_cons_iff hpasses hcomma).mp h), Option.map_map]
      rfl
    by_cases hopen : c = '('
    · subst hopen
      have hcomma : '(' = ',' → depth ≠ 0 := fun h => absurd h (by decide)
      exact hpush (passes_open depth) hcomma (by rw [splitFields])
    by_cases hclose : c = ')'
    · subst hclose
      cases depth with
      | zero => exact (not_balancedFrom_close h.balanced).elim
      | succ depth =>
        exact hpush (passes_close depth) (fun _ => Nat.succ_ne_zero depth) (by rw [splitFields])
    · have hcomma : c = ',' → depth ≠ 0 := by
        rintro rfl
        have hfront : [','] <+: ',' :: cs := List.cons_prefix_cons.mpr ⟨rfl, List.nil_prefix⟩
        exact Nat.pos_iff_ne_zero.mp (h.commas [] hfront)
      exact hpush (passes_other hopen hclose) hcomma (splitFields_cons hopen hclose hcomma _)

theorem isPassed_of_isField (h : IsField cs) : IsPassed 0 cs := splitFields_append h

/-! ## Tuples -/

/-- **The inside of a tuple** is taken apart if and only if its parentheses match; otherwise the
    error names it. The fields are the texts with matching parentheses, and no comma outside them,
    that commas join to the inside of the tuple; there are no others. -/
theorem tupleFields_exact (body : List Char) :
    ((∃ fields, tupleFields body = .ok fields) ↔ Balanced body) ∧
    (tupleFields body = .error (.typeParse (String.ofList body)) ↔ ¬ Balanced body) ∧
    ∀ fields, tupleFields body = .ok fields ↔
      fields ≠ [] ∧ [','].intercalate fields = body ∧ ∀ field ∈ fields, IsField field := by
  refine ⟨?_, ?_, fun fields => ⟨fun h => ?_, ?_⟩⟩
  · simp only [tupleFields_eq_ok_iff]
    rw [← Option.isSome_iff_exists, isSome_splitFields_iff]
  · rw [tupleFields_eq_error_iff, and_iff_left rfl, Balanced, ← isSome_splitFields_iff,
      Option.not_isSome_iff_eq_none]
  · have hsplit := tupleFields_eq_ok_iff.mp h
    obtain ⟨hne, hjoin⟩ := intercalate_of_splitFields hsplit
    obtain ⟨first, others, rfl⟩ := List.exists_cons_of_ne_nil hne
    exact ⟨hne, hjoin, List.forall_mem_cons.mpr (isFieldFrom_of_splitFields hsplit)⟩
  · rintro ⟨hne, rfl, hfields⟩
    exact tupleFields_eq_ok_iff.mpr
      (splitFields_intercalate hne fun field hfield => isPassed_of_isField (hfields field hfield))

/-- Positions are counted in bytes, so wide characters in front of a comma do not shift the cut. -/
example : tupleFields "é,(a,(b,)),,𝕏".toList =
    .ok ["é".toList, "(a,(b,))".toList, [], "𝕏".toList] := by decide

end AbiType

end ChainClient
