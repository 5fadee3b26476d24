import ChainClient.Proofs.Text.Numeral
import ChainClient.Proofs.Toml.Quotation
import ChainClient.Toml.Scalar

/-!
# `ChainClient.Proofs.Toml.Scalar` — strings and counts are read back

A string is the first thing that the reader of a scalar tries. A count is the last one: a date, a
time, a float and the marked numerals of other radixes may all start with digits, so that each of
their readers has to refuse a line that holds nothing else.

## Contents
- **Lines of digits.** `IsDigitLine`, and the pieces that refuse one. What `LeavesDigits` takes some
  digits and leaves such a line.
- **Counts.** `reads_whole` reads the digits; `refuses_dateTime`, `refuses_float` and
  `refuses_marked` take none.
- **Scalars.** `reads_string` and `reads_count`.
-/

namespace ChainClient.Toml

open Reader

/-! ## Lines of digits -/

/-- A text whose first line is digits, or empty. -/
def IsDigitLine (cs : List Char) : Prop :=
  ∃ ds rest, (∀ d ∈ ds, d.isDigit = true) ∧ cs = ds ++ '\n' :: rest

variable {α β : Type} {cs rest : List Char}

theorem isDigitLine_nil (rest : List Char) : IsDigitLine ('\n' :: rest) := ⟨[], rest, nofun, rfl⟩

theorem isDigitLine_toDigits (n : Nat) (rest : List Char) :
    IsDigitLine (Nat.toDigits 10 n ++ '\n' :: rest) :=
  ⟨_, rest, fun _ => Numeral.isDigit_of_mem ⟨0, rfl⟩, rfl⟩

namespace IsDigitLine

theorem head? (h : IsDigitLine cs) : ∀ c ∈ cs.head?, c.isDigit = true ∨ c = '\n' := by
  obtain ⟨ds, rest, hds, rfl⟩ := h
  intro c hc
  cases ds with
  | nil => exact .inr (Option.some.inj hc).symm
  | cons d ds => exact .inl (Option.some.inj hc ▸ hds d List.mem_cons_self)

theorem refuses_char {kind : Char → Bool} (h : IsDigitLine cs)
    (hkind : ∀ c, c.isDigit = true ∨ c = '\n' → kind c = false) : Refuses (char kind) cs :=
  Reader.refuses_char fun c hc => hkind c (h.head? c hc)

theorem refuses_only {c : Char} (h : IsDigitLine cs) (hc : c.isDigit = false) (hbreak : c ≠ '\n') :
    Refuses (only c) cs := by
  refine (h.refuses_char fun d hd => ?_).discard
  rw [beq_eq_false_iff_ne]
  rintro rfl
  rcases hd with hdigit | rfl
  · exact absurd hdigit (Bool.eq_false_iff.mp hc)
  · exact hbreak rfl

/-- No word with a letter in it starts such a line. -/
theorem refuses_word {text : String} (h : IsDigitLine cs) (hbreak : '\n' ∉ text.toList)
    (hletter : ∃ c ∈ text.toList, c.isDigit = false) : Refuses (word text) cs := by
  obtain ⟨ds, rest, hds, rfl⟩ := h
  obtain ⟨c, hc, hdigit⟩ := hletter
  refine Reader.refuses_word fun hprefix => ?_
  rcases Nat.lt_or_ge ds.length text.toList.length with hlt | hge
  · have hline : ds ++ ['\n'] <+: ds ++ '\n' :: rest := by
      rw [List.prefix_append_right_inj]
      exact ⟨rest, rfl⟩
    have hlength : (ds ++ ['\n']).length ≤ text.toList.length := by
      rw [List.length_append]
      exact hlt
    have hmem := (List.prefix_of_prefix_length_le hline hprefix hlength).subset
      (List.mem_append_right ds List.mem_cons_self)
    exact hbreak hmem
  · have hmem := (List.prefix_of_prefix_length_le hprefix (List.prefix_append ds _) hge).subset hc
    exact absurd (hds c hmem) (Bool.eq_false_iff.mp hdigit)

theorem refuses_either {c d : Char} (h : IsDigitLine cs) (hc : c.isDigit = false ∧ c ≠ '\n')
    (hd : d.isDigit = false ∧ d ≠ '\n') : Refuses (char fun e => e == c || e == d) cs := by
  refine h.refuses_char fun e he => ?_
  rw [Bool.or_eq_false_iff, beq_eq_false_iff_ne, beq_eq_false_iff_ne]
  constructor <;> rintro rfl
  · exact he.elim (fun hdigit => Bool.eq_false_iff.mp hc.1 hdigit) hc.2
  · exact he.elim (fun hdigit => Bool.eq_false_iff.mp hd.1 hdigit) hd.2

theorem refuses_sign (h : IsDigitLine cs) : Refuses sign cs :=
  h.refuses_either (by decide) (by decide)

theorem refuses_exponent (h : IsDigitLine cs) : Refuses exponent cs :=
  (h.refuses_either (by decide) (by decide)).discard.bind _

theorem refuses_quotation (h : IsDigitLine cs) : Refuses quotation cs := by
  have hdouble : Refuses (only doubleQuote) cs := h.refuses_only rfl (by decide)
  have hsingle : Refuses (only singleQuote) cs := h.refuses_only rfl (by decide)
  refine Refuses.map ?_ _
  refine Refuses.orElse ?_ (Refuses.orElse ?_ (Refuses.orElse ?_ ?_))
  · exact ((((hdouble.seqRight _).seqRight _).seqLeft _).bind _)
  · exact (hdouble.seqRight _).seqLeft _
  · exact ((((hsingle.seqRight _).seqRight _).seqLeft _).bind _)
  · exact (hsingle.seqRight _).seqLeft _

theorem refuses_boolean (h : IsDigitLine cs) : Refuses Reader.boolean cs := by
  have htrue : Refuses (word "true") cs := h.refuses_word (by decide) ⟨'t', by decide, rfl⟩
  have hfalse : Refuses (word "false") cs := h.refuses_word (by decide) ⟨'f', by decide, rfl⟩
  exact (htrue.seqRight _).orElse (hfalse.seqRight _)

end IsDigitLine

/-- A step that takes no more than digits of such a line. -/
def LeavesDigits (step : Reader α) : Prop :=
  ∀ cs, IsDigitLine cs → Refuses step cs ∨ ∃ a rest, Reads step cs a rest ∧ IsDigitLine rest

/-- What follows the digits is refused. -/
theorem LeavesDigits.refuses_bind {step : Reader α} {f : α → Reader β} (hstep : LeavesDigits step)
    (hf : ∀ a {rest}, IsDigitLine rest → Refuses (f a) rest) (h : IsDigitLine cs) :
    Refuses (step >>= f) cs := by
  rcases hstep cs h with hrefuses | ⟨a, rest, hreads, hrest⟩
  · exact hrefuses.bind f
  · exact hreads.bind_refuses (hf a hrest)

theorem leavesDigits_count (n : Nat) : LeavesDigits (count n) := by
  rintro cs ⟨ds, rest, hds, rfl⟩
  by_cases h : ((ds ++ '\n' :: rest).take n).length = n ∧
      ((ds ++ '\n' :: rest).take n).all Char.isDigit = true
  · have hle : n ≤ ds.length := by
      by_contra hlt
      have hmem : '\n' ∈ (ds ++ '\n' :: rest).take n := by
        rw [List.take_append, List.take_cons (by omega)]
        exact List.mem_append_right _ List.mem_cons_self
      exact absurd (List.all_eq_true.mp h.2 _ hmem) (by decide)
    refine .inr ⟨_, _, if_pos h, ds.drop n, rest, fun d hd => hds d (List.mem_of_mem_drop hd), ?_⟩
    exact List.drop_append_of_le_length hle
  · exact .inl (if_neg h)

theorem leavesDigits_between (n low high : Nat) : LeavesDigits (discard (between n low high)) := by
  intro cs h
  rcases leavesDigits_count n cs h with hrefuses | ⟨value, rest, hreads, hrest⟩
  · exact .inl (hrefuses.bind _).discard
  · by_cases hvalue : low ≤ value ∧ value ≤ high
    · have hbetween : Reads (between n low high) cs value rest := by
        refine hreads.bind ?_
        rw [if_pos hvalue]
        exact reads_pure value rest
      exact .inr ⟨(), rest, hbetween.discard, hrest⟩
    · have hbetween : Refuses (between n low high) cs := by
        refine hreads.bind_refuses ?_
        rw [if_neg hvalue]
        exact refuses_failure rest
      exact .inl hbetween.discard

/-! ## Counts -/

theorem refuses_taken {step : Reader α} (h : Refuses step cs) : Refuses (taken step) cs := by
  have hrun : step cs = none := h
  show (step cs).map _ = none
  rw [hrun]
  rfl

theorem refuses_dateTime (h : IsDigitLine cs) : Refuses Reader.dateTime cs := by
  have hdate : Refuses date cs := by
    refine (leavesDigits_count 4).refuses_bind (fun _ rest hrest => ?_) h
    exact (hrest.refuses_only rfl (by decide)).bind _
  have htime : Refuses time cs := by
    refine (leavesDigits_between 2 0 23).refuses_bind (fun _ rest hrest => ?_) h
    exact (hrest.refuses_only rfl (by decide)).bind _
  exact (refuses_taken ((hdate.seqRight _).orElse htime)).bind _

theorem reads_digits {ds : List Char} (hne : ds ≠ []) (hds : ∀ d ∈ ds, d.isDigit = true)
    (rest : List Char) : Reads (digits Char.isDigit) (ds ++ '\n' :: rest) ds ('\n' :: rest) := by
  have hmore (more : List Char) (hmore : ∀ d ∈ more, d.isDigit = true) :
      Reads (many (opt (only '_') *> char Char.isDigit)) (more ++ '\n' :: rest) more
        ('\n' :: rest) := by
    induction more with
    | nil =>
      have hline : IsDigitLine ('\n' :: rest) := isDigitLine_nil rest
      refine reads_many_nil ((reads_opt_none ?_).seqRight_refuses ?_)
      · exact hline.refuses_only rfl (by decide)
      · exact refuses_char_cons rfl rest
    | cons d more ih =>
      have hd := hmore d List.mem_cons_self
      have hunder : Refuses (only '_') (d :: (more ++ '\n' :: rest)) := by
        refine refuses_only_cons ?_ _
        rintro rfl
        exact absurd hd (by decide)
      have hdigit := (reads_opt_none hunder).seqRight (reads_char hd _)
      have htail := ih fun e he => hmore e (List.mem_cons_of_mem d he)
      show Reads _ ([d] ++ (more ++ '\n' :: rest)) _ _
      exact hdigit.many (List.cons_ne_nil d []) htail
  cases ds with
  | nil => exact absurd rfl hne
  | cons d ds =>
    refine (reads_char (hds d List.mem_cons_self) _).bind ?_
    exact (hmore ds fun e he => hds e (List.mem_cons_of_mem d he)).bind (reads_pure _ _)

theorem reads_whole (n : Nat) (rest : List Char) :
    Reads whole (Nat.toDigits 10 n ++ '\n' :: rest) (Nat.toDigits 10 n) ('\n' :: rest) := by
  rcases Nat.eq_zero_or_pos n with rfl | hn
  · exact ((reads_only '0' _).seqRight (reads_pure _ _)).orElse _
  · have hzero : Refuses (only '0') (Nat.toDigits 10 n ++ '\n' :: rest) := by
      refine refuses_only ?_
      rw [List.head?_append_of_ne_nil _ Nat.toDigits_ne_nil]
      exact Numeral.head?_toDigits hn
    refine (hzero.seqRight _).orElse_reads (reads_digits Nat.toDigits_ne_nil ?_ rest)
    exact fun d => Numeral.isDigit_of_mem ⟨0, rfl⟩

theorem refuses_float (n : Nat) (rest : List Char) :
    Refuses Reader.float (Nat.toDigits 10 n ++ '\n' :: rest) := by
  have hline := isDigitLine_toDigits n rest
  have hsign := reads_opt_none hline.refuses_sign
  have hfinite : Refuses finite (Nat.toDigits 10 n ++ '\n' :: rest) := by
    -- behind the digits there is neither an exponent nor a point
    have hend := isDigitLine_nil rest
    refine hsign.bind_refuses ((reads_whole n rest).bind_refuses (Refuses.bind ?_ _))
    refine (hend.refuses_exponent.bind _).orElse (Refuses.bind ?_ _)
    exact (hend.refuses_only rfl (by decide)).seqRight _
  have hinf : Refuses (word "inf") _ := hline.refuses_word (by decide) ⟨'i', by decide, rfl⟩
  have hnan : Refuses (word "nan") _ := hline.refuses_word (by decide) ⟨'n', by decide, rfl⟩
  refine (refuses_taken (hfinite.orElse ?_)).bind _
  exact hsign.seqRight_refuses (hinf.orElse hnan)

theorem refuses_marked (h : IsDigitLine cs) {mark : String} (hbreak : '\n' ∉ mark.toList)
    (hletter : ∃ c ∈ mark.toList, c.isDigit = false) (radix : Nat) :
    Refuses (marked mark radix) cs := (h.refuses_word hbreak hletter).bind _

theorem dropUnderscores_toDigits (n : Nat) :
    dropUnderscores (Nat.toDigits 10 n) = Nat.toDigits 10 n := by
  refine List.filter_eq_self.mpr fun d hd => bne_iff_ne.mpr ?_
  rintro rfl
  exact absurd (Numeral.isDigit_of_mem (n := n) ⟨0, rfl⟩ hd) (by decide)

theorem reads_decimal {n : Nat} (h : n < bitBound 63) (rest : List Char) :
    Reads decimal (Nat.toDigits 10 n ++ '\n' :: rest) (.integer n) ('\n' :: rest) := by
  have hline := isDigitLine_toDigits n rest
  refine (reads_opt_none hline.refuses_sign).bind ((reads_whole n rest).bind ?_)
  rw [dropUnderscores_toDigits, Numeral.readNat?_toDigits]
  have hrange : -(bitBound 63 : Int) ≤ (n : Int) ∧ (n : Int) < bitBound 63 := by omega
  show Reads (integerOf n) _ _ _
  rw [integerOf, if_pos hrange]
  exact reads_pure _ _

/-! ## Scalars -/

/-- **Strings.** -/
theorem reads_string (hrest : rest.head? ≠ some doubleQuote ∧ rest.head? ≠ some singleQuote)
    (cs : List Char) : Reads scalar (quote cs ++ rest) (.string (String.ofList cs)) rest :=
  ((reads_quotation hrest).map Toml.string).orElse _

/-- **Counts** of 63 bits. -/
theorem reads_count {n : Nat} (h : n < bitBound 63) (rest : List Char) :
    Reads scalar (n.repr.toList ++ '\n' :: rest) (.integer n) ('\n' :: rest) := by
  have hline := isDigitLine_toDigits n rest
  rw [Nat.toList_repr]
  refine (hline.refuses_quotation.map _).orElse_reads ?_
  refine hline.refuses_boolean.orElse_reads ?_
  refine (refuses_dateTime hline).orElse_reads ?_
  refine (refuses_float n rest).orElse_reads ?_
  refine (refuses_marked hline (by decide) ⟨'x', by decide, rfl⟩ 16).orElse_reads ?_
  refine (refuses_marked hline (by decide) ⟨'o', by decide, rfl⟩ 8).orElse_reads ?_
  refine (refuses_marked hline (by decide) ⟨'b', by decide, rfl⟩ 2).orElse_reads ?_
  exact reads_decimal h rest

end ChainClient.Toml
