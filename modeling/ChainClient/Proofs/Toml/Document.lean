import ChainClient.Proofs.Toml.Scalar
import ChainClient.Toml.Document

/-!
# `ChainClient.Proofs.Toml.Document` — lines of keys and values are read back

A document without headers is a table, one line an entry. Its keys need no quotes, and each of its
values is the text of a scalar, which ends with its line.

## Contents
- **Lines.** `IsBareKey` and `IsValueText` say what stands around the equals sign; `reads_line`
  reads both.
- **Documents.** `IsDocument` ties a text to its entries, and `reads_lines` reads all of its lines.
- **Tables.** `foldlM_lineOfEntry`: lines with different keys add up to a table in their order. So
  `parse_of_isDocument`.
-/

namespace ChainClient.Toml

open Reader

variable {key : String} {text cs rest : List Char} {v : Toml}

/-! ## Lines -/

/-- A key that needs no quotes. -/
def IsBareKey (key : String) : Prop := key.toList ≠ [] ∧ key.toList.all isBare = true

instance (key : String) : Decidable (IsBareKey key) :=
  inferInstanceAs (Decidable (key.toList ≠ [] ∧ key.toList.all isBare = true))

theorem IsBareKey.exists_cons (h : IsBareKey key) :
    ∃ c cs, key.toList = c :: cs ∧ isBare c = true ∧ ∀ d ∈ cs, isBare d = true := by
  obtain ⟨c, cs, hkey⟩ := List.exists_cons_of_ne_nil h.1
  have hbare := h.2
  rw [hkey, List.all_cons, Bool.and_eq_true, List.all_eq_true] at hbare
  exact ⟨c, cs, hkey, hbare.1, hbare.2⟩

section

variable {c : Char} (hc : isBare c = true)

include hc

theorem ne_of_isBare {d : Char} (hd : isBare d = false) : c ≠ d := by
  rintro rfl
  rw [hc] at hd
  cases hd

theorem refuses_only_of_isBare {d : Char} (hd : isBare d = false) (cs : List Char) :
    Refuses (only d) (c :: cs) := refuses_only_cons (ne_of_isBare hc hd) cs

theorem reads_blanks_of_isBare (cs : List Char) : Reads blanks (c :: cs) () (c :: cs) :=
  reads_blanks_none (isBlank_of_ne (ne_of_isBare hc rfl) (ne_of_isBare hc rfl)) cs

/-- No line but that of a pair starts with a character of a key. -/
theorem reads_line_of_pair {mid : List Char} {l : Line} (hpair : Reads pairLine (c :: cs) l mid)
    (hend : Reads lineEnd mid () rest) : Reads line (c :: cs) l rest := by
  have hnewline : Refuses newline (c :: cs) :=
    refuses_newline ⟨ne_of_isBare hc rfl, ne_of_isBare hc rfl⟩ cs
  have hcomment : Refuses comment (c :: cs) := (refuses_only_of_isBare hc rfl cs).seqRight _
  have hrepeated : Refuses repeatedHeaderLine (c :: cs) := by
    refine (refuses_word ?_).bind _
    rintro ⟨more, hmore⟩
    exact ne_of_isBare hc (d := '[') rfl (List.cons.inj hmore).1.symm
  have hheader : Refuses headerLine (c :: cs) := (refuses_only_of_isBare hc rfl cs).bind _
  refine (reads_blanks_of_isBare hc cs).seqRight ?_
  refine Refuses.orElse_reads ((hnewline.orElse (hcomment.seqRight _)).seqRight _) ?_
  exact (hrepeated.orElse_reads (hheader.orElse_reads hpair)).seqLeft hend

end

/-- The text of a scalar, up to the end of its line. -/
structure IsValueText (text : List Char) (v : Toml) : Prop where
  head : ∀ rest, ∀ c ∈ (text ++ '\n' :: rest).head?, isBlank c = false
  reads : ∀ rest, Reads scalar (text ++ '\n' :: rest) v ('\n' :: rest)

theorem isValueText_quote (s : String) : IsValueText (quote s.toList) (.string s) where
  head rest := by
    have hform := quoted_quote s.toList
    generalize quote s.toList = text at hform
    cases hform <;> exact fun c hc => Option.some.inj hc ▸ rfl
  reads rest := by
    have hend : ('\n' :: rest).head? ≠ some doubleQuote ∧ ('\n' :: rest).head? ≠ some singleQuote :=
      ⟨by simp [doubleQuote], by simp [singleQuote]⟩
    have hread := reads_string hend s.toList
    rwa [String.ofList_toList] at hread

theorem isValueText_repr {n : Nat} (h : n < bitBound 63) :
    IsValueText n.repr.toList (.integer n) where
  head rest := by
    rw [Nat.toList_repr]
    intro c hc
    rcases (isDigitLine_toDigits n rest).head? c hc with hdigit | rfl
    · refine isBlank_of_ne ?_ ?_ <;> rintro rfl <;> exact absurd hdigit (by decide)
    · rfl
  reads rest := reads_count h rest

theorem reads_blank (h : ∀ c ∈ cs.head?, isBlank c = false) : Reads blanks (' ' :: cs) () cs := by
  have hspan : Reads (span isBlank) ([' '] ++ cs) [' '] cs :=
    reads_span (fun c hc => List.mem_singleton.mp hc ▸ rfl) h
  exact hspan.discard

/-- **A key** before its equals sign. -/
theorem reads_key (hkey : IsBareKey key) (rest : List Char) :
    Reads Reader.key (key.toList ++ ' ' :: '=' :: rest) ([], key) ('=' :: rest) := by
  obtain ⟨c, cs, htext, hc, hcs⟩ := hkey.exists_cons
  have hkeyText : key = String.ofList (c :: cs) := by rw [← htext, String.ofList_toList]
  rw [hkeyText, String.toList_ofList]
  have hpart : Reads keyPart (c :: (cs ++ ' ' :: '=' :: rest)) (String.ofList (c :: cs))
      (' ' :: '=' :: rest) := by
    have hdouble := refuses_only_of_isBare hc (d := doubleQuote) (by decide)
    have hsingle := refuses_only_of_isBare hc (d := singleQuote) (by decide)
    refine Reads.map ?_ String.ofList
    refine (((hdouble _).seqRight _).seqLeft _).orElse_reads ?_
    refine (((hsingle _).seqRight _).seqLeft _).orElse_reads ?_
    refine (reads_char hc _).bind ((reads_span hcs ?_).bind (reads_pure _ _))
    exact fun d hd => Option.some.inj hd ▸ rfl
  have hend : Reads blanks (' ' :: '=' :: rest) () ('=' :: rest) :=
    reads_blank fun d hd => Option.some.inj hd ▸ rfl
  have hmore : Reads (many (only '.' *> (blanks *> keyPart <* blanks))) ('=' :: rest) []
      ('=' :: rest) :=
    reads_many_nil ((refuses_only_cons (by decide) rest).seqRight _)
  have hparts : Reads (separated (only '.') (blanks *> keyPart <* blanks))
      (c :: (cs ++ ' ' :: '=' :: rest)) [String.ofList (c :: cs)] ('=' :: rest) := by
    refine (((reads_blanks_of_isBare hc _).seqRight hpart).seqLeft hend).bind ?_
    exact hmore.bind (reads_pure _ _)
  exact hparts.bind (reads_pure ([], String.ofList (c :: cs)) _)

theorem pairText_append (key : String) (text rest : List Char) :
    pairText key text ++ rest = key.toList ++ ' ' :: '=' :: ' ' :: (text ++ '\n' :: rest) := by
  simp [pairText]

/-- **The line** of a key and its value. -/
theorem reads_line (hkey : IsBareKey key) (hvalue : IsValueText text v) (rest : List Char) :
    Reads line (pairText key text ++ rest) (.pair [] key v) rest := by
  obtain ⟨c, cs, htext, hc, -⟩ := hkey.exists_cons
  have hvalue' : Reads (value (depthBound - 1)) (text ++ '\n' :: rest) v ('\n' :: rest) :=
    (hvalue.reads rest).orElse _
  have hpair : Reads (pairOf (value (depthBound - 1))) (pairText key text ++ rest) (([], key), v)
      ('\n' :: rest) := by
    rw [pairText_append]
    refine (reads_key hkey _).bind ?_
    refine (reads_only '=' _).bind ?_
    refine (reads_blank (hvalue.head rest)).bind ?_
    exact hvalue'.bind (reads_pure _ _)
  have hend : Reads lineEnd ('\n' :: rest) () rest := by
    have hblanks : Reads blanks ('\n' :: rest) () ('\n' :: rest) := reads_blanks_none rfl rest
    have hcomment : Refuses comment ('\n' :: rest) :=
      (refuses_only_cons (by decide) rest).seqRight _
    exact (hblanks.seqRight (reads_opt_none hcomment).discard).seqRight
      ((reads_only '\n' rest).orElse _)
  rw [pairText_append, htext] at hpair ⊢
  exact reads_line_of_pair hc (hpair.bind (reads_pure _ _)) hend

/-! ## Documents -/

/-- The line that adds an entry. -/
def lineOfEntry (entry : String × Toml) : Line := .pair [] entry.1 entry.2

/-- A text of lines, and the entries of the table that they write. -/
inductive IsDocument : List Char → Entries → Prop where
  | nil : IsDocument [] []
  | cons {key : String} {text cs : List Char} {v : Toml} {entries : Entries}
      (hkey : IsBareKey key) (hvalue : IsValueText text v) (hrest : IsDocument cs entries) :
      IsDocument (pairText key text ++ cs) ((key, v) :: entries)

variable {entries : Entries}

theorem IsDocument.reads_many_line (h : IsDocument cs entries) :
    Reads (many line) cs (entries.map lineOfEntry) [] := by
  induction h with
  | nil =>
    have hline : Refuses line [] := rfl
    exact reads_many_nil hline
  | @cons key text cs v entries hkey hvalue _ ih =>
    refine (reads_line hkey hvalue cs).many ?_ ih
    simp [pairText]

/-- **All lines** of a document. -/
theorem IsDocument.reads_lines (h : IsDocument cs entries) :
    Reads lines cs (entries.map lineOfEntry) [] := by
  have hmark : Refuses (only (Char.ofNat 0xFEFF)) cs := by
    cases h with
    | nil => rfl
    | @cons key text cs v entries hkey =>
      obtain ⟨c, more, htext, hc, -⟩ := hkey.exists_cons
      rw [pairText_append, htext]
      exact refuses_only_of_isBare hc (by decide) _
  have hblanks : Reads blanks [] () [] := rfl
  have hend : Reads endOfText [] () [] := rfl
  exact (((reads_opt_none hmark).seqRight h.reads_many_line).seqLeft hblanks).seqLeft hend

/-! ## Tables -/

/-- A new key goes behind the others. -/
theorem insert_of_not_mem (v : Toml) (h : key ∉ entries.map (·.1)) :
    insert key v [] true entries = some (entries ++ [(key, v)]) := by
  rw [insert, if_pos rfl]
  induction entries with
  | nil => rfl
  | cons entry entries ih =>
    rw [List.map_cons, List.mem_cons, not_or] at h
    rw [alter, if_neg (Ne.symm h.1), ih h.2]
    rfl

/-- Lines with different keys add up to a table, in their order. -/
theorem foldlM_lineOfEntry (front : Entries) (h : ((front ++ entries).map (·.1)).Nodup) :
    (entries.map lineOfEntry).foldlM Line.apply ⟨[], front⟩ = some ⟨[], front ++ entries⟩ := by
  induction entries generalizing front with
  | nil => rw [List.append_nil]; rfl
  | cons entry entries ih =>
    have hnew : entry.1 ∉ front.map (·.1) := by
      rw [List.map_append, List.map_cons] at h
      exact fun hmem => (List.nodup_append.mp h).2.2 _ hmem _ List.mem_cons_self rfl
    have happly : Line.apply ⟨[], front⟩ (lineOfEntry entry) = some ⟨[], front ++ [entry]⟩ := by
      show (insert entry.1 entry.2 [] true front).bind (some ∘ Draft.mk []) = _
      rw [insert_of_not_mem entry.2 hnew]
      rfl
    have hsplit : front ++ entry :: entries = front ++ [entry] ++ entries := by simp
    rw [List.map_cons, List.foldlM_cons, happly, hsplit]
    exact ih (front ++ [entry]) (hsplit ▸ h)

/-- **A document** is read as its entries. -/
theorem parse_of_isDocument (h : IsDocument cs entries) (hkeys : (entries.map (·.1)).Nodup) :
    parse (String.ofList cs) = some entries := by
  have hlines : lines (String.ofList cs).toList = some (entries.map lineOfEntry, []) := by
    rw [String.toList_ofList]
    exact h.reads_lines
  have hdraft := foldlM_lineOfEntry [] hkeys
  rw [parse, hlines]
  show (do return (← (entries.map lineOfEntry).foldlM Line.apply ⟨[], []⟩).entries) = _
  rw [hdraft]
  rfl

end ChainClient.Toml
