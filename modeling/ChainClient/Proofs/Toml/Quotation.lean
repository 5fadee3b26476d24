import ChainClient.Proofs.Toml.Reader
import ChainClient.Toml.Quotation

/-!
# `ChainClient.Proofs.Toml.Quotation` — strings between quotes are read back

The writer takes the plainest form that a string has. Each form has a reader of its own, and they
are tried one after the other: so besides reading what the writer wrote, the readers in front have
to refuse it.

Between single quotes there is nothing but the string. Between double quotes each character has a
spelling (`Spells`). Between three quotes, one or two quotes in a row stand for themselves, at the
end of the string as well, where three more follow: `SpellsLong` lists such texts for quotes of
either kind, by the runs of quotes in them.

## Contents
- **Characters.** `spells_basicSpelling`: a character is spelled plainly, by a line break or by an
  escape.
- **Short strings.** `reads_basic` and `reads_literal`.
- **Long strings.** `reads_inside` reads what `SpellsLong` lists, by the pieces of an `IsLongPiece`;
  `reads_longForm` adds the quotes. What the writer puts between them is on the list:
  `spellsLong_basicBody` and `spellsLong_itself`.
- **Forms.** `Quoted` has a constructor a form, and `quoted_quote` says which one the writer takes.
  `reads_quotation` reads them all.
-/

namespace ChainClient.Toml

open Reader

/-! ## Characters -/

theorem isPlain_of_isControl {c : Char} (h : isControl c = false) (hbreak : c ≠ '\n') :
    isPlain c = true := by
  simpa [isControl, hbreak] using h

theorem lt_of_isControl {c : Char} (h : isControl c = true) : c.toNat < 128 := by
  simp only [isControl, isPlain, Bool.and_eq_true, Bool.not_eq_true', Bool.or_eq_false_iff,
    Bool.and_eq_false_iff, decide_eq_false_iff_not, bne_eq_false_iff_eq] at h
  omega

/-- A spelling by an escape. No line goes on behind its backslash. -/
structure IsEscape (c : Char) (text : List Char) : Prop where
  letter : ∃ letter more, text = '\\' :: letter :: more ∧
    isBlank letter = false ∧ letter ≠ '\n' ∧ letter ≠ '\r'
  reads : ∀ rest, Reads escape (text ++ rest) c rest

/-- A letter that stands for a character. -/
theorem isEscape_letter {letter c : Char} (h : escapedChar? letter = some c)
    (hcode : letter ≠ 'u' ∧ letter ≠ 'U')
    (hline : isBlank letter = false ∧ letter ≠ '\n' ∧ letter ≠ '\r') :
    IsEscape c ['\\', letter] where
  letter := ⟨letter, [], rfl, hline⟩
  reads rest := by
    refine (reads_only '\\' _).bind ((reads_char rfl rest).bind ?_)
    rw [if_neg hcode.1, if_neg hcode.2, h]
    exact reads_pure c rest

theorem readNat?_control (code : Fin 128) :
    Numeral.readNat? 16
      ['0', '0', Numeral.upperDigit (code / 16), Numeral.upperDigit (code % 16)] = some code := by
  revert code
  decide

theorem reads_codedChar {c : Char} (h : c.toNat < 128) (rest : List Char) :
    Reads (codedChar 4)
      ('0' :: '0' :: Numeral.upperDigit (c.toNat / 16) :: Numeral.upperDigit (c.toNat % 16) :: rest)
      c rest := by
  have hvalid : c.toNat.isValidChar := c.valid
  have hchar : charOfCode? c.toNat = some c := by
    rw [charOfCode?, if_pos hvalid, Char.ofNat_toNat]
  have hread : Numeral.readNat? 16 ['0', '0', Numeral.upperDigit (c.toNat / 16),
      Numeral.upperDigit (c.toNat % 16)] = some c.toNat := readNat?_control ⟨c.toNat, h⟩
  show ((Numeral.readNat? 16 ['0', '0', Numeral.upperDigit (c.toNat / 16),
    Numeral.upperDigit (c.toNat % 16)]).bind fun code =>
      (charOfCode? code).bind fun c => some (c, rest)) = _
  rw [hread, Option.bind_some, hchar]
  rfl

/-- The four digits of a small code. -/
theorem isEscape_code {c : Char} (h : c.toNat < 128) :
    IsEscape c ['\\', 'u', '0', '0', Numeral.upperDigit (c.toNat / 16),
      Numeral.upperDigit (c.toNat % 16)] where
  letter := ⟨'u', _, rfl, rfl, by decide, by decide⟩
  reads rest := by
    refine (reads_only '\\' _).bind ((reads_char rfl _).bind ?_)
    rw [if_pos rfl]
    exact reads_codedChar h rest

/-- The spelling of a character other than a double quote, in a string between double quotes: the
    character, where it is plain; a line break, where the string may run over lines; or an
    escape. -/
inductive Spells (long : Bool) (c : Char) : List Char → Prop where
  | plain (h : isBasic c = true) : Spells long c [c]
  | lineBreak (hlong : long = true) (h : c = '\n') : Spells long c ['\n']
  | escape {text : List Char} (h : IsEscape c text) : Spells long c text

theorem spells_basicSpelling (long : Bool) {c : Char} (hc : c ≠ doubleQuote) :
    Spells long c (basicSpelling long c) := by
  have hletter {letter d : Char} (h : escapedChar? letter = some d)
      (hcode : letter ≠ 'u' ∧ letter ≠ 'U')
      (hline : isBlank letter = false ∧ letter ≠ '\n' ∧ letter ≠ '\r') :
      Spells long d ['\\', letter] := .escape (isEscape_letter h hcode hline)
  unfold basicSpelling
  split
  · next h => exact hletter (by rw [h]; rfl) (by decide) (by decide)
  split
  · next h => exact hletter (by rw [h]; rfl) (by decide) (by decide)
  split
  · next h =>
    subst h
    split
    · next hlong => exact .lineBreak hlong rfl
    · exact hletter rfl (by decide) (by decide)
  split
  · next h => exact hletter (by rw [h]; rfl) (by decide) (by decide)
  split
  · next h => exact hletter (by rw [h]; rfl) (by decide) (by decide)
  split
  · next h => exact hletter (by rw [h]; rfl) (by decide) (by decide)
  next hbreak _ _ hslash =>
  split
  · next hcontrol => exact .escape (isEscape_code (lt_of_isControl hcontrol))
  · next hcontrol =>
    refine .plain ?_
    rw [isBasic, isPlain_of_isControl (Bool.eq_false_iff.mpr hcontrol) hbreak]
    simp [hc, hslash]

/-- No spelling starts with a double quote. -/
theorem Spells.exists_cons {long : Bool} {c : Char} {text : List Char} (h : Spells long c text) :
    ∃ first more, text = first :: more ∧ first ≠ doubleQuote := by
  cases h with
  | plain h =>
    refine ⟨c, [], rfl, ?_⟩
    rintro rfl
    exact absurd h (by decide)
  | lineBreak => exact ⟨'\n', [], rfl, by decide⟩
  | escape h =>
    obtain ⟨letter, more, rfl, -⟩ := h.letter
    exact ⟨'\\', letter :: more, rfl, by decide⟩

/-! ## Short strings -/

variable {c : Char} {cs text rest : List Char}

theorem refuses_escape (h : cs.head? ≠ some '\\') : Refuses escape cs := (refuses_only h).bind _

theorem IsEscape.refuses_basic (h : IsEscape c text) (rest : List Char) :
    Refuses (char isBasic) (text ++ rest) := by
  obtain ⟨letter, more, rfl, -⟩ := h.letter
  exact refuses_char_cons rfl _

/-- A spelling on one line. -/
theorem Spells.reads_short (h : Spells false c text) (rest : List Char) :
    Reads (char isBasic <|> Reader.escape) (text ++ rest) c rest := by
  cases h with
  | plain h => exact (reads_char h rest).orElse _
  | lineBreak hlong => cases hlong
  | escape h => exact (h.refuses_basic rest).orElse_reads (h.reads rest)

theorem isEscape_doubleQuote : IsEscape doubleQuote ['\\', doubleQuote] :=
  isEscape_letter rfl (by decide) (by decide)

/-- In a short string every double quote is escaped, so that each character has a spelling. -/
theorem exists_basicBody_cons (c : Char) (cs : List Char) :
    ∃ text, Spells false c text ∧
      basicBody false 0 0 (c :: cs) = text ++ basicBody false 0 0 cs := by
  rw [basicBody]
  split
  · next h =>
    subst h
    exact ⟨_, .escape isEscape_doubleQuote, if_neg (Nat.lt_irrefl 0)⟩
  · next h => exact ⟨_, spells_basicSpelling false h, rfl⟩

theorem head?_basicBody (cs : List Char) : (basicBody false 0 0 cs).head? ≠ some doubleQuote := by
  cases cs with
  | nil => exact nofun
  | cons c cs =>
    obtain ⟨text, htext, hbody⟩ := exists_basicBody_cons c cs
    obtain ⟨first, more, rfl, hfirst⟩ := htext.exists_cons
    rw [hbody]
    exact fun h => hfirst (Option.some.inj h)

theorem reads_basicBody (cs rest : List Char) :
    Reads (many (char isBasic <|> escape)) (basicBody false 0 0 cs ++ doubleQuote :: rest) cs
      (doubleQuote :: rest) := by
  induction cs with
  | nil =>
    have hquote : Refuses (char isBasic) (doubleQuote :: rest) := refuses_char_cons rfl _
    exact reads_many_nil (hquote.orElse (refuses_escape (by simp [doubleQuote])))
  | cons c cs ih =>
    obtain ⟨text, htext, hbody⟩ := exists_basicBody_cons c cs
    obtain ⟨first, more, rfl, -⟩ := htext.exists_cons
    rw [hbody, List.append_assoc]
    exact (htext.reads_short _).many (List.cons_ne_nil first more) ih

/-- **Double quotes.** -/
theorem reads_basic (cs rest : List Char) :
    Reads basic ([doubleQuote] ++ basicBody false 0 0 cs ++ [doubleQuote] ++ rest) cs rest := by
  rw [List.append_assoc, List.append_assoc]
  exact ((reads_only doubleQuote _).seqRight (reads_basicBody cs rest)).seqLeft
    (reads_only doubleQuote rest)

/-- **Single quotes.** -/
theorem reads_literal (h : ∀ c ∈ cs, isLiteral c = true) (rest : List Char) :
    Reads literal ([singleQuote] ++ cs ++ [singleQuote] ++ rest) cs rest := by
  rw [List.append_assoc, List.append_assoc]
  refine ((reads_only singleQuote _).seqRight (reads_span h ?_)).seqLeft
    (reads_only singleQuote rest)
  exact fun c hc => by cases hc; rfl

/-- What starts with another character is no string in these quotes. -/
theorem refuses_openLong {quote : Char} (h : cs.head? ≠ some quote) : Refuses (openLong quote) cs :=
  (((refuses_only h).seqRight _).seqRight _).seqLeft _

/-- A short string does not open a long one, not even an empty string, unless a quote follows. -/
theorem refuses_openLong_short {quote : Char} {body : List Char} (hbody : body.head? ≠ some quote)
    (hrest : rest.head? ≠ some quote) :
    Refuses (openLong quote) ([quote] ++ body ++ [quote] ++ rest) := by
  rw [List.append_assoc, List.append_assoc]
  refine Refuses.seqLeft ?_ _
  cases body with
  | nil =>
    have hfirst := (reads_only quote _).seqRight (reads_only quote rest)
    exact hfirst.seqRight_refuses (refuses_only hrest)
  | cons c body =>
    have hsecond : Refuses (only quote) (c :: (body ++ ([quote] ++ rest))) := refuses_only hbody
    exact ((reads_only quote _).seqRight_refuses hsecond).seqRight _

/-! ## Blanks and line breaks -/

theorem isBlank_of_ne {c : Char} (hspace : c ≠ ' ') (htab : c ≠ '\t') : isBlank c = false := by
  rw [isBlank, Bool.or_eq_false_iff, beq_eq_false_iff_ne, beq_eq_false_iff_ne]
  exact ⟨hspace, htab⟩

theorem reads_blanks_none {c : Char} (h : isBlank c = false) (rest : List Char) :
    Reads blanks (c :: rest) () (c :: rest) := by
  have hspan : Reads (span isBlank) ([] ++ c :: rest) [] (c :: rest) :=
    reads_span nofun fun d hd => Option.some.inj hd ▸ h
  exact hspan.discard

theorem refuses_newline {c : Char} (h : c ≠ '\n' ∧ c ≠ '\r') (rest : List Char) :
    Refuses newline (c :: rest) := by
  refine (refuses_only_cons h.1 rest).orElse (refuses_word ?_)
  rintro ⟨more, hmore⟩
  exact h.2 (List.cons.inj hmore).1.symm

/-- A line break inside a string. -/
theorem reads_lineBreak (rest : List Char) :
    Reads (newline *> pure ['\n']) ('\n' :: rest) ['\n'] rest :=
  ((reads_only '\n' rest).orElse _).seqRight (reads_pure ['\n'] rest)

/-! ## Long strings -/

/-- **Long strings.** One or two quotes in a row stand for themselves, other characters are
    spelled. -/
inductive SpellsLong (quote : Char) (spelled : Char → List Char → Prop) :
    (cs body : List Char) → Prop where
  | last {n : Nat} (h : n ≤ 2) :
      SpellsLong quote spelled (List.replicate n quote) (List.replicate n quote)
  | char {n : Nat} {c : Char} {text cs body : List Char} (h : n ≤ 2) (hc : spelled c text)
      (hrest : SpellsLong quote spelled cs body) :
      SpellsLong quote spelled (List.replicate n quote ++ c :: cs)
        (List.replicate n quote ++ (text ++ body))

/-- What makes a step read the pieces of a long string: spellings, and quotes that do not close it.
    Only a line break is spelled with one in front. -/
structure IsLongPiece (quote : Char) (spelled : Char → List Char → Prop)
    (piece : Reader (List Char)) : Prop where
  quote_ne : quote ≠ '\n' ∧ quote ≠ '\r'
  exists_cons : ∀ {c text}, spelled c text → ∃ first more, text = first :: more ∧ first ≠ quote ∧
    (first = '\n' ∨ first = '\r' → c = '\n')
  reads : ∀ {c text}, spelled c text → ∀ rest, Reads piece (text ++ rest) [c] rest
  run_quote : ∀ rest, piece.run (quote :: rest) = (innerQuotes quote).run (quote :: rest)

section

variable {quote : Char} {n : Nat}

theorem takeWhile_quotes (h : rest.head? ≠ some quote) (n : Nat) :
    (List.replicate n quote ++ rest).takeWhile (· == quote) = List.replicate n quote := by
  have hstop : rest.takeWhile (· == quote) = [] := by
    cases rest with
    | nil => rfl
    | cons c rest => exact List.takeWhile_cons_of_neg (by simpa using h)
  rw [List.takeWhile_append_of_pos, hstop, List.append_nil]
  intro c hc
  rw [List.eq_of_mem_replicate hc, beq_self_eq_true]

theorem reads_innerQuotes (hn : n = 1 ∨ n = 2) (h : rest.head? ≠ some quote) :
    Reads (innerQuotes quote) (List.replicate n quote ++ rest) (List.replicate n quote) rest := by
  show (if _ then _ else _) = _
  rw [takeWhile_quotes h, List.length_replicate, if_pos hn, List.drop_left' List.length_replicate]

theorem refuses_innerQuotes (hn : 3 ≤ n) (h : rest.head? ≠ some quote) :
    Refuses (innerQuotes quote) (List.replicate n quote ++ rest) := by
  show (if _ then _ else _) = _
  rw [takeWhile_quotes h, List.length_replicate, if_neg (by omega)]

/-- Three quotes close a string, and leave up to two in front of them to it. -/
theorem reads_closeLong (hn : n ≤ 2) (h : rest.head? ≠ some quote) :
    Reads (closeLong quote) (List.replicate n quote ++ (List.replicate 3 quote ++ rest))
      (List.replicate n quote) rest := by
  rw [← List.append_assoc, List.replicate_append_replicate]
  show (if _ then _ else _) = _
  rw [takeWhile_quotes h, List.length_replicate, if_neg (by omega)]
  have hinner :
      (List.replicate (n + 3) quote).take (min 2 (n + 3 - 3)) = List.replicate n quote := by
    rw [List.take_replicate]
    congr 1
    omega
  rw [hinner, List.length_replicate, List.drop_left' List.length_replicate]

variable {spelled : Char → List Char → Prop} {piece : Reader (List Char)} {body : List Char}

/-- **The inside of a long string** is read in pieces, up to its last quotes. -/
theorem reads_inside (hpiece : IsLongPiece quote spelled piece)
    (hbody : SpellsLong quote spelled cs body) (hrest : rest.head? ≠ some quote) :
    ∃ pieces n, n ≤ 2 ∧ pieces.flatten ++ List.replicate n quote = cs ∧
      Reads (many piece) (body ++ (List.replicate 3 quote ++ rest)) pieces
        (List.replicate n quote ++ (List.replicate 3 quote ++ rest)) := by
  induction hbody with
  | @last n hn =>
    refine ⟨[], n, hn, rfl, reads_many_nil ?_⟩
    rw [← List.append_assoc, List.replicate_append_replicate, List.replicate_succ, List.cons_append]
    refine (hpiece.run_quote _).trans ?_
    rw [← List.cons_append, ← List.replicate_succ]
    exact refuses_innerQuotes (by omega) hrest
  | @char n c text cs body hn hc _ ih =>
    obtain ⟨pieces, m, hm, hcs, hread⟩ := ih
    obtain ⟨first, more, htext, hfirst, -⟩ := hpiece.exists_cons hc
    have hne : text ≠ [] := htext ▸ List.cons_ne_nil first more
    have hchar := (hpiece.reads hc _).many hne hread
    rw [List.append_assoc, List.append_assoc]
    cases n with
    | zero => exact ⟨[c] :: pieces, m, hm, by rw [← hcs]; rfl, hchar⟩
    | succ n =>
      -- the quotes in front are a piece of their own
      refine ⟨List.replicate (n + 1) quote :: [c] :: pieces, m, hm, ?_, ?_⟩
      · rw [← hcs, List.flatten_cons, List.flatten_cons, List.append_assoc]
        rfl
      · have hhead : (text ++ (body ++ (List.replicate 3 quote ++ rest))).head? ≠ some quote := by
          rw [htext]
          exact fun h => hfirst (Option.some.inj h)
        have hquotes : Reads (innerQuotes quote) _ _ _ :=
          reads_innerQuotes (n := n + 1) (by omega) hhead
        exact Reads.many ((hpiece.run_quote _).trans hquotes) (by simp) hchar

/-- A string without line breaks does not start with one between its quotes either. -/
theorem SpellsLong.refuses_newline (hbody : SpellsLong quote spelled cs body)
    (hpiece : IsLongPiece quote spelled piece) (hbreak : '\n' ∉ cs) :
    Refuses newline (body ++ (List.replicate 3 quote ++ rest)) := by
  cases hbody with
  | @last n hn => cases n <;> exact Toml.refuses_newline hpiece.quote_ne _
  | @char n c text cs body hn hc hrest =>
    cases n with
    | zero =>
      obtain ⟨first, more, rfl, -, hfirst⟩ := hpiece.exists_cons hc
      have hne : c ≠ '\n' := fun h => hbreak (h ▸ List.mem_cons_self)
      exact Toml.refuses_newline
        ⟨fun h => hne (hfirst (.inl h)), fun h => hne (hfirst (.inr h))⟩ _
    | succ n => exact Toml.refuses_newline hpiece.quote_ne _

/-- **Three quotes.** -/
theorem reads_longForm (hpiece : IsLongPiece quote spelled piece)
    (hbody : SpellsLong quote spelled cs body) (hrest : rest.head? ≠ some quote) :
    Reads (longOf quote piece) (longForm quote cs body ++ rest) cs rest := by
  have hquotes (tail : List Char) :
      Reads (only quote *> only quote *> only quote) (List.replicate 3 quote ++ tail) () tail :=
    ((reads_only quote _).seqRight (reads_only quote _)).seqRight (reads_only quote tail)
  have hopen : Reads (openLong quote) (longForm quote cs body ++ rest) ()
      (body ++ (List.replicate 3 quote ++ rest)) := by
    simp only [longForm, List.append_assoc]
    split
    · exact (hquotes _).seqLeft (reads_opt_some ((reads_only '\n' _).orElse _))
    · next h =>
      have hbreak : '\n' ∉ cs := fun hmem => h (List.contains_iff_mem.mpr hmem)
      exact (hquotes _).seqLeft (reads_opt_none (hbody.refuses_newline hpiece hbreak))
  obtain ⟨pieces, n, hn, rfl, hread⟩ := reads_inside hpiece hbody hrest
  refine hopen.bind ?_
  refine hread.bind ?_
  exact (reads_closeLong hn hrest).bind (reads_pure _ rest)

end

/-! ### Double quotes -/

theorem isLongPiece_longBasicPiece :
    IsLongPiece doubleQuote (Spells true) longBasicPiece where
  quote_ne := by decide
  exists_cons {c text} h := by
    cases h with
    | plain h =>
      refine ⟨c, [], rfl, ?_, ?_⟩
      · rintro rfl
        exact absurd h (by decide)
      · rintro (rfl | rfl)
        · rfl
        · exact absurd h (by decide)
    | lineBreak _ h => exact ⟨'\n', [], rfl, by decide, fun _ => h⟩
    | escape h =>
      obtain ⟨letter, more, rfl, -⟩ := h.letter
      exact ⟨'\\', letter :: more, rfl, by decide, nofun⟩
  reads {c text} h rest := by
    cases h with
    | plain h => exact ((reads_char h rest).bind (reads_pure [c] rest)).orElse _
    | lineBreak _ h =>
      subst h
      have hchar : Refuses (char isBasic) ('\n' :: rest) := refuses_char_cons rfl _
      have hslash : Refuses (only '\\') ('\n' :: rest) := refuses_only_cons (by decide) _
      refine (hchar.bind _).orElse_reads ?_
      refine ((hslash.bind _).seqRight _).orElse_reads ?_
      refine ((hslash.bind _).bind _).orElse_reads ?_
      exact (reads_lineBreak rest).orElse _
    | escape h =>
      refine ((h.refuses_basic rest).bind _).orElse_reads ?_
      refine Refuses.orElse_reads ?_ (((h.reads rest).bind (reads_pure [c] rest)).orElse _)
      -- the letter of an escape is on the line of its backslash
      obtain ⟨letter, more, rfl, hblank, hline⟩ := h.letter
      have hblanks := reads_blanks_none hblank (more ++ rest)
      have hnewline := refuses_newline hline (more ++ rest)
      refine Refuses.seqRight ?_ _
      exact (reads_only '\\' _).bind_refuses (hblanks.bind_refuses (hnewline.bind _))
  run_quote rest := by
    have hchar : Refuses (char isBasic) (doubleQuote :: rest) := refuses_char_cons rfl _
    have hslash : Refuses (only '\\') (doubleQuote :: rest) := refuses_only_cons (by decide) _
    have hnewline : Refuses newline (doubleQuote :: rest) := refuses_newline (by decide) rest
    refine (Refuses.run_orElse (hchar.bind _) _).trans ?_
    refine (Refuses.run_orElse ((hslash.bind _).seqRight _) _).trans ?_
    refine (Refuses.run_orElse ((hslash.bind _).bind _) _).trans ?_
    exact (hnewline.seqRight _).run_orElse _

/-- The writer leaves two double quotes in a row as they are. -/
theorem spellsLong_basicBody (cs : List Char) {count : Nat} (hcount : count ≤ 2) :
    SpellsLong doubleQuote (Spells true) (List.replicate count doubleQuote ++ cs)
      (List.replicate count doubleQuote ++ basicBody true 2 count cs) := by
  induction cs generalizing count with
  | nil =>
    rw [basicBody, List.append_nil]
    exact .last hcount
  | cons c cs ih =>
    rw [basicBody]
    split
    · next h =>
      subst h
      split
      · next hlt =>
        have hnext := ih (Nat.succ_le_of_lt hlt)
        rwa [List.replicate_succ', List.append_assoc, List.append_assoc] at hnext
      · exact .char hcount (.escape isEscape_doubleQuote) (ih (Nat.zero_le 2))
    · next h => exact .char hcount (spells_basicSpelling true h) (ih (Nat.zero_le 2))

/-! ### Single quotes -/

/-- Between single quotes a character stands for itself, and there are no control characters. -/
inductive SpellsItself (c : Char) : List Char → Prop where
  | mk (hquote : c ≠ singleQuote) (h : isControl c = false) : SpellsItself c [c]

theorem isLiteral_of_isControl {c : Char} (hquote : c ≠ singleQuote) (h : isControl c = false)
    (hbreak : c ≠ '\n') : isLiteral c = true := by
  rw [isLiteral, isPlain_of_isControl h hbreak, Bool.true_and, bne_iff_ne]
  exact hquote

theorem isLongPiece_longLiteralPiece :
    IsLongPiece singleQuote SpellsItself longLiteralPiece where
  quote_ne := by decide
  exists_cons {c text} h := by
    obtain ⟨hquote, hcontrol⟩ := h
    refine ⟨c, [], rfl, hquote, ?_⟩
    rintro (rfl | rfl)
    · rfl
    · exact absurd hcontrol (by decide)
  reads {c text} h rest := by
    obtain ⟨hquote, hcontrol⟩ := h
    by_cases hbreak : c = '\n'
    · subst hbreak
      have hchar : Refuses (char isLiteral) ('\n' :: rest) := refuses_char_cons rfl _
      refine (hchar.bind _).orElse_reads ?_
      exact (reads_lineBreak rest).orElse _
    · have hliteral := isLiteral_of_isControl hquote hcontrol hbreak
      exact ((reads_char hliteral rest).bind (reads_pure [c] rest)).orElse _
  run_quote rest := by
    have hchar : Refuses (char isLiteral) (singleQuote :: rest) := refuses_char_cons rfl _
    have hnewline : Refuses newline (singleQuote :: rest) := refuses_newline (by decide) rest
    refine (Refuses.run_orElse (hchar.bind _) _).trans ?_
    exact (hnewline.seqRight _).run_orElse _

/-- A string with no more than two single quotes in a row. -/
theorem spellsLong_itself {count : Nat} (hcontrol : ∀ c ∈ cs, isControl c = false)
    (hrun : longestRun singleQuote count cs ≤ 2) :
    SpellsLong singleQuote SpellsItself (List.replicate count singleQuote ++ cs)
      (List.replicate count singleQuote ++ cs) := by
  induction cs generalizing count with
  | nil =>
    rw [List.append_nil]
    exact .last hrun
  | cons c cs ih =>
    have hcs : ∀ d ∈ cs, isControl d = false := fun d hd => hcontrol d (List.mem_cons_of_mem c hd)
    rw [longestRun] at hrun
    split at hrun
    · next h =>
      subst h
      have hnext := ih hcs hrun
      rwa [List.replicate_succ', List.append_assoc] at hnext
    · next h =>
      obtain ⟨hcount, hrest⟩ := Nat.max_le.mp hrun
      have hspelled : SpellsItself c [c] := ⟨h, hcontrol c List.mem_cons_self⟩
      exact .char hcount hspelled (ih hcs hrest)

theorem le_longestRun (q : Char) (count : Nat) (cs : List Char) :
    count ≤ longestRun q count cs := by
  induction cs generalizing count with
  | nil => exact Nat.le_refl count
  | cons c cs ih =>
    rw [longestRun]
    split
    · exact Nat.le_of_succ_le (ih (count + 1))
    · exact Nat.le_max_left _ _

theorem not_mem_of_longestRun {q : Char} (h : longestRun q 0 cs = 0) : q ∉ cs := by
  induction cs with
  | nil => exact List.not_mem_nil
  | cons c cs ih =>
    rw [longestRun] at h
    split at h
    · have hpos := le_longestRun q (0 + 1) cs
      omega
    · next hc =>
      rw [Nat.zero_max] at h
      exact List.not_mem_cons_of_ne_of_not_mem (Ne.symm hc) (ih h)

/-! ## Forms -/

/-- The forms of a string. The plainer ones are for the strings that allow them. -/
inductive Quoted (cs : List Char) : List Char → Prop where
  | basic : Quoted cs ([doubleQuote] ++ basicBody false 0 0 cs ++ [doubleQuote])
  | literal (h : ∀ c ∈ cs, isLiteral c = true) : Quoted cs ([singleQuote] ++ cs ++ [singleQuote])
  | longBasic : Quoted cs (longForm doubleQuote cs (basicBody true 2 0 cs))
  | longLiteral (h : SpellsLong singleQuote SpellsItself cs cs) :
      Quoted cs (longForm singleQuote cs cs)

/-- **The writer** takes one of these forms. -/
theorem quoted_quote (cs : List Char) : Quoted cs (quote cs) := by
  simp only [quote]
  split
  · exact .basic
  split
  · next h =>
    simp only [Bool.and_eq_true, Bool.not_eq_true', decide_eq_true_eq, List.any_eq_false,
      Bool.not_eq_true, List.contains_eq_mem, decide_eq_false_iff_not] at h
    obtain ⟨⟨hcontrol, hsingle⟩, hbreak⟩ := h
    refine .literal fun c hc => isLiteral_of_isControl ?_ (hcontrol c hc) ?_
    · exact fun h => not_mem_of_longestRun hsingle (h ▸ hc)
    · exact fun h => hbreak (h ▸ hc)
  split
  · exact .longBasic
  split
  · next h =>
    simp only [Bool.and_eq_true, Bool.not_eq_true', decide_eq_true_eq, List.any_eq_false,
      Bool.not_eq_true] at h
    exact .longLiteral (spellsLong_itself h.1 h.2)
  split
  · exact .longBasic
  · exact .basic

/-- **Strings are read back**, whatever stands behind them, unless it is another quote. -/
theorem reads_quotation
    (hrest : rest.head? ≠ some doubleQuote ∧ rest.head? ≠ some singleQuote) :
    Reads quotation (quote cs ++ rest) (String.ofList cs) rest := by
  refine Reads.map ?_ String.ofList
  have hform := quoted_quote cs
  generalize quote cs = text at hform
  cases hform with
  | basic =>
    refine Refuses.orElse_reads ?_ ((reads_basic cs rest).orElse _)
    exact (refuses_openLong_short (head?_basicBody cs) hrest.1).bind _
  | literal h =>
    have hother : ([singleQuote] ++ cs ++ [singleQuote] ++ rest).head? ≠ some doubleQuote :=
      fun h => absurd (Option.some.inj h) (by decide)
    have hhead : cs.head? ≠ some singleQuote := by
      intro hhead
      have hliteral := h singleQuote (List.mem_of_mem_head? hhead)
      exact absurd hliteral (by decide)
    refine ((refuses_openLong hother).bind _).orElse_reads ?_
    refine (((refuses_only hother).seqRight _).seqLeft _).orElse_reads ?_
    refine Refuses.orElse_reads ?_ (reads_literal h rest)
    exact (refuses_openLong_short hhead hrest.2).bind _
  | longBasic =>
    have hbody := spellsLong_basicBody cs (Nat.zero_le 2)
    exact (reads_longForm isLongPiece_longBasicPiece hbody hrest.1).orElse _
  | longLiteral h =>
    have hother : (longForm singleQuote cs cs ++ rest).head? ≠ some doubleQuote :=
      fun h => absurd (Option.some.inj h) (by decide)
    refine ((refuses_openLong hother).bind _).orElse_reads ?_
    refine (((refuses_only hother).seqRight _).seqLeft _).orElse_reads ?_
    exact (reads_longForm isLongPiece_longLiteralPiece h hrest.2).orElse _

end ChainClient.Toml
