import ChainClient.Proofs.Bytes.Width
import ChainClient.Proofs.Text.Radix
import ChainClient.Proofs.Word

/-!
# `ChainClient.Proofs.Word.Numeral` — which numerals are words, and why the others are refused

The reader of words adds digits up in one pass. It stops at the first thing that goes wrong, which
is a character that is no digit, or a digit that takes the number beyond a word. For numerals that
is all there is to say: those of words are read, and the greater ones do not fit. Of a text that is
no numeral the digits in front are added up before its fault is seen, and they may be too many for a
word by then.

## Contents
- **Values.** `Numeral.HasValue` is positional notation, for any number of digits.
- **Digits of bytes.** `hasValue_encode`: the hexadecimal digits of bytes have the value of these.
- **Numerals.** `Word.Denotes` says what a numeral is and which number it denotes;
  `isSpelling_iff` ties it to the spellings of a word.
- **Reading.** `parse_numerals`: the numerals of words are read, and nothing else is.
- **Refusal.** `parseDigits_eq_error_iff` says how the pass through the digits ends, and
  `parse_eq_error_iff` which error a text is refused with.
-/

namespace ChainClient

namespace Numeral

variable {radix : Nat}

/-! ## Values -/

/-- **Values.** Digits, at least one of them and in letters of either case, have the value that
    positional notation gives them. -/
def HasValue (radix : Nat) (cs : List Char) (n : Nat) : Prop :=
  cs ≠ [] ∧ ∃ ds, AreDigits radix cs ds ∧ Nat.ofDigits radix ds.reverse = n

theorem addDigits_zero (radix : Nat) (ds : List Nat) :
    addDigits radix 0 ds = Nat.ofDigits radix ds.reverse :=
  ofDigits_eq radix ds

/-- Having a value is being a numeral, in small letters. -/
theorem hasValue_iff (hradix : 1 < radix) {cs : List Char} {n : Nat} :
    HasValue radix cs n ↔ IsNumeral radix (cs.map Char.toLower) n := by
  constructor
  · rintro ⟨hne, ds, hds, rfl⟩
    rw [← addDigits_zero]
    exact isNumeral_addDigits hradix [] (.inl ⟨rfl, rfl⟩) hds hne
  · intro h
    obtain ⟨ds, hds, hsum⟩ := exists_digits_of_isNumeral hradix h
    refine ⟨?_, ds, hds, (addDigits_zero radix ds).symm.trans hsum⟩
    rintro rfl
    exact h.ne_nil rfl

theorem hasValue_iff_readNat? (hradix : 1 < radix) (hradix' : radix ≤ 16) {cs : List Char}
    {n : Nat} : HasValue radix cs n ↔ readNat? radix cs = some n := by
  rw [readNat?_eq_some_iff hradix hradix', hasValue_iff hradix]

/-- Digits have the value of those in front if they are all there is. -/
theorem hasValue_iff_leadingDigits (hradix : radix ≤ 16) {cs : List Char} {n : Nat} :
    HasValue radix cs n ↔
      cs ≠ [] ∧ (leadingDigits radix cs).length = cs.length ∧
        Nat.ofDigits radix (leadingDigits radix cs).reverse = n := by
  refine and_congr_right fun _ => ?_
  simp only [areDigits_iff hradix]
  constructor
  · rintro ⟨_, ⟨rfl, hlength⟩, hvalue⟩
    exact ⟨hlength, hvalue⟩
  · rintro ⟨hlength, hvalue⟩
    exact ⟨_, ⟨rfl, hlength⟩, hvalue⟩

/-! ## Digits of bytes -/

/-- The values of the two halves of each byte. -/
def halves (bs : Bytes) : List Nat := bs.flatMap fun b => [b.toNat / 16, b.toNat % 16]

theorem areDigits_encode (bs : Bytes) : AreDigits 16 (Hex.encode bs) (halves bs) := by
  induction bs with
  | nil => exact .nil
  | cons b bs ih =>
    have hb : b.toNat < 256 := b.toNat_lt
    have hhigh : b.toNat / 16 < 16 := by omega
    have hlow : b.toNat % 16 < 16 := by omega
    exact .cons ⟨hhigh, toLower_digitChar hhigh⟩ (.cons ⟨hlow, toLower_digitChar hlow⟩ ih)

theorem addDigits_halves (acc : Nat) (bs : Bytes) :
    addDigits 16 acc (halves bs) = bs.foldl (fun acc b => acc * 256 + b.toNat) acc := by
  induction bs generalizing acc with
  | nil => rfl
  | cons b bs ih =>
    have hbyte : (acc * 16 + b.toNat / 16) * 16 + b.toNat % 16 = acc * 256 + b.toNat := by omega
    show addDigits 16 ((acc * 16 + b.toNat / 16) * 16 + b.toNat % 16) (halves bs) = _
    rw [hbyte, ih]
    rfl

/-- The digits of bytes have the value of the bytes. -/
theorem hasValue_encode {bs : Bytes} (h : bs ≠ []) : HasValue 16 (Hex.encode bs) bs.value := by
  refine ⟨?_, halves bs, areDigits_encode bs, ?_⟩
  · intro hnil
    have hlength := Hex.length_encode bs
    rw [hnil] at hlength
    exact h (List.length_eq_zero_iff.mp (by simpa using hlength))
  · rw [← addDigits_zero]
    exact addDigits_halves 0 bs

end Numeral

namespace Word

open Numeral

/-! ## Numerals -/

/-- **Numerals** and the numbers they denote: hexadecimal digits behind a mark, or decimal ones,
    with or without a plus sign in front. There may be any number of zeros among them. -/
inductive Denotes (s : String) (n : Nat) : Prop where
  | hexadecimal {mark : Char} {digits : List Char} (hs : s.toList = '0' :: mark :: digits)
      (hmark : mark = 'x' ∨ mark = 'X') (h : HasValue 16 digits n)
  | decimal {sign digits : List Char} (hs : s.toList = sign ++ digits)
      (hsign : sign = [] ∨ sign = ['+']) (h : HasValue 10 digits n)

/-- **Spellings** of a word are the empty text, for zero, and its numerals. -/
theorem isSpelling_iff {s : String} {n : Nat} :
    IsSpelling s n ↔ s = "" ∧ n = 0 ∨ Denotes s n := by
  have hdecimal : ∀ {digits : List Char}, HasValue 10 digits n ↔ IsNumeral 10 digits n := by
    intro digits
    rw [hasValue_iff (by decide), isNumeral_ten_map_toLower]
  constructor
  · intro h
    cases h with
    | empty hs hn => exact .inl ⟨hs, hn⟩
    | decimal h =>
      obtain ⟨sign, digits, hsign, hs, hdigits⟩ := h
      exact .inr (.decimal hs hsign (hdecimal.mpr hdigits))
    | hexadecimal hs hmark h =>
      exact .inr (.hexadecimal hs hmark ((hasValue_iff (by decide)).mpr h))
  · rintro (⟨hs, hn⟩ | h)
    · exact .empty hs hn
    · cases h with
      | hexadecimal hs hmark h => exact .hexadecimal hs hmark ((hasValue_iff (by decide)).mp h)
      | decimal hs hsign h => exact .decimal ⟨_, _, hsign, hs, hdecimal.mp h⟩

/-- The radix in which a text is read. -/
def radixOf (s : String) : Nat := if Hex.hasMark s.toList then 16 else 10

/-- The characters of a text that are read as digits. -/
def digitsOf (s : String) : List Char :=
  if Hex.hasMark s.toList then s.toList.drop 2 else dropPlus s.toList

theorem radixOf_bounds (s : String) : 1 < radixOf s ∧ radixOf s ≤ 16 := by
  unfold radixOf
  split <;> decide

/-- A text is a numeral as far as its digits are. -/
theorem denotes_iff {s : String} {n : Nat} :
    Denotes s n ↔ HasValue (radixOf s) (digitsOf s) n := by
  unfold radixOf digitsOf
  cases hmark : Hex.hasMark s.toList with
  | true =>
    obtain ⟨mark, digits, hs, hx⟩ := Hex.hasMark_iff.mp hmark
    simp only [if_true, hs, List.drop_succ_cons, List.drop_zero]
    constructor
    · intro h
      cases h with
      | hexadecimal hs' _ h =>
        rw [hs] at hs'
        cases hs'
        exact h
      | decimal hs' hsign h =>
        have hnumeral := isNumeral_ten_map_toLower.mp ((hasValue_iff (by decide)).mp h)
        have hunmarked := hasMark_of_isDecimal ⟨_, _, hsign, hs', hnumeral⟩
        rw [hmark] at hunmarked
        cases hunmarked
    · intro h
      exact .hexadecimal hs hx h
  | false =>
    simp only [Bool.false_eq_true, if_false]
    rw [hasValue_iff (by decide), isNumeral_ten_map_toLower, isNumeral_dropPlus_iff]
    constructor
    · intro h
      cases h with
      | hexadecimal hs hx _ =>
        rw [Hex.hasMark_iff.mpr ⟨_, _, hs, hx⟩] at hmark
        cases hmark
      | decimal hs hsign h =>
        exact ⟨_, _, hsign, hs, isNumeral_ten_map_toLower.mp ((hasValue_iff (by decide)).mp h)⟩
    · rintro ⟨sign, digits, hsign, hs, h⟩
      exact .decimal hs hsign ((hasValue_iff (by decide)).mpr (isNumeral_ten_map_toLower.mpr h))

theorem denotes_iff_readNat? {s : String} {n : Nat} :
    Denotes s n ↔ readNat? (radixOf s) (digitsOf s) = some n := by
  rw [denotes_iff, hasValue_iff_readNat? (radixOf_bounds s).1 (radixOf_bounds s).2]

/-- A numeral denotes one number. -/
theorem Denotes.unique {s : String} {m n : Nat} (hm : Denotes s m) (hn : Denotes s n) : m = n :=
  Option.some.inj ((denotes_iff_readNat?.mp hm).symm.trans (denotes_iff_readNat?.mp hn))

/-! ## Reading -/

theorem parse_eq_ok_iff_denotes {s : String} {w : Word} :
    parse s = .ok w ↔ s = "" ∧ w = 0 ∨ Denotes s w.toNat := by
  have hzero : w.toNat = 0 ↔ w = 0 := ⟨fun h => BitVec.eq_of_toNat_eq h, fun h => h ▸ rfl⟩
  rw [parse_eq_ok_iff, isSpelling_iff, hzero]

theorem parse_text (w : Word) : parse w.text = .ok w := parse_eq_ok_iff.mpr (isSpelling_text w)

/-- The standard digits of a word behind a mark, in letters of either case. -/
theorem parse_of_toDigits {w : Word} {mark : Char} {digits : List Char}
    (hmark : mark = 'x' ∨ mark = 'X') (h : digits.map Char.toLower = Nat.toDigits 16 w.toNat) :
    parse (String.ofList ('0' :: mark :: digits)) = .ok w :=
  parse_eq_ok_iff.mpr (.hexadecimal String.toList_ofList hmark ⟨0, h⟩)

/-- The bytes of a word behind a mark, at least one of them. -/
theorem parse_marked_padded (w : Word) {width : Nat} (h : 0 < width) :
    parse (Hex.marked (w.padded width)) = .ok w := by
  have hne : w.padded width ≠ [] := by
    intro hnil
    have hlength := Bytes.length_padLeft width w.minimal
    rw [show Bytes.padLeft width w.minimal = [] from hnil, List.length_nil] at hlength
    omega
  refine parse_eq_ok_iff_denotes.mpr (.inr (.hexadecimal String.toList_ofList (.inl rfl) ?_))
  rw [← value_padded w width]
  exact hasValue_encode hne

/-- **Numerals of words are read.** The texts that are read are the empty one, for zero, and the
    numerals of the numbers below `2 ^ 256`, each as its number. So a word is read back from its
    decimal text, from its hexadecimal digits behind a mark, and from its marked bytes, padded or
    not, and no greater number is read as a word. -/
theorem parse_numerals :
    (∀ s w, parse s = .ok w ↔ s = "" ∧ w = 0 ∨ Denotes s w.toNat) ∧
    (∀ w, parse w.text = .ok w) ∧
    (∀ (w : Word) (mark : Char) (digits : List Char), mark = 'x' ∨ mark = 'X' →
      digits.map Char.toLower = Nat.toDigits 16 w.toNat →
      parse (String.ofList ('0' :: mark :: digits)) = .ok w) ∧
    (∀ (w : Word) (width : Nat), 0 < width → parse (Hex.marked (w.padded width)) = .ok w) ∧
    ∀ s n, Denotes s n → 2 ^ 256 ≤ n → ∃ e, parse s = .error e := by
  refine ⟨fun s w => parse_eq_ok_iff_denotes, parse_text, fun w mark digits => parse_of_toDigits,
    fun w width => parse_marked_padded w, fun s n hs hn => ?_⟩
  cases hread : parse s with
  | error e => exact ⟨e, rfl⟩
  | ok w =>
    have hlt : w.toNat < 2 ^ 256 := w.isLt
    rcases parse_eq_ok_iff_denotes.mp hread with ⟨rfl, -⟩ | hw
    · have hnone := denotes_iff_readNat?.mp hs
      cases hnone
    · rw [hs.unique hw] at hn
      exact absurd hn (Nat.not_le.mpr hlt)

/-- Numerals of each form: a plus sign and zeros in front of a decimal, capitals in a hexadecimal
    one, and the least number that does not fit. -/
theorem parse_numerals_of_forms :
    parse "+0017" = .ok 17 ∧ parse "0XfF" = .ok 255 ∧ parse (Hex.marked (padded 2 255)) = .ok 255 ∧
      ∃ e, parse ("0x1" ++ String.ofList (List.replicate 64 '0')) = .error e := by
  obtain ⟨hread, -, hdigits, hbytes, hgreat⟩ := parse_numerals
  refine ⟨?_, hdigits 255 'X' ['f', 'F'] (.inr rfl) (by decide), hbytes 255 2 (by decide), ?_⟩
  · exact (hread _ _).mpr (.inr (denotes_iff_readNat?.mpr (by decide)))
  · exact hgreat _ (2 ^ 256) (denotes_iff_readNat?.mpr (by decide +kernel)) (Nat.le_refl _)

/-! ## Refusal -/

/-- **One pass.** The digits in front are too many for a word; or they are not, and a character
    behind them is refused. -/
theorem parseDigits_eq_error_iff {radix : Nat} (hradix : 0 < radix) {whole : String}
    {cs : List Char} {acc : Word} {e : ParseError} :
    parseDigits radix whole cs acc = .error e ↔
      bound ≤ addDigits radix acc.toNat (leadingDigits radix cs) ∧ e = .overflow whole ∨
      addDigits radix acc.toNat (leadingDigits radix cs) < bound ∧
        (leadingDigits radix cs).length < cs.length ∧ e = .invalidNumber whole := by
  rw [parseDigits_eq hradix]
  split
  · next hge =>
    rw [or_iff_left fun h => Nat.not_lt.mpr hge h.1, and_iff_right hge, Except.error.injEq]
    exact eq_comm
  · next hlt =>
    have hword := Nat.lt_of_not_le hlt
    rw [or_iff_right fun h => hlt h.1, and_iff_right hword]
    split
    · next hbehind =>
      rw [and_iff_right hbehind, Except.error.injEq]
      exact eq_comm
    · next hall => exact iff_of_false (fun h => nomatch h) fun h => hall h.1

/-- The number that the digits in front of the first other character add up to. -/
def frontValue (s : String) : Nat :=
  Nat.ofDigits (radixOf s) (leadingDigits (radixOf s) (digitsOf s)).reverse

/-- Of a numeral all digits stand in front. -/
theorem frontValue_of_denotes {s : String} {n : Nat} (h : Denotes s n) : frontValue s = n :=
  ((hasValue_iff_leadingDigits (radixOf_bounds s).2).mp (denotes_iff.mp h)).2.2

/-- A text is no numeral if it has no digits, or a character that is none behind them. -/
theorem not_denotes_iff {s : String} :
    (∀ n, ¬ Denotes s n) ↔
      digitsOf s = [] ∨
        (leadingDigits (radixOf s) (digitsOf s)).length < (digitsOf s).length := by
  simp only [denotes_iff, hasValue_iff_leadingDigits (radixOf_bounds s).2]
  have hle := length_leadingDigits_le (radixOf s) (digitsOf s)
  constructor
  · intro h
    by_cases hnil : digitsOf s = []
    · exact .inl hnil
    · refine .inr (Nat.lt_of_le_of_ne hle fun hlength => ?_)
      exact h (frontValue s) ⟨hnil, hlength, rfl⟩
  · rintro (hnil | hlt) n ⟨hne, hlength, -⟩
    · exact hne hnil
    · exact Nat.ne_of_lt hlt hlength

theorem parse_of_ne_empty {s : String} (h : s ≠ "") :
    parse s = if digitsOf s = [] then .error (.invalidNumber s)
      else parseDigits (radixOf s) s (digitsOf s) 0 := by
  have hne : s.toList ≠ [] := fun hnil => h (String.toList_inj.mp hnil)
  unfold parse radixOf digitsOf
  rw [if_neg hne]
  cases Hex.hasMark s.toList <;> rfl

/-- **Errors.** A text that is not empty is refused because the number in front is too great, or
    else because it is no numeral. -/
theorem parse_eq_error_iff_of_ne_empty {s : String} (h : s ≠ "") {e : ParseError} :
    parse s = .error e ↔
      2 ^ 256 ≤ frontValue s ∧ e = .overflow s ∨
      frontValue s < 2 ^ 256 ∧ (∀ n, ¬ Denotes s n) ∧ e = .invalidNumber s := by
  rw [parse_of_ne_empty h, not_denotes_iff]
  split
  · next hnil =>
    have hzero : frontValue s = 0 := by
      rw [frontValue, hnil]
      rfl
    rw [hzero]
    constructor
    · intro h
      cases h
      exact .inr ⟨by decide, .inl hnil, rfl⟩
    · rintro (⟨hge, -⟩ | ⟨-, -, rfl⟩)
      · exact absurd hge (by decide)
      · rfl
  · next hne =>
    have hfront : addDigits (radixOf s) (0 : Word).toNat (leadingDigits (radixOf s) (digitsOf s)) =
        frontValue s := addDigits_zero _ _
    have hradix := (radixOf_bounds s).1
    rw [parseDigits_eq_error_iff (by omega), hfront, or_iff_right hne]
    rfl

theorem Denotes.ne_empty {s : String} {n : Nat} (h : Denotes s n) : s ≠ "" := by
  rintro rfl
  cases denotes_iff_readNat?.mp h

/-- A numeral is refused only because its number does not fit. -/
theorem parse_eq_error_iff_of_denotes {s : String} {n : Nat} (h : Denotes s n) {e : ParseError} :
    parse s = .error e ↔ 2 ^ 256 ≤ n ∧ e = .overflow s := by
  rw [parse_eq_error_iff_of_ne_empty h.ne_empty, frontValue_of_denotes h]
  exact or_iff_left fun hnone => hnone.2.1 n h

/-- What is no numeral is refused, and the digits in front decide how. -/
theorem parse_of_not_denotes {s : String} (hne : s ≠ "") (hnone : ∀ n, ¬ Denotes s n) :
    parse s = .error (if 2 ^ 256 ≤ frontValue s then .overflow s else .invalidNumber s) := by
  refine (parse_eq_error_iff_of_ne_empty hne).mpr ?_
  split
  · next hge => exact .inl ⟨hge, rfl⟩
  · next hlt => exact .inr ⟨Nat.not_le.mp hlt, hnone, rfl⟩

/-- **Why texts are refused.** A text is refused in two cases. It is the numeral of a number of
    `2 ^ 256` or more, and the error says that it does not fit. Or it is not empty and no numeral,
    and then the error says so, unless the digits in front of its first other character already add
    up to `2 ^ 256` or more: such a text is reported as a number that does not fit. -/
theorem parse_eq_error_iff (s : String) (e : ParseError) :
    parse s = .error e ↔
      (∃ n, Denotes s n ∧ 2 ^ 256 ≤ n ∧ e = .overflow s) ∨
      (s ≠ "" ∧ (∀ n, ¬ Denotes s n) ∧
        e = if 2 ^ 256 ≤ frontValue s then .overflow s else .invalidNumber s) := by
  constructor
  · intro h
    by_cases hempty : s = ""
    · subst hempty
      cases h
    by_cases hnumeral : ∃ n, Denotes s n
    · obtain ⟨n, hn⟩ := hnumeral
      obtain ⟨hge, he⟩ := (parse_eq_error_iff_of_denotes hn).mp h
      exact .inl ⟨n, hn, hge, he⟩
    · have hnone : ∀ n, ¬ Denotes s n := not_exists.mp hnumeral
      rw [parse_of_not_denotes hempty hnone] at h
      exact .inr ⟨hempty, hnone, (Except.error.inj h).symm⟩
  · rintro (⟨n, hn, hge, he⟩ | ⟨hne, hnone, rfl⟩)
    · exact (parse_eq_error_iff_of_denotes hn).mpr ⟨hge, he⟩
    · exact parse_of_not_denotes hne hnone

/-- A text that ends in a letter and is no numeral, but is refused as one that does not fit: the
    digits in front of the letter are those of `2 ^ 256`. -/
theorem parse_overflow_of_letter :
    let s := "115792089237316195423570985008687907853269984665640564039457584007913129639936x"
    (∀ n, ¬ Denotes s n) ∧ parse s = .error (.overflow s) ∧
      parse s ≠ .error (.invalidNumber s) := by
  intro s
  have hparse : parse s = .error (.overflow s) := by decide +kernel
  have hnone : readNat? (radixOf s) (digitsOf s) = none := by decide +kernel
  refine ⟨fun n h => ?_, hparse, ?_⟩
  · rw [denotes_iff_readNat?, hnone] at h
    cases h
  · rw [hparse]
    intro h
    cases h

end Word

end ChainClient
