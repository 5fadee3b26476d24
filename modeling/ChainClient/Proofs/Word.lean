import ChainClient.Proofs.Hex
import ChainClient.Word

/-!
# `ChainClient.Proofs.Word` — the texts that spell a word

## Contents
- **Digits.** `parseDigits_eq` gives the outcome of the pass through the digits, and
  `parseDigits_eq_ok_iff` says which are read.
- **Texts.** `Word.IsSpelling` lists the spellings of a word: the empty text for zero, decimals, and
  marked hexadecimal. `parse_eq_ok_iff` ties it to the reader, and `isSpelling_text` to the writer.
-/

namespace ChainClient

namespace Word

open Numeral

/-! ## Digits -/

theorem le_addDigits {radix acc : Nat} (hradix : 0 < radix) (ds : List Nat) :
    acc ≤ addDigits radix acc ds := by
  induction ds generalizing acc with
  | nil => exact Nat.le_refl acc
  | cons d ds ih =>
    calc acc ≤ acc * radix + d := Nat.le_add_right_of_le (Nat.le_mul_of_pos_right acc hradix)
      _ ≤ addDigits radix acc (d :: ds) := ih

/-- **One pass.** The digits in front of the first other character are added up, and refused when
    they are too many for a word: no number on the way is greater than the one at the end. Only then
    does the other character count. -/
theorem parseDigits_eq {radix : Nat} (hradix : 0 < radix) (whole : String) (cs : List Char)
    (acc : Word) :
    parseDigits radix whole cs acc =
      if bound ≤ addDigits radix acc.toNat (leadingDigits radix cs) then .error (.overflow whole)
      else if (leadingDigits radix cs).length < cs.length then .error (.invalidNumber whole)
      else .ok (BitVec.ofNat 256 (addDigits radix acc.toNat (leadingDigits radix cs))) := by
  have hacc : ∀ acc : Word, ¬ bound ≤ acc.toNat := fun acc => Nat.not_le.mpr acc.isLt
  induction cs generalizing acc with
  | nil =>
    show Except.ok acc = if bound ≤ acc.toNat then _ else .ok (BitVec.ofNat 256 acc.toNat)
    rw [if_neg (hacc acc), BitVec.ofNat_toNat, BitVec.setWidth_eq]
  | cons c cs ih =>
    cases hd : digit? radix c with
    | none =>
      have hfront : leadingDigits radix (c :: cs) = [] := by rw [leadingDigits, hd]
      rw [parseDigits, hd, hfront]
      exact ((if_neg (hacc acc)).trans (if_pos (Nat.succ_pos cs.length))).symm
    | some d =>
      have hfront : leadingDigits radix (c :: cs) = d :: leadingDigits radix cs := by
        rw [leadingDigits, hd]
      have hle : acc.toNat * radix + d ≤
          addDigits radix (acc.toNat * radix + d) (leadingDigits radix cs) :=
        le_addDigits hradix (leadingDigits radix cs)
      simp only [parseDigits, hd, hfront, List.length_cons, Nat.add_lt_add_iff_right,
        List.foldl_cons]
      split
      · next hfits =>
        have hword : (BitVec.ofNat 256 (acc.toNat * radix + d)).toNat = acc.toNat * radix + d := by
          rw [BitVec.toNat_ofNat]
          exact Nat.mod_eq_of_lt hfits
        rw [ih, hword]
      · next hbeyond => exact (if_pos (Nat.le_trans (Nat.not_lt.mp hbeyond) hle)).symm

/-- **Digits** are read as the word that they add up to. -/
theorem parseDigits_eq_ok_iff {radix : Nat} (hradix : 0 < radix) (hradix' : radix ≤ 16)
    {whole : String} {cs : List Char} {acc w : Word} :
    parseDigits radix whole cs acc = .ok w ↔
      ∃ ds, AreDigits radix cs ds ∧ addDigits radix acc.toNat ds = w.toNat := by
  rw [parseDigits_eq hradix]
  constructor
  · intro h
    split at h
    · cases h
    next hlt =>
    split at h
    · cases h
    next hall =>
    have hlength := Nat.le_antisymm (length_leadingDigits_le radix cs) (Nat.not_lt.mp hall)
    refine ⟨_, (areDigits_iff hradix').mpr ⟨rfl, hlength⟩, ?_⟩
    rw [← Except.ok.inj h, BitVec.toNat_ofNat]
    exact (Nat.mod_eq_of_lt (Nat.lt_of_not_le hlt)).symm
  · rintro ⟨ds, hds, hsum⟩
    obtain ⟨rfl, hlength⟩ := (areDigits_iff hradix').mp hds
    have hlt : ¬ bound ≤ w.toNat := Nat.not_le.mpr w.isLt
    simp only [hsum]
    rw [if_neg hlt, if_neg (Nat.not_lt.mpr (Nat.le_of_eq hlength.symm)), BitVec.ofNat_toNat,
      BitVec.setWidth_eq]

/-- A run of digits that is not empty is read from zero on. -/
theorem parseRun_eq_ok_iff {radix : Nat} (hradix : 1 < radix) (hradix' : radix ≤ 16)
    {whole : String} {cs : List Char} {w : Word} :
    (if cs = [] then .error (.invalidNumber whole) else parseDigits radix whole cs 0) = .ok w ↔
      IsNumeral radix (cs.map Char.toLower) w.toNat := by
  split
  · next hnil =>
    constructor
    · intro h
      cases h
    · intro h
      exact absurd (by rw [hnil]; rfl) h.ne_nil
  · next hne =>
    rw [parseDigits_eq_ok_iff (by omega) hradix']
    constructor
    · rintro ⟨ds, hds, hsum⟩
      rw [← hsum]
      exact isNumeral_addDigits hradix [] (.inl ⟨rfl, rfl⟩) hds hne
    · intro h
      exact exists_digits_of_isNumeral hradix h

/-! ## Texts -/

/-- **The spellings of a number.** The empty text spells zero; any other is a decimal numeral, or
    a hexadecimal one in letters of any case behind a mark. -/
inductive IsSpelling (s : String) (n : Nat) : Prop where
  | empty (hs : s = "") (hn : n = 0)
  | decimal (h : IsDecimal s.toList n)
  | hexadecimal {mark : Char} {digits : List Char} (hs : s.toList = '0' :: mark :: digits)
      (hmark : mark = 'x' ∨ mark = 'X') (h : IsNumeral 16 (digits.map Char.toLower) n)

/-- A decimal has no mark. -/
theorem hasMark_of_isDecimal {cs : List Char} {n : Nat} (h : IsDecimal cs n) :
    Hex.hasMark cs = false := by
  apply Bool.eq_false_iff.mpr
  intro hmark
  obtain ⟨mark, digits, rfl, hx⟩ := Hex.hasMark_iff.mp hmark
  have hnumeral := isNumeral_dropPlus_iff.mpr h
  have hdigit := isDigit_of_mem hnumeral (List.mem_cons_of_mem '0' List.mem_cons_self)
  rcases hx with rfl | rfl
  · cases hdigit
  · cases hdigit

/-- **Reading.** The spellings of a word are read, and nothing else is. -/
theorem parse_eq_ok_iff {s : String} {w : Word} : parse s = .ok w ↔ IsSpelling s w.toNat := by
  unfold parse
  split
  · next hnil =>
    have hs : s = "" := String.toList_inj.mp hnil
    constructor
    · intro h
      cases h
      exact .empty hs rfl
    · intro h
      cases h with
      | empty _ hn => exact congrArg Except.ok (BitVec.eq_of_toNat_eq hn.symm)
      | decimal h => exact absurd hnil h.ne_nil
      | hexadecimal h => exact absurd (h.symm.trans hnil) (List.cons_ne_nil _ _)
  · next hne =>
    cases hmark : Hex.hasMark s.toList with
    | true =>
      obtain ⟨mark, digits, hs, hx⟩ := Hex.hasMark_iff.mp hmark
      simp only [if_true, hs, List.drop_succ_cons, List.drop_zero]
      rw [parseRun_eq_ok_iff (by decide) (by decide)]
      constructor
      · intro h
        exact .hexadecimal hs hx h
      · intro h
        cases h with
        | empty hempty _ => exact absurd (hempty ▸ rfl) hne
        | decimal h => exact absurd (hasMark_of_isDecimal h) (by simp [hmark])
        | hexadecimal hs' _ h =>
          rw [hs] at hs'
          cases hs'
          exact h
    | false =>
      simp only [Bool.false_eq_true, if_false]
      rw [parseRun_eq_ok_iff (by decide) (by decide), isNumeral_ten_map_toLower,
        isNumeral_dropPlus_iff]
      constructor
      · intro h
        exact .decimal h
      · intro h
        cases h with
        | empty hempty _ => exact absurd (hempty ▸ rfl) hne
        | decimal h => exact h
        | hexadecimal hs hx _ =>
          exact absurd (Hex.hasMark_iff.mpr ⟨_, _, hs, hx⟩) (by simp [hmark])

/-- **Writing.** The text of a word is one of its spellings. -/
theorem isSpelling_text (w : Word) : IsSpelling w.text w.toNat := by
  refine .decimal ?_
  rw [text, Nat.repr_eq_ofList_toDigits, String.toList_ofList]
  exact isDecimal_toDigits w.toNat

end Word

end ChainClient
