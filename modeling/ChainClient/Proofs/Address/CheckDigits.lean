import ChainClient.Address.Iban
import ChainClient.Proofs.Outcome
import ChainClient.Proofs.Text.Radix
import Mathlib.Data.Nat.ModEq

/-!
# `ChainClient.Proofs.Address.CheckDigits` — what the check digits of an account number check

The check keeps one remainder while it reads digits and letters. What that remainder is about is one
number: the account number with its first four characters moved to the end, and every letter written
as the two digits of 10 to 35. A slip of the hand changes that number by a small multiple of a power
of ten, which 97 does not divide.

## Contents
- **Characters.** `IsPlain` characters are digits and capital letters; `worth` is their value.
- **Expansion.** `expandedNumber` is the number that a text expands to, `checkedNumber` that of the
  text with its first four characters last. `expandedNumber_append` weighs the parts of a text.
- **Remainder.** `remainder97?_eq` and `isValidIban_iff` tie the check to the number.
- **Slips.** `Mistyped` texts differ in one character, or in the order of two neighbours;
  `not_isValidIban_of_mistyped` says that the check finds them out.
-/

namespace ChainClient

namespace Address

/-! ## Characters -/

/-- Decimal digits and capital letters. -/
def IsPlain (c : Char) : Prop := c.isDigit = true ∨ c.isUpper = true

/-- The value of a digit or capital letter. Letters count on from ten. -/
def worth (c : Char) : Nat := if c.isDigit then c.toNat - 48 else c.toNat - 55

theorem code_of_isUpper {c : Char} (h : c.isUpper = true) : 65 ≤ c.toNat ∧ c.toNat ≤ 90 := by
  exact of_decide_eq_true h

theorem not_isDigit_of_isUpper {c : Char} (h : c.isUpper = true) : ¬ c.isDigit = true := by
  intro hdigit
  have hlow := (code_of_isUpper h).1
  have hhigh := (Numeral.code_of_isDigit hdigit).2
  omega

theorem worth_of_isDigit {c : Char} (h : c.isDigit = true) :
    worth c + 48 = c.toNat ∧ worth c < 10 := by
  have hcode := Numeral.code_of_isDigit h
  rw [worth, if_pos h]
  omega

theorem worth_of_isUpper {c : Char} (h : c.isUpper = true) :
    worth c + 55 = c.toNat ∧ 10 ≤ worth c ∧ worth c < 36 := by
  have hcode := code_of_isUpper h
  rw [worth, if_neg (not_isDigit_of_isUpper h)]
  omega

theorem isPlain_countryCode : ∀ c ∈ countryCode, IsPlain c := by
  intro c hc
  rcases List.mem_pair.mp hc with rfl | rfl
  · exact .inr rfl
  · exact .inr rfl

/-- Plain characters are digits of radix 36. -/
theorem digit?_of_isPlain {c : Char} (h : IsPlain c) : Numeral.digit? 36 c = some (worth c) := by
  unfold Numeral.digit?
  simp only
  rcases h with hdigit | hupper
  · have hcode := Numeral.code_of_isDigit hdigit
    have hworth := worth_of_isDigit hdigit
    rw [if_pos hcode, Option.filter_some, if_pos (decide_eq_true (by omega))]
    exact congrArg some (by omega)
  · have hcode := code_of_isUpper hupper
    have hworth := worth_of_isUpper hupper
    rw [if_neg (by omega), if_neg (by omega), if_pos hcode, Option.filter_some,
      if_pos (decide_eq_true (by omega))]
    exact congrArg some (by omega)

theorem mapM_digit?_of_isPlain {cs : List Char} (h : ∀ c ∈ cs, IsPlain c) :
    cs.mapM (Numeral.digit? 36) = some (cs.map worth) := by
  rw [Outcome.mapM_eq_some_iff, List.forall₂_map_right_iff, List.forall₂_same]
  exact fun c hc => digit?_of_isPlain (h c hc)

/-! ## Expansion -/

/-- The decimal digits that stand for a character: a digit for itself, and the two digits of its
    value for a letter. -/
def expansion (c : Char) : List Nat :=
  if c.isDigit then [worth c] else [worth c / 10, worth c % 10]

/-- The number that a text of digits and capital letters expands to. -/
def expandedNumber (cs : List Char) : Nat := Numeral.ofDigits 10 (cs.flatMap expansion)

/-- The number of digits of that expansion. -/
def expandedLength (cs : List Char) : Nat := (cs.flatMap expansion).length

/-- A text with its first four characters, the country code and the check digits, at the end. -/
def rotated (cs : List Char) : List Char := cs.drop 4 ++ cs.take 4

/-- **The checked number** (ISO 13616). -/
def checkedNumber (cs : List Char) : Nat := expandedNumber (rotated cs)

/-- The characters in front count as often as the digits behind allow for. -/
theorem expandedNumber_append (as bs : List Char) :
    expandedNumber (as ++ bs) = expandedNumber as * 10 ^ expandedLength bs + expandedNumber bs := by
  rw [expandedNumber, List.flatMap_append, Numeral.ofDigits_append]
  rfl

theorem expandedLength_append (as bs : List Char) :
    expandedLength (as ++ bs) = expandedLength as + expandedLength bs := by
  rw [expandedLength, List.flatMap_append, List.length_append]
  rfl

theorem expandedNumber_singleton (c : Char) : expandedNumber [c] = worth c := by
  show Numeral.ofDigits 10 (expansion c ++ []) = worth c
  rw [List.append_nil, expansion]
  split
  · show 0 * 10 + worth c = worth c
    omega
  · show (0 * 10 + worth c / 10) * 10 + worth c % 10 = worth c
    omega

theorem expandedLength_singleton (c : Char) :
    expandedLength [c] = if c.isDigit then 1 else 2 := by
  show (expansion c ++ []).length = _
  rw [List.append_nil, expansion]
  split <;> rfl

theorem expandedNumber_pair (c d : Char) :
    expandedNumber [c, d] = worth c * 10 ^ expandedLength [d] + worth d := by
  rw [← expandedNumber_singleton c, ← expandedNumber_singleton d]
  exact expandedNumber_append [c] [d]

/-! ## Remainder -/

/-- One more character multiplies by ten for each of its digits. -/
theorem feed97_eq {c : Char} (h : IsPlain c) (acc : Nat) :
    feed97 (acc % 97) (worth c) = (acc * 10 ^ expandedLength [c] + worth c) % 97 := by
  unfold feed97
  rw [expandedLength_singleton]
  rcases h with hdigit | hupper
  · have hworth := worth_of_isDigit hdigit
    rw [if_neg (by omega), if_pos hdigit]
    omega
  · have hworth := worth_of_isUpper hupper
    rw [if_pos hworth.2.1, if_neg (not_isDigit_of_isUpper hupper)]
    omega

/-- **The running remainder** is that of the number read so far. -/
theorem foldl_feed97 {cs : List Char} (h : ∀ c ∈ cs, IsPlain c) (acc : Nat) :
    (cs.map worth).foldl feed97 (acc % 97) =
      (acc * 10 ^ expandedLength cs + expandedNumber cs) % 97 := by
  induction cs generalizing acc with
  | nil => exact congrArg (· % 97) (Nat.mul_one acc).symm
  | cons c cs ih =>
    obtain ⟨hc, hcs⟩ := List.forall_mem_cons.mp h
    have hnumber := expandedNumber_append [c] cs
    have hlength := expandedLength_append [c] cs
    rw [expandedNumber_singleton] at hnumber
    change expandedNumber (c :: cs) = _ at hnumber
    change expandedLength (c :: cs) = _ at hlength
    rw [List.map_cons, List.foldl_cons, feed97_eq hc, ih hcs, hnumber, hlength, pow_add]
    congr 1
    ring

/-- **The remainder** of a text is that of the number it expands to. -/
theorem remainder97?_eq {cs : List Char} (hlen : 4 ≤ cs.length) (h : ∀ c ∈ cs, IsPlain c) :
    remainder97? cs = some (checkedNumber cs % 97) := by
  have hrotated : ∀ c ∈ rotated cs, IsPlain c := by
    intro c hc
    rcases List.mem_append.mp hc with hbehind | hfront
    · exact h c (List.mem_of_mem_drop hbehind)
    · exact h c (List.mem_of_mem_take hfront)
  have hrun := foldl_feed97 hrotated 0
  rw [Nat.zero_mod, Nat.zero_mul, Nat.zero_add] at hrun
  rw [remainder97?, if_neg (Nat.not_lt.mpr hlen)]
  show ((rotated cs).mapM (Numeral.digit? 36)).map _ = _
  rw [mapM_digit?_of_isPlain hrotated, Option.map_some, hrun]
  rfl

/-- **Form.** The length, the country code, two digits, and plain characters behind them. -/
theorem hasIbanForm_iff {cs : List Char} :
    hasIbanForm cs = true ↔ (cs.length = 34 ∨ cs.length = 35) ∧ cs.take 2 = countryCode ∧
      (∀ c ∈ (cs.drop 2).take 2, c.isDigit = true) ∧ ∀ c ∈ cs.drop 4, IsPlain c := by
  unfold hasIbanForm IsPlain
  simp only [Bool.and_eq_true, Bool.or_eq_true, beq_iff_eq, List.all_eq_true, and_assoc]

/-- All characters of a text in the right form are plain. -/
theorem isPlain_of_hasIbanForm {cs : List Char} (h : hasIbanForm cs = true) :
    ∀ c ∈ cs, IsPlain c := by
  obtain ⟨_, hcountry, hcheck, haccount⟩ := hasIbanForm_iff.mp h
  have hsplit : cs = cs.take 2 ++ ((cs.drop 2).take 2 ++ cs.drop 4) := by
    rw [← List.drop_drop (j := 2) (i := 2), List.take_append_drop, List.take_append_drop]
  rw [hsplit, List.forall_mem_append, List.forall_mem_append, hcountry]
  exact ⟨isPlain_countryCode, fun c hc => .inl (hcheck c hc), haccount⟩

/-- **The check.** A text in the right form is accepted if its number leaves 1. -/
theorem isValidIban_iff {s : String} :
    isValidIban s = true ↔ hasIbanForm s.toList = true ∧ checkedNumber s.toList % 97 = 1 := by
  rw [isValidIban, Bool.and_eq_true, beq_iff_eq]
  refine and_congr_right fun hform => ?_
  have hlen := (hasIbanForm_iff.mp hform).1
  rw [remainder97?_eq (by omega) (isPlain_of_hasIbanForm hform), Option.some_inj]

/-! ## Slips -/

/-- Characters of one class: both digits, or both capital letters. -/
def SameClass (c d : Char) : Prop :=
  c.isDigit = true ∧ d.isDigit = true ∨ c.isUpper = true ∧ d.isUpper = true

/-- **Slips.** A text that differs from another in one character behind the country code, or in the
    order of two neighbours behind the check digits, digits for digits and letters for letters. -/
inductive Mistyped : List Char → List Char → Prop where
  | replaced {c d : Char} (front back : List Char) (hfront : 2 ≤ front.length)
      (hclass : SameClass c d) (hne : c ≠ d) : Mistyped (front ++ c :: back) (front ++ d :: back)
  | swapped {c d : Char} (front back : List Char) (hfront : 4 ≤ front.length)
      (hclass : SameClass c d) (hne : c ≠ d) :
      Mistyped (front ++ c :: d :: back) (front ++ d :: c :: back)

theorem SameClass.expandedLength_eq {c d : Char} (h : SameClass c d) :
    expandedLength [c] = expandedLength [d] := by
  rw [expandedLength_singleton, expandedLength_singleton]
  rcases h with ⟨hc, hd⟩ | ⟨hc, hd⟩
  · rw [if_pos hc, if_pos hd]
  · rw [if_neg (not_isDigit_of_isUpper hc), if_neg (not_isDigit_of_isUpper hd)]

/-- Different characters of one class differ in value, by less than 26. -/
theorem SameClass.worth_ne {c d : Char} (h : SameClass c d) (hne : c ≠ d) : worth c ≠ worth d := by
  intro hworth
  apply hne
  rw [← Char.toNat_inj]
  rcases h with ⟨hc, hd⟩ | ⟨hc, hd⟩
  · have := worth_of_isDigit hc
    have := worth_of_isDigit hd
    omega
  · have := worth_of_isUpper hc
    have := worth_of_isUpper hd
    omega

/-- A replaced character changes the number by less than 97. -/
theorem SameClass.not_modEq_replaced {c d : Char} (h : SameClass c d) (hne : c ≠ d) :
    ¬ expandedNumber [c] ≡ expandedNumber [d] [MOD 97] := by
  have hworth := h.worth_ne hne
  rw [expandedNumber_singleton, expandedNumber_singleton, Nat.ModEq]
  rcases h with ⟨hc, hd⟩ | ⟨hc, hd⟩
  · have := worth_of_isDigit hc
    have := worth_of_isDigit hd
    omega
  · have := worth_of_isUpper hc
    have := worth_of_isUpper hd
    omega

/-- Swapped neighbours change the number by 9 times their difference, or by 99 times, which leaves
    twice the difference. -/
theorem SameClass.not_modEq_swapped {c d : Char} (h : SameClass c d) (hne : c ≠ d) :
    ¬ expandedNumber [c, d] ≡ expandedNumber [d, c] [MOD 97] := by
  have hworth := h.worth_ne hne
  rw [expandedNumber_pair, expandedNumber_pair, expandedLength_singleton, expandedLength_singleton,
    Nat.ModEq]
  rcases h with ⟨hc, hd⟩ | ⟨hc, hd⟩
  · have := worth_of_isDigit hc
    have := worth_of_isDigit hd
    rw [if_pos hc, if_pos hd]
    omega
  · have := worth_of_isUpper hc
    have := worth_of_isUpper hd
    rw [if_neg (not_isDigit_of_isUpper hc), if_neg (not_isDigit_of_isUpper hd)]
    omega

/-- **Only the change counts.** Texts that differ in one place leave the same remainder exactly if
    what stands in that place does: 97 divides no power of ten. -/
theorem expandedNumber_modEq_iff (front back : List Char) {mid mid' : List Char}
    (hlen : expandedLength mid = expandedLength mid') :
    expandedNumber (front ++ (mid ++ back)) ≡ expandedNumber (front ++ (mid' ++ back)) [MOD 97] ↔
      expandedNumber mid ≡ expandedNumber mid' [MOD 97] := by
  have hcoprime : Nat.gcd 97 (10 ^ expandedLength back) = 1 :=
    Nat.Coprime.pow_right _ (by decide)
  simp only [expandedNumber_append, expandedLength_append, hlen]
  constructor
  · intro h
    have hmid := Nat.ModEq.add_left_cancel' _ h
    exact Nat.ModEq.cancel_right_of_coprime hcoprime (Nat.ModEq.add_right_cancel' _ hmid)
  · intro h
    exact Nat.ModEq.add_left _ (Nat.ModEq.add_right _ (Nat.ModEq.mul_right _ h))

/-- A place within the first four characters, or behind them, is one place of the rotated text. -/
theorem exists_rotated (front back : List Char) {width : Nat}
    (h : 4 ≤ front.length ∨ front.length + width ≤ 4) :
    ∃ front' back', ∀ mid : List Char, mid.length = width →
      rotated (front ++ (mid ++ back)) = front' ++ (mid ++ back') := by
  rcases h with hbehind | hwithin
  · refine ⟨front.drop 4, back ++ front.take 4, fun mid _ => ?_⟩
    rw [rotated, List.drop_append_of_le_length hbehind, List.take_append_of_le_length hbehind]
    simp only [List.append_assoc]
  · refine ⟨back.drop (4 - front.length - width) ++ front,
      back.take (4 - front.length - width), fun mid hmid => ?_⟩
    rw [rotated, List.drop_append, List.take_append, List.drop_append, List.take_append, hmid,
      List.drop_of_length_le (by omega), List.take_of_length_le (by omega),
      List.drop_of_length_le (by omega), List.take_of_length_le (by omega)]
    simp only [List.nil_append, List.append_assoc]

theorem checkedNumber_modEq_iff (front mid mid' back : List Char)
    (h : 4 ≤ front.length ∨ front.length + mid.length ≤ 4) (hwidth : mid'.length = mid.length)
    (hlen : expandedLength mid = expandedLength mid') :
    checkedNumber (front ++ (mid ++ back)) ≡ checkedNumber (front ++ (mid' ++ back)) [MOD 97] ↔
      expandedNumber mid ≡ expandedNumber mid' [MOD 97] := by
  obtain ⟨front', back', hrotated⟩ := exists_rotated front back h
  rw [checkedNumber, checkedNumber, hrotated mid rfl, hrotated mid' hwidth]
  exact expandedNumber_modEq_iff front' back' hlen

/-- **Slips** change the remainder of the checked number. -/
theorem checkedNumber_of_mistyped {cs ds : List Char} (h : Mistyped cs ds) :
    ¬ checkedNumber cs ≡ checkedNumber ds [MOD 97] := by
  intro hsame
  cases h with
  | @replaced c d front back hfront hclass hne =>
    have hplace : 4 ≤ front.length ∨ front.length + [c].length ≤ 4 := by
      rw [List.length_singleton]
      omega
    have hmid := checkedNumber_modEq_iff front [c] [d] back hplace rfl hclass.expandedLength_eq
    exact hclass.not_modEq_replaced hne (hmid.mp hsame)
  | @swapped c d front back hfront hclass hne =>
    have hlen : expandedLength ([c] ++ [d]) = expandedLength ([d] ++ [c]) := by
      rw [expandedLength_append, expandedLength_append, Nat.add_comm]
    have hmid := checkedNumber_modEq_iff front [c, d] [d, c] back (.inl hfront) rfl hlen
    exact hclass.not_modEq_swapped hne (hmid.mp hsame)

/-- **Check digits find slips out.** What is mistyped for an accepted number, by one character
    behind the country code or by two neighbours behind the check digits, is not accepted. -/
theorem not_isValidIban_of_mistyped {s t : String} (h : isValidIban s = true)
    (hslip : Mistyped s.toList t.toList) : isValidIban t = false := by
  rw [← Bool.not_eq_true]
  intro ht
  have hs := (isValidIban_iff.mp h).2
  have ht := (isValidIban_iff.mp ht).2
  exact checkedNumber_of_mistyped hslip (hs.trans ht.symm)

/-- A number with the wrong check digit, and one with two letters swapped. -/
theorem not_isValidIban_of_mistyped_letters :
    isValidIban "TH93112A8NT0RIRPIXR7IXJBB1U0ZBXEB1K" = true ∧
    isValidIban "TH94112A8NT0RIRPIXR7IXJBB1U0ZBXEB1K" = false ∧
    isValidIban "TH93112A8NT0RIRPIXR7IXJBB1U0ZBXBE1K" = false := by
  have h : isValidIban "TH93112A8NT0RIRPIXR7IXJBB1U0ZBXEB1K" = true := by decide
  have hdigit : Mistyped "TH93112A8NT0RIRPIXR7IXJBB1U0ZBXEB1K".toList
      "TH94112A8NT0RIRPIXR7IXJBB1U0ZBXEB1K".toList :=
    .replaced "TH9".toList "112A8NT0RIRPIXR7IXJBB1U0ZBXEB1K".toList (by decide)
      (.inl (by decide)) (by decide)
  have hletters : Mistyped "TH93112A8NT0RIRPIXR7IXJBB1U0ZBXEB1K".toList
      "TH93112A8NT0RIRPIXR7IXJBB1U0ZBXBE1K".toList :=
    .swapped "TH93112A8NT0RIRPIXR7IXJBB1U0ZBX".toList "1K".toList (by decide)
      (.inr (by decide)) (by decide)
  exact ⟨h, not_isValidIban_of_mistyped h hdigit, not_isValidIban_of_mistyped h hletters⟩

end Address

end ChainClient
