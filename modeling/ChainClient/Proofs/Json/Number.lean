import ChainClient.Proofs.Json.String
import ChainClient.Proofs.Text.Numeral
import Mathlib.Data.List.TakeWhile

/-!
# `ChainClient.Proofs.Json.Number` — JSON numbers, written and read back

A number is the one token without a mark at its end: it goes on as long as it can. So a number is
read back from a longer text only if what stands behind it does not continue it.

## Contents
- **Ends.** `EndsDigits`, `EndsFraction` and `EndsNumber` are what does not continue a number, or a
  part of it.
- **Parts.** One law for each part of a number, and `splitNumber_append` for all of them.
- **Numbers.** `Reads.number_append`: what stands behind a number is left.
- **Kept numbers.** `IsNumber` is the form in which numbers are kept. What is read has that form
  (`isNumber_of_splitNumber`), and is read again as it is (`Reads.numberOf?_eq`).
- **Digits.** `numberOf?_digits`: the decimal digits of a number are a number.
-/

namespace ChainClient

namespace JsonSource

/-! ## Ends -/

/-- What does not continue a run of digits. -/
def EndsDigits (rest : Bytes) : Prop := ∀ b bs, rest = b :: bs → isDigit b = false

/-- What does not continue a number up to its fraction. -/
def EndsFraction (rest : Bytes) : Prop :=
  ∀ b bs, rest = b :: bs → isDigit b = false ∧ b ≠ 0x2E

/-- What does not continue a number. -/
def EndsNumber (rest : Bytes) : Prop :=
  ∀ b bs, rest = b :: bs → isDigit b = false ∧ b ≠ 0x2E ∧ b ≠ 0x65 ∧ b ≠ 0x45

theorem EndsFraction.endsDigits {rest : Bytes} (h : EndsFraction rest) : EndsDigits rest :=
  fun b bs hb => (h b bs hb).1

theorem EndsNumber.endsFraction {rest : Bytes} (h : EndsNumber rest) : EndsFraction rest :=
  fun b bs hb => ⟨(h b bs hb).1, (h b bs hb).2.1⟩

theorem endsNumber_nil : EndsNumber [] := fun _ _ h => nomatch h

theorem endsNumber_cons {b : UInt8} {bs : Bytes}
    (h : isDigit b = false ∧ b ≠ 0x2E ∧ b ≠ 0x65 ∧ b ≠ 0x45) : EndsNumber (b :: bs) := by
  rintro _ _ ⟨⟩
  exact h

/-! ## Parts -/

theorem spanDigits_append {rest : Bytes} (hrest : EndsDigits rest) (bs : Bytes) :
    spanDigits (bs ++ rest) = ((spanDigits bs).1, (spanDigits bs).2 ++ rest) := by
  induction bs with
  | nil =>
    cases rest with
    | nil => rfl
    | cons b rest => simp [spanDigits, hrest b rest rfl]
  | cons b bs ih =>
    cases hb : isDigit b with
    | false => simp [spanDigits, hb]
    | true =>
      simp only [spanDigits, Prod.mk.injEq] at ih
      simp [spanDigits, hb, ih.1, ih.2]

theorem readWhole_append {bs whole behind rest : Bytes} (hrest : EndsDigits rest)
    (h : readWhole bs = some (whole, behind)) :
    readWhole (bs ++ rest) = some (whole, behind ++ rest) := by
  unfold readWhole at h
  split at h
  · next tail =>
    cases tail with
    | nil =>
      cases h
      cases rest with
      | nil => rfl
      | cons b rest => simp [readWhole, hrest b rest rfl]
    | cons b tail =>
      simp only at h
      split at h
      · cases h
      · next hb =>
        cases h
        exact if_neg hb
  · next hzero =>
    split at h
    · cases h
    · next hdigits =>
      have hne : bs ≠ [] := by
        rintro rfl
        exact hdigits rfl
      obtain ⟨b, tail, rfl⟩ := List.exists_cons_of_ne_nil hne
      obtain ⟨rfl, rfl⟩ := Prod.mk.inj (Option.some.inj h)
      rw [readWhole, spanDigits_append hrest, if_neg hdigits]
      · rfl
      · rintro _ ⟨⟩
        exact hzero _ rfl

theorem readFraction_append {bs fraction behind rest : Bytes} (hrest : EndsFraction rest)
    (h : readFraction bs = some (fraction, behind)) :
    readFraction (bs ++ rest) = some (fraction, behind ++ rest) := by
  unfold readFraction at h
  split at h
  · next tail =>
    split at h
    · cases h
    · next hdigits =>
      cases h
      rw [List.cons_append, readFraction, spanDigits_append hrest.endsDigits, if_neg hdigits]
  · next hpoint =>
    cases h
    rw [readFraction]
    intro tail htail
    cases bs with
    | nil => exact (hrest _ _ htail).2 rfl
    | cons b bs => exact hpoint bs (by rw [(List.cons.inj htail).1])

/-- The sign of an exponent, and what stands behind it. -/
def exponentSign : Bytes → UInt8 × Bytes
  | 0x2D :: behind => (0x2D, behind)
  | 0x2B :: behind => (0x2B, behind)
  | bs => (0x2B, bs)

theorem readExponent_cons (b : UInt8) (bs : Bytes) :
    readExponent (b :: bs) =
      if b = 0x65 ∨ b = 0x45 then
        if (spanDigits (exponentSign bs).2).1 = [] then none
        else some (0x65 :: (exponentSign bs).1 :: (spanDigits (exponentSign bs).2).1,
          (spanDigits (exponentSign bs).2).2)
      else some ([], b :: bs) := by
  cases bs with
  | nil => rfl
  | cons sign behind =>
    by_cases hminus : sign = 0x2D
    · subst hminus
      rfl
    · by_cases hplus : sign = 0x2B
      · subst hplus
        rfl
      · have hnotMinus : ∀ rest, sign :: behind = 0x2D :: rest → False := fun _ heq =>
          hminus (List.cons.inj heq).1
        have hnotPlus : ∀ rest, sign :: behind = 0x2B :: rest → False := fun _ heq =>
          hplus (List.cons.inj heq).1
        rw [exponentSign, readExponent]
        · exact hnotMinus
        · exact hnotPlus
        · exact hnotMinus
        · exact hnotPlus

theorem exponentSign_append {bs : Bytes} (h : bs ≠ []) (rest : Bytes) :
    exponentSign (bs ++ rest) = ((exponentSign bs).1, (exponentSign bs).2 ++ rest) := by
  obtain ⟨b, bs, rfl⟩ := List.exists_cons_of_ne_nil h
  unfold exponentSign
  by_cases hminus : b = 0x2D
  · subst hminus
    rfl
  · by_cases hplus : b = 0x2B
    · subst hplus
      rfl
    · simp [hminus, hplus]

theorem readExponent_append {bs exponent behind rest : Bytes} (hrest : EndsNumber rest)
    (h : readExponent bs = some (exponent, behind)) :
    readExponent (bs ++ rest) = some (exponent, behind ++ rest) := by
  cases bs with
  | nil =>
    cases h
    -- without an exponent, what stands behind must not be taken for one
    cases rest with
    | nil => rfl
    | cons b rest =>
      obtain ⟨_, _, hsmall, hcapital⟩ := hrest b rest rfl
      exact if_neg (not_or.mpr ⟨hsmall, hcapital⟩)
  | cons b tail =>
    rw [readExponent_cons] at h
    rw [List.cons_append, readExponent_cons]
    split at h
    · next he =>
      split at h
      · cases h
      · next hdigits =>
        have hne : tail ≠ [] := by
          rintro rfl
          exact hdigits rfl
        cases h
        rw [if_pos he, exponentSign_append hne, spanDigits_append hrest.endsFraction.endsDigits,
          if_neg hdigits]
    · next he =>
      cases h
      exact if_neg he

/-- The sign of a number, and what stands behind it. -/
def numberSign : Bytes → Bytes × Bytes
  | 0x2D :: behind => ([0x2D], behind)
  | bs => ([], bs)

theorem numberSign_of_ne {b : UInt8} (h : b ≠ 0x2D) (bs : Bytes) :
    numberSign (b :: bs) = ([], b :: bs) := by
  rw [numberSign]
  exact fun _ heq => h (List.cons.inj heq).1

theorem splitNumber_eq (bs : Bytes) :
    splitNumber bs =
      (readWhole (numberSign bs).2).bind fun w => (readFraction w.2).bind fun f =>
        (readExponent f.2).bind fun e => some ((numberSign bs).1 ++ w.1 ++ f.1 ++ e.1, e.2) := by
  cases bs with
  | nil => rfl
  | cons b bs =>
    by_cases hminus : b = 0x2D
    · subst hminus
      rfl
    · rw [numberSign_of_ne hminus, splitNumber]
      · rfl
      · exact fun _ heq => hminus (List.cons.inj heq).1

theorem splitNumber_eq_some_iff {bs number rest : Bytes} :
    splitNumber bs = some (number, rest) ↔
      ∃ whole behind, readWhole (numberSign bs).2 = some (whole, behind) ∧
        ∃ fraction behind', readFraction behind = some (fraction, behind') ∧
          ∃ exponent, readExponent behind' = some (exponent, rest) ∧
            number = (numberSign bs).1 ++ whole ++ fraction ++ exponent := by
  simp only [splitNumber_eq, Option.bind_eq_some_iff, Prod.exists, Option.some.injEq, Prod.mk.injEq]
  constructor
  · rintro ⟨whole, behind, hwhole, fraction, behind', hfraction, exponent, _, he, rfl, rfl⟩
    exact ⟨whole, behind, hwhole, fraction, behind', hfraction, exponent, he, rfl⟩
  · rintro ⟨whole, behind, hwhole, fraction, behind', hfraction, exponent, he, rfl⟩
    exact ⟨whole, behind, hwhole, fraction, behind', hfraction, exponent, rest, he, rfl, rfl⟩

theorem numberSign_append {bs : Bytes} (h : bs ≠ []) (rest : Bytes) :
    numberSign (bs ++ rest) = ((numberSign bs).1, (numberSign bs).2 ++ rest) := by
  obtain ⟨b, bs, rfl⟩ := List.exists_cons_of_ne_nil h
  by_cases hminus : b = 0x2D
  · subst hminus
    rfl
  · rw [List.cons_append, numberSign_of_ne hminus, numberSign_of_ne hminus]
    rfl

/-- A number starts with a minus sign or a digit. -/
theorem head_of_splitNumber {bs number rest : Bytes} (h : splitNumber bs = some (number, rest)) :
    ∃ b tail, bs = b :: tail ∧ (b = 0x2D ∨ isDigit b = true) := by
  obtain ⟨whole, behind, hwhole, -⟩ := splitNumber_eq_some_iff.mp h
  cases bs with
  | nil => cases hwhole
  | cons b tail =>
    refine ⟨b, tail, rfl, ?_⟩
    by_contra hb
    obtain ⟨hminus, hdigit⟩ := not_or.mp hb
    rw [numberSign_of_ne hminus, readWhole] at hwhole
    · simp [spanDigits, hdigit] at hwhole
    · rintro _ ⟨⟩
      exact hdigit rfl

/-- **What stands behind a number** is left, unless it continues the number. -/
theorem splitNumber_append {bs number rest : Bytes} (hrest : EndsNumber rest)
    (h : splitNumber bs = some (number, [])) : splitNumber (bs ++ rest) = some (number, rest) := by
  have hne : bs ≠ [] := by
    rintro rfl
    cases h
  obtain ⟨whole, behind, hwhole, fraction, behind', hfraction, exponent, he, hnumber⟩ :=
    splitNumber_eq_some_iff.mp h
  refine splitNumber_eq_some_iff.mpr ⟨whole, behind ++ rest, ?_, fraction, behind' ++ rest,
    readFraction_append hrest.endsFraction hfraction, exponent, readExponent_append hrest he, ?_⟩
  · rw [numberSign_append hne]
    exact readWhole_append hrest.endsFraction.endsDigits hwhole
  · rw [numberSign_append hne]
    exact hnumber

/-! ## Numbers -/

theorem reads_number_iff {bs rest : Bytes} {text : String} :
    Reads readNumber bs text rest ↔
      ∃ number, splitNumber bs = some (number, rest) ∧ rest.length < bs.length ∧
        text = String.ofList (number.map Char.ofUInt8) := by
  constructor
  · rintro ⟨hlt, hread⟩
    unfold readNumber at hread
    split at hread
    · cases hread
    · next number behind hsplit =>
      split at hread
      · cases hread
        exact ⟨number, hsplit, hlt, rfl⟩
      · cases hread
  · rintro ⟨number, hsplit, hlt, rfl⟩
    refine ⟨hlt, ?_⟩
    unfold readNumber
    split
    · next hnone =>
      rw [hsplit] at hnone
      cases hnone
    · next hsome =>
      rw [hsplit] at hsome
      cases hsome
      exact dif_pos hlt

theorem numberOf?_eq_some_iff {text number : String} :
    numberOf? text = some number ↔ Reads readNumber (Utf8.bytes text) number [] := by
  unfold numberOf?
  constructor
  · intro h
    split at h
    · next r hread =>
      split at h
      · next hrest =>
        obtain ⟨value, rest, hlt⟩ := r
        simp only at hrest
        subst hrest
        cases h
        exact ⟨hlt, hread⟩
      · cases h
    · cases h
  · rintro ⟨hlt, hread⟩
    rw [hread]
    exact if_pos rfl

theorem Reads.number_append {bs rest : Bytes} {text : String} (hrest : EndsNumber rest)
    (h : Reads readNumber bs text []) : Reads readNumber (bs ++ rest) text rest := by
  obtain ⟨number, hsplit, hlt, rfl⟩ := reads_number_iff.mp h
  refine reads_number_iff.mpr ⟨number, splitNumber_append hrest hsplit, ?_, rfl⟩
  rw [List.length_append]
  exact Nat.lt_add_of_pos_left hlt

/-! ## Kept numbers -/

/-- Digits, at least one. -/
def AreDigits (bs : Bytes) : Prop := bs ≠ [] ∧ ∀ b ∈ bs, isDigit b = true

/-- The whole part of a number: a zero, or digits that do not start with one. -/
def IsWhole (bs : Bytes) : Prop := AreDigits bs ∧ (bs.head? = some 0x30 → bs = [0x30])

/-- The fraction of a number, if it has one. -/
def IsFraction (bs : Bytes) : Prop := bs = [] ∨ ∃ digits, bs = 0x2E :: digits ∧ AreDigits digits

/-- The exponent of a number in the form in which it is kept, if it has one. -/
def IsExponent (bs : Bytes) : Prop :=
  bs = [] ∨ ∃ sign digits, bs = 0x65 :: sign :: digits ∧ (sign = 0x2D ∨ sign = 0x2B) ∧
    AreDigits digits

/-- **Kept numbers.** The bytes of a number in the form in which the reader keeps it. -/
inductive IsNumber : Bytes → Prop where
  | parts {sign whole fraction exponent : Bytes} (hsign : sign = [] ∨ sign = [0x2D])
      (hwhole : IsWhole whole) (hfraction : IsFraction fraction) (hexponent : IsExponent exponent) :
      IsNumber (sign ++ whole ++ fraction ++ exponent)

theorem spanDigits_of_areDigits {bs : Bytes} (h : AreDigits bs) : spanDigits bs = (bs, []) := by
  rw [spanDigits, List.takeWhile_eq_self_iff.mpr h.2, List.dropWhile_eq_nil_iff.mpr h.2]

theorem areDigits_spanDigits {bs : Bytes} (h : (spanDigits bs).1 ≠ []) :
    AreDigits (spanDigits bs).1 :=
  ⟨h, fun _ hb => List.mem_takeWhile_imp hb⟩

theorem isWhole_of_readWhole {bs whole behind : Bytes} (h : readWhole bs = some (whole, behind)) :
    IsWhole whole := by
  have hdigits : AreDigits [0x30] := ⟨by decide, List.forall_mem_singleton.mpr rfl⟩
  have hzero : IsWhole [0x30] := ⟨hdigits, fun _ => rfl⟩
  unfold readWhole at h
  split at h
  · split at h
    · cases h
      exact hzero
    · split at h
      · cases h
      · cases h
        exact hzero
  · next hnot =>
    split at h
    · cases h
    · next hne =>
      cases h
      refine ⟨areDigits_spanDigits hne, fun hhead => ?_⟩
      cases bs with
      | nil => exact absurd rfl hne
      | cons b tail =>
        rw [List.takeWhile_cons] at hhead
        split at hhead
        · exact absurd (Option.some.inj hhead) fun hb => hnot tail (hb ▸ rfl)
        · cases hhead

theorem isFraction_of_readFraction {bs fraction behind : Bytes}
    (h : readFraction bs = some (fraction, behind)) : IsFraction fraction := by
  unfold readFraction at h
  split at h
  · split at h
    · cases h
    · next hne =>
      cases h
      exact .inr ⟨_, rfl, areDigits_spanDigits hne⟩
  · cases h
    exact .inl rfl

theorem exponentSign_eq (bs : Bytes) :
    (exponentSign bs).1 = 0x2D ∨ (exponentSign bs).1 = 0x2B := by
  unfold exponentSign
  split
  · exact .inl rfl
  · exact .inr rfl
  · exact .inr rfl

theorem isExponent_of_readExponent {bs exponent behind : Bytes}
    (h : readExponent bs = some (exponent, behind)) : IsExponent exponent := by
  cases bs with
  | nil =>
    cases h
    exact .inl rfl
  | cons b bs =>
    rw [readExponent_cons] at h
    split at h
    · split at h
      · cases h
      · next hne =>
        cases h
        exact .inr ⟨_, _, rfl, exponentSign_eq bs, areDigits_spanDigits hne⟩
    · cases h
      exact .inl rfl

/-- What is kept of a number that was read is a kept number. -/
theorem isNumber_of_splitNumber {bs number rest : Bytes}
    (h : splitNumber bs = some (number, rest)) : IsNumber number := by
  obtain ⟨whole, _, hwhole, fraction, _, hfraction, exponent, he, rfl⟩ :=
    splitNumber_eq_some_iff.mp h
  have hsign : (numberSign bs).1 = [] ∨ (numberSign bs).1 = [0x2D] := by
    unfold numberSign
    split
    · exact .inr rfl
    · exact .inl rfl
  exact .parts hsign (isWhole_of_readWhole hwhole) (isFraction_of_readFraction hfraction)
    (isExponent_of_readExponent he)

theorem readWhole_of_isWhole {bs : Bytes} (h : IsWhole bs) : readWhole bs = some (bs, []) := by
  obtain ⟨hdigits, hzero⟩ := h
  obtain ⟨b, tail, rfl⟩ := List.exists_cons_of_ne_nil hdigits.1
  by_cases hb : b = 0x30
  · rw [hzero (congrArg some hb)]
    rfl
  · rw [readWhole, spanDigits_of_areDigits hdigits]
    · rfl
    · rintro _ ⟨⟩
      exact hb rfl

theorem readFraction_of_isFraction {bs : Bytes} (h : IsFraction bs) :
    readFraction bs = some (bs, []) := by
  rcases h with rfl | ⟨digits, rfl, hdigits⟩
  · rfl
  · rw [readFraction, spanDigits_of_areDigits hdigits]
    exact if_neg hdigits.1

theorem readExponent_of_isExponent {bs : Bytes} (h : IsExponent bs) :
    readExponent bs = some (bs, []) := by
  rcases h with rfl | ⟨sign, digits, rfl, hsign, hdigits⟩
  · rfl
  · have hsplit : exponentSign (sign :: digits) = (sign, digits) := by
      rcases hsign with rfl | rfl <;> rfl
    rw [readExponent_cons, if_pos (.inl rfl), hsplit]
    simp only [spanDigits_of_areDigits hdigits]
    exact if_neg hdigits.1

theorem IsExponent.endsFraction {bs : Bytes} (h : IsExponent bs) : EndsFraction bs := by
  rcases h with rfl | ⟨sign, digits, rfl, -⟩
  · exact fun _ _ hb => nomatch hb
  · rintro _ _ ⟨⟩
    exact ⟨rfl, by decide⟩

theorem IsFraction.endsDigits {bs rest : Bytes} (h : IsFraction bs) (hrest : EndsDigits rest) :
    EndsDigits (bs ++ rest) := by
  rcases h with rfl | ⟨digits, rfl, -⟩
  · exact hrest
  · rintro _ _ ⟨⟩
    rfl

/-- **A kept number** is read whole, and kept as it is. -/
theorem IsNumber.splitNumber_eq {bs : Bytes} (h : IsNumber bs) :
    splitNumber bs = some (bs, []) := by
  obtain @⟨sign, whole, fraction, exponent, hsign, hwhole, hfraction, hexponent⟩ := h
  have hparts : numberSign (sign ++ whole ++ fraction ++ exponent) =
      (sign, whole ++ (fraction ++ exponent)) := by
    rw [List.append_assoc, List.append_assoc]
    rcases hsign with rfl | rfl
    · obtain ⟨b, tail, rfl⟩ := List.exists_cons_of_ne_nil hwhole.1.1
      have hdigit := hwhole.1.2 b List.mem_cons_self
      refine numberSign_of_ne ?_ _
      rintro rfl
      exact absurd hdigit (by decide)
    · rfl
  have hends := hexponent.endsFraction
  have hbehind := readWhole_append (hfraction.endsDigits hends.endsDigits)
    (readWhole_of_isWhole hwhole)
  refine splitNumber_eq_some_iff.mpr ⟨whole, fraction ++ exponent, ?_, fraction, exponent,
    readFraction_append hends (readFraction_of_isFraction hfraction), exponent,
    readExponent_of_isExponent hexponent, ?_⟩
  · rw [hparts]
    exact hbehind
  · rw [hparts]

theorem AreDigits.isAscii {bs : Bytes} (h : AreDigits bs) : ∀ b ∈ bs, b.toNat < 128 := by
  intro b hb
  have hdigit := h.2 b hb
  simp only [isDigit, Bool.and_eq_true, decide_eq_true_eq, UInt8.le_iff_toNat_le] at hdigit
  exact Nat.lt_of_le_of_lt hdigit.2 (by decide)

theorem IsNumber.isAscii {bs : Bytes} (h : IsNumber bs) : ∀ b ∈ bs, b.toNat < 128 := by
  obtain @⟨sign, whole, fraction, exponent, hsign, hwhole, hfraction, hexponent⟩ := h
  simp only [List.forall_mem_append]
  refine ⟨⟨⟨?_, hwhole.1.isAscii⟩, ?_⟩, ?_⟩
  · rcases hsign with rfl | rfl
    · exact List.forall_mem_nil _
    · exact List.forall_mem_singleton.mpr (by decide)
  · rcases hfraction with rfl | ⟨digits, rfl, hdigits⟩
    · exact List.forall_mem_nil _
    · exact List.forall_mem_cons.mpr ⟨by decide, hdigits.isAscii⟩
  · rcases hexponent with rfl | ⟨sign, digits, rfl, hmark, hdigits⟩
    · exact List.forall_mem_nil _
    · refine List.forall_mem_cons.mpr ⟨by decide, List.forall_mem_cons.mpr ⟨?_, hdigits.isAscii⟩⟩
      rcases hmark with rfl | rfl <;> decide

/-- The text of a kept number. -/
def numberText (bs : Bytes) : String := String.ofList (bs.map Char.ofUInt8)

/-- The text of a kept number is that number. -/
theorem IsNumber.numberOf?_eq {bs : Bytes} (h : IsNumber bs) :
    numberOf? (numberText bs) = some (numberText bs) := by
  have hbytes : Utf8.bytes (numberText bs) = bs := by
    rw [Utf8.bytes, numberText, String.toList_ofList, Utf8.encode_map_ofUInt8 h.isAscii]
  refine numberOf?_eq_some_iff.mpr (reads_number_iff.mpr ⟨bs, ?_, ?_, rfl⟩)
  · rw [hbytes]
    exact h.splitNumber_eq
  · rw [hbytes]
    obtain ⟨b, tail, rfl, -⟩ := head_of_splitNumber h.splitNumber_eq
    exact Nat.succ_pos _

/-- **What is read as a number** is kept in a form that is read back as it is. -/
theorem Reads.numberOf?_eq {bs rest : Bytes} {text : String} (h : Reads readNumber bs text rest) :
    numberOf? text = some text := by
  obtain ⟨number, hsplit, -, rfl⟩ := reads_number_iff.mp h
  exact (isNumber_of_splitNumber hsplit).numberOf?_eq

/-! ## Digits -/

theorem isDigit_ofNat {c : Char} (h : c.isDigit = true) : isDigit (UInt8.ofNat c.toNat) = true := by
  obtain ⟨hlow, hhigh⟩ := Numeral.code_of_isDigit h
  simp only [isDigit, Bool.and_eq_true, decide_eq_true_eq, UInt8.le_iff_toNat_le]
  rw [UInt8.toNat_ofNat_of_lt' (show c.toNat < 256 by omega)]
  exact ⟨hlow, hhigh⟩

/-- The bytes of the decimal digits of a number. -/
def digitBytes (n : Nat) : Bytes := (Nat.toDigits 10 n).map fun c => UInt8.ofNat c.toNat

theorem map_ofUInt8_digitBytes (n : Nat) : (digitBytes n).map Char.ofUInt8 = Nat.toDigits 10 n := by
  have hascii : ∀ c ∈ Nat.toDigits 10 n, c.toNat < 128 := by
    intro c hc
    have hdigit := Nat.isDigit_of_mem_toDigits (by decide) (by decide) hc
    exact Nat.lt_of_le_of_lt (Numeral.code_of_isDigit hdigit).2 (by decide)
  rw [digitBytes, ← Utf8.encode_of_ascii hascii, Utf8.map_ofUInt8_encode hascii]

theorem isWhole_digitBytes (n : Nat) : IsWhole (digitBytes n) := by
  refine ⟨⟨fun hnil => Nat.toDigits_ne_nil (List.map_eq_nil_iff.mp hnil), fun b hb => ?_⟩, ?_⟩
  · obtain ⟨c, hc, rfl⟩ := List.mem_map.mp hb
    exact isDigit_ofNat (Nat.isDigit_of_mem_toDigits (by decide) (by decide) hc)
  · intro hhead
    -- zero is the only number whose digits start with a zero
    by_cases hn : n = 0
    · subst hn
      rfl
    · have hfirst := congrArg (Option.map Char.ofUInt8) hhead
      rw [← List.head?_map, map_ofUInt8_digitBytes] at hfirst
      exact absurd hfirst (Numeral.head?_toDigits (Nat.pos_of_ne_zero hn))

/-- **Decimal digits** are a number, also behind a minus sign. -/
theorem numberOf?_digits {sign : List Char} (hsign : sign = [] ∨ sign = ['-']) (n : Nat) :
    numberOf? (String.ofList (sign ++ Nat.toDigits 10 n)) =
      some (String.ofList (sign ++ Nat.toDigits 10 n)) := by
  have hwhole := isWhole_digitBytes n
  have hdigits := map_ofUInt8_digitBytes n
  rcases hsign with rfl | rfl
  · have hnumber := IsNumber.parts (.inl rfl) hwhole (.inl rfl) (.inl rfl)
    have hkept := hnumber.numberOf?_eq
    simpa [numberText, hdigits] using hkept
  · have hnumber := IsNumber.parts (.inr rfl) hwhole (.inl rfl) (.inl rfl)
    have hkept := hnumber.numberOf?_eq
    have hminus : Char.ofUInt8 0x2D = '-' := rfl
    simpa [numberText, hdigits, hminus] using hkept

theorem numberOf?_repr (n : Nat) : numberOf? n.repr = some n.repr := by
  rw [Nat.repr_eq_ofList_toDigits]
  exact numberOf?_digits (.inl rfl) n

end JsonSource

end ChainClient
