import ChainClient.Address.Checksum
import ChainClient.Proofs.Address.Canonical
import ChainClient.Text.Lowercase

/-!
# `ChainClient.Proofs.Address.Checksum` — the one case pattern of an address

The writer goes through the small digits of an address and capitalises some of them. The checker
goes through the digits of a text that somebody wrote and looks for a letter of the wrong case. Both
ask the same hash, that of the small digits, so the checker accepts what the writer writes and no
other spelling of the address.

## Contents
- **Digits.** `isHexDigit_iff`: a digit is one of the sixteen small ones, or its capital. So the
  checker takes for digits what the reader does (`forall_isHexDigit_iff`).
- **Case.** `caseAgrees_iff_eq_applyCase`: among digits, the checker's question is whether they are
  what the writer makes of their small forms. `map_toLower_applyCase`: the writer changes nothing
  but case.
- **Small letters.** `lowercase_of_ascii`: making letters small goes one by one.
- **Pattern.** `isChecksumTextBy_iff` takes the checker apart, and `unique_case_pattern` ties it to
  the writer.
-/

namespace ChainClient

namespace Address

/-! ## Digits -/

/-- A character whose small form is a digit is that digit or its capital. -/
theorem eq_or_eq_toUpper_of_toLower {c : Char} {d : Nat} (hd : d < 16)
    (h : c.toLower = d.digitChar) : c = d.digitChar ∨ c = d.digitChar.toUpper := by
  have hupper : ∀ d : Fin 16, d.val.digitChar.toUpper.toNat =
      if d.val < 10 then 48 + d.val else 55 + d.val := by
    decide
  have hsmall := Numeral.toNat_digitChar hd
  have hcapital : d.digitChar.toUpper.toNat = if d < 10 then 48 + d else 55 + d := hupper ⟨d, hd⟩
  have hlower := Numeral.toNat_toLower c
  rw [h, hsmall] at hlower
  rw [← Char.toNat_inj, ← Char.toNat_inj, hsmall, hcapital]
  by_cases hten : d < 10
  · rw [if_pos hten] at hlower ⊢
    split at hlower <;> omega
  · rw [if_neg hten] at hlower
    rw [if_neg hten, if_neg hten]
    split at hlower <;> omega

theorem isHexDigit_iff {c : Char} :
    isHexDigit c = true ↔ ∃ d < 16, c.toLower = d.digitChar := by
  constructor
  · intro h
    rw [isHexDigit, Bool.or_eq_true, Bool.or_eq_true, Bool.and_eq_true, Bool.and_eq_true,
      decide_eq_true_iff, decide_eq_true_iff, decide_eq_true_iff, decide_eq_true_iff] at h
    have hlower := Numeral.toNat_toLower c
    have hdigit : ∀ d < 16, c.toLower.toNat = (if d < 10 then 48 + d else 87 + d) →
        c.toLower = d.digitChar := by
      intro d hd hcode
      rw [← Char.toNat_inj, hcode, Numeral.toNat_digitChar hd]
    rcases h with (hdecimal | hsmall) | hcapital
    · have hcode := Numeral.code_of_isDigit hdecimal
      refine ⟨c.toNat - 48, by omega, hdigit _ (by omega) ?_⟩
      split at hlower <;> split <;> omega
    · have hlow : 97 ≤ c.toNat := hsmall.1
      have hhigh : c.toNat ≤ 102 := hsmall.2
      refine ⟨c.toNat - 87, by omega, hdigit _ (by omega) ?_⟩
      split at hlower <;> split <;> omega
    · have hlow : 65 ≤ c.toNat := hcapital.1
      have hhigh : c.toNat ≤ 70 := hcapital.2
      refine ⟨c.toNat - 55, by omega, hdigit _ (by omega) ?_⟩
      split at hlower <;> split <;> omega
  · rintro ⟨d, hd, hlower⟩
    have hall : ∀ d : Fin 16, isHexDigit d.val.digitChar = true ∧
        isHexDigit d.val.digitChar.toUpper = true := by
      decide
    rcases eq_or_eq_toUpper_of_toLower hd hlower with rfl | rfl
    · exact (hall ⟨d, hd⟩).1
    · exact (hall ⟨d, hd⟩).2

theorem isHexDigit_of_map_toLower {cs : List Char} {bs : Bytes}
    (h : cs.map Char.toLower = Hex.encode bs) : ∀ c ∈ cs, isHexDigit c = true := by
  intro c hc
  have hmem : c.toLower ∈ Hex.encode bs := h ▸ List.mem_map_of_mem hc
  obtain ⟨d, hd, hdigit⟩ := Hex.exists_digit_of_mem_encode hmem
  exact isHexDigit_iff.mpr ⟨d, hd, hdigit⟩

/-- The digits of this check are those of the reader. -/
theorem forall_isHexDigit_iff {s : String} :
    (∀ c ∈ Hex.dropMark s.toList, isHexDigit c = true) ↔ Hex.OnlyDigits s := by
  refine forall_congr' fun c => imp_congr_right fun _ => ?_
  rw [isHexDigit_iff, Hex.isSome_digit?_iff]

/-! ## Case -/

/-- **One character.** A digit has no wrong case exactly if it is its small form, capitalised where
    that is asked for. -/
theorem hasCase_iff {c : Char} (h : isHexDigit c = true) (capital : Prop) [Decidable capital] :
    (if capital then !c.isLower else !c.isUpper) = true ↔
      c = if capital then c.toLower.toUpper else c.toLower := by
  obtain ⟨d, hd, hlower⟩ := isHexDigit_iff.mp h
  have hall : ∀ d : Fin 16,
      let small := d.val.digitChar
      ((!small.isLower) = true ↔ small = small.toUpper) ∧ (!small.isUpper) = true ∧
        (!small.toUpper.isLower) = true ∧
        ((!small.toUpper.isUpper) = true ↔ small.toUpper = small) := by
    decide
  obtain ⟨hsmall, hsmall', hcapital, hcapital'⟩ := hall ⟨d, hd⟩
  rw [hlower]
  rcases eq_or_eq_toUpper_of_toLower hd hlower with rfl | rfl
  · split
    · exact hsmall
    · exact iff_of_true hsmall' rfl
  · split
    · exact iff_of_true hcapital rfl
    · exact hcapital'

/-- **Checking is writing again.** Digits have the case that a digest asks for exactly if they are
    what the writer makes of their small forms, from the same half-byte on. -/
theorem caseAgrees_iff_eq_applyCase (digest : Digest) (i : Nat) {cs : List Char}
    (h : ∀ c ∈ cs, isHexDigit c = true) :
    caseAgrees digest i cs = true ↔ cs = applyCase digest i (cs.map Char.toLower) := by
  induction cs generalizing i with
  | nil => exact iff_of_true rfl rfl
  | cons c cs ih =>
    obtain ⟨hc, hcs⟩ := List.forall_mem_cons.mp h
    rw [caseAgrees, Bool.and_eq_true, hasCase_iff hc, ih (i + 1) hcs, List.map_cons, applyCase,
      List.cons.injEq]

/-- The writer changes nothing but case. -/
theorem map_toLower_applyCase (digest : Digest) (i : Nat) {cs : List Char}
    (h : ∀ c ∈ cs, ∃ d < 16, c = d.digitChar) :
    (applyCase digest i cs).map Char.toLower = cs := by
  have hall : ∀ d : Fin 16, d.val.digitChar.toUpper.toLower = d.val.digitChar := by decide
  induction cs generalizing i with
  | nil => rfl
  | cons c cs ih =>
    obtain ⟨⟨d, hd, rfl⟩, hcs⟩ := List.forall_mem_cons.mp h
    rw [applyCase, List.map_cons, ih (i + 1) hcs]
    split
    · rw [hall ⟨d, hd⟩]
    · rw [Numeral.toLower_digitChar hd]

/-! ## Small letters -/

theorem lowerFrom_of_ascii (before : List Char) {cs : List Char} (h : ∀ c ∈ cs, c.toNat < 128) :
    Text.lowerFrom before cs = cs.map Char.toLower := by
  induction cs generalizing before with
  | nil => rfl
  | cons c cs ih =>
    obtain ⟨hc, hcs⟩ := List.forall_mem_cons.mp h
    have hsmall : Text.lowerChar c = [c.toLower] := if_pos hc
    rw [Text.lowerFrom, if_neg (show c.toNat ≠ 0x3A3 by omega), hsmall, ih _ hcs]
    rfl

/-- In ASCII, letters are made small one by one. -/
theorem lowercase_of_ascii {cs : List Char} (h : ∀ c ∈ cs, c.toNat < 128) :
    Text.lowercase cs = cs.map Char.toLower :=
  lowerFrom_of_ascii [] h

/-! ## Pattern -/

variable (hash : Bytes → Digest)

theorem toList_checksumTextBy (a : Address) :
    (checksumTextBy hash a).toList =
      '0' :: 'x' :: applyCase (caseHash hash (Hex.encode a.bytes)) 0 (Hex.encode a.bytes) :=
  String.toList_ofList

/-- The checksum text of an address is its text with some letters capitalised. -/
theorem map_toLower_checksumTextBy (a : Address) :
    (checksumTextBy hash a).toList.map Char.toLower = a.text.toList := by
  have hdigits : ∀ c ∈ Hex.encode a.bytes, ∃ d < 16, c = d.digitChar :=
    fun c hc => Hex.exists_digit_of_mem_encode hc
  rw [toList_checksumTextBy, List.map_cons, List.map_cons, map_toLower_applyCase _ _ hdigits]
  exact String.toList_ofList.symm

/-- The checksum text of an address in lowercase is its text. -/
theorem lowercase_checksumTextBy (a : Address) :
    Text.lowercase (checksumTextBy hash a).toList = a.text.toList := by
  have hsmall := map_toLower_checksumTextBy hash a
  rw [← hsmall]
  refine lowercase_of_ascii fun c hc => ?_
  -- the small form of a character beyond ASCII is beyond ASCII as well
  have hmem : c.toLower ∈ '0' :: 'x' :: Hex.encode a.bytes := by
    have hlower := List.mem_map_of_mem (f := Char.toLower) hc
    rwa [hsmall, text, Hex.marked, String.toList_ofList] at hlower
  have hlt : c.toLower.toNat < 128 := by
    rcases List.mem_cons.mp hmem with hzero | hmem
    · rw [hzero]
      decide
    · rcases List.mem_cons.mp hmem with hmark | hdigit
      · rw [hmark]
        decide
      · exact Hex.toNat_lt_of_mem_encode hdigit
  rw [Numeral.toNat_toLower] at hlt
  split at hlt <;> omega

/-- The checksum text of an address denotes it. -/
theorem parse_checksumTextBy (a : Address) : parse (checksumTextBy hash a) = .ok a := by
  have htext : (checksumTextBy hash a).toList.map Char.toLower =
      a.text.toList.map Char.toLower := by
    rw [map_toLower_checksumTextBy, toList_text, List.map_cons, List.map_cons,
      Hex.map_toLower_encode]
    rfl
  have hdigits := Hex.dropMark_of_map_toLower htext
  rw [dropMark_toList_text] at hdigits
  exact parse_eq_ok_iff.mpr (hdigits.trans (Hex.map_toLower_encode a.bytes))

/-- **The checker** accepts digits which are what the writer makes of the address they denote. -/
theorem isChecksumTextBy_iff {s : String} :
    isChecksumTextBy hash s = true ↔
      ∃ a, parse s = .ok a ∧
        Hex.dropMark s.toList = Hex.dropMark (checksumTextBy hash a).toList := by
  have hchecker : isChecksumTextBy hash s = true ↔ (∃ a, parse s = .ok a) ∧
      caseAgrees (caseHash hash ((Hex.dropMark s.toList).map Char.toLower)) 0
        (Hex.dropMark s.toList) = true := by
    rw [exists_parse_eq_ok_iff, ← forall_isHexDigit_iff, isChecksumTextBy]
    simp only [Bool.and_eq_true, beq_iff_eq, List.all_eq_true]
  have hwriter : ∀ {a}, parse s = .ok a →
      (caseAgrees (caseHash hash ((Hex.dropMark s.toList).map Char.toLower)) 0
        (Hex.dropMark s.toList) = true ↔
        Hex.dropMark s.toList = Hex.dropMark (checksumTextBy hash a).toList) := by
    intro a ha
    have hdigits := parse_eq_ok_iff.mp ha
    rw [caseAgrees_iff_eq_applyCase _ _ (isHexDigit_of_map_toLower hdigits), hdigits,
      toList_checksumTextBy]
    rfl
  rw [hchecker]
  constructor
  · rintro ⟨⟨a, ha⟩, hcase⟩
    exact ⟨a, ha, (hwriter ha).mp hcase⟩
  · rintro ⟨a, ha, hdigits⟩
    exact ⟨⟨a, ha⟩, (hwriter ha).mpr hdigits⟩

/-- What is read of a text does not depend on case. -/
theorem parse_of_map_toLower {s t : String} {a : Address}
    (h : t.toList.map Char.toLower = s.toList.map Char.toLower) (hs : parse s = .ok a) :
    parse t = .ok a :=
  parse_eq_ok_iff.mpr ((Hex.dropMark_of_map_toLower h).trans (parse_eq_ok_iff.mp hs))

/-- **One case pattern.** Whatever the hash, a text is accepted exactly if it is forty digits,
    marked or not, and these are character for character those of the checksum text of the address
    they denote. That text is accepted, and it is the text of the address with letters capitalised.
    So a text that differs from an accepted one in case only is accepted exactly if its digits do
    not differ: no letter among them may change. The letter of the mark is not part of the
    pattern. -/
theorem unique_case_pattern :
    (∀ s, isChecksumTextBy hash s = true ↔
      ((Hex.dropMark s.toList).length = 40 ∧ ∀ c ∈ Hex.dropMark s.toList, isHexDigit c = true) ∧
      ∃ a, parse s = .ok a ∧
        Hex.dropMark s.toList = Hex.dropMark (checksumTextBy hash a).toList) ∧
    (∀ a, isChecksumTextBy hash (checksumTextBy hash a) = true ∧
      Text.lowercase (checksumTextBy hash a).toList = a.text.toList) ∧
    ∀ s t, isChecksumTextBy hash s = true →
      t.toList.map Char.toLower = s.toList.map Char.toLower →
      (isChecksumTextBy hash t = true ↔ Hex.dropMark t.toList = Hex.dropMark s.toList) := by
  refine ⟨fun s => ?_, fun a => ⟨?_, ?_⟩, fun s t hs hcase => ?_⟩
  · rw [isChecksumTextBy_iff]
    constructor
    · rintro ⟨a, ha, hdigits⟩
      obtain ⟨hlength, honly⟩ := exists_parse_eq_ok_iff.mp ⟨a, ha⟩
      exact ⟨⟨hlength, forall_isHexDigit_iff.mpr honly⟩, a, ha, hdigits⟩
    · rintro ⟨-, hpattern⟩
      exact hpattern
  · exact (isChecksumTextBy_iff hash).mpr ⟨a, parse_checksumTextBy hash a, rfl⟩
  · exact lowercase_checksumTextBy hash a
  · obtain ⟨a, ha, hdigits⟩ := (isChecksumTextBy_iff hash).mp hs
    have ht := parse_of_map_toLower hcase ha
    rw [isChecksumTextBy_iff, hdigits]
    constructor
    · rintro ⟨b, hb, hdigits'⟩
      obtain rfl := Except.ok.inj (ht.symm.trans hb)
      exact hdigits'
    · intro hdigits'
      exact ⟨a, ht, hdigits'⟩

/-- A published text, and what is left of it when its first capital is made small. -/
theorem unique_case_pattern_of_small_letter :
    isChecksumText "0x08D04fc4513e27854ac19f16B9b8cB8D564e2c68" = true ∧
    isChecksumText "0x08d04fc4513e27854ac19f16B9b8cB8D564e2c68" = false := by
  have h : isChecksumText "0x08D04fc4513e27854ac19f16B9b8cB8D564e2c68" = true := by decide +kernel
  have hcase : "0x08d04fc4513e27854ac19f16B9b8cB8D564e2c68".toList.map Char.toLower =
      "0x08D04fc4513e27854ac19f16B9b8cB8D564e2c68".toList.map Char.toLower := by
    decide
  obtain ⟨_, _, hpattern⟩ := unique_case_pattern Crypto.Keccak.keccak256
  refine ⟨h, Bool.eq_false_iff.mpr fun haccepted => ?_⟩
  exact absurd ((hpattern _ _ h hcase).mp haccepted) (by decide)

end Address

end ChainClient
