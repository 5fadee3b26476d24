import ChainClient.Text.Numeral
import Mathlib.Data.List.Forall2

/-!
# `ChainClient.Proofs.Text.Numeral` — the texts that spell a number

A numeral is stated here by what it looks like: zeros, and behind them the digits that the standard
writer gives the number. Reading one is adding up its digits, so every spelling of a number is read
as that number, and nothing else is.

## Contents
- **Digits.** `digit?_eq_some_iff`: a character is a digit when its small form is the character of
  one. `mapM_digit?_eq_some_iff` reads a run of them, and `leadingDigits` are those in front of the
  first character that is none.
- **Numerals.** `IsNumeral`; `isNumeral_addDigits` adds digits up, and `exists_digits_of_isNumeral`
  takes a numeral apart.
- **Reading.** `readNat?_eq_some_iff` for any radix to 16. `IsDecimal` allows a plus sign, and
  `readUnsigned?_eq_some_iff` says that the bounded reader takes those below its bound.
-/

namespace ChainClient

namespace Numeral

/-! ## Digits -/

theorem toNat_toLower (c : Char) :
    c.toLower.toNat = if 65 ≤ c.toNat ∧ c.toNat ≤ 90 then c.toNat + 32 else c.toNat := by
  have hval : c.toNat = c.val.toNat := rfl
  unfold Char.toLower
  by_cases h : c.val ≥ 'A'.val ∧ c.val ≤ 'Z'.val
  · have hlow : 65 ≤ c.toNat := h.1
    have hhigh : c.toNat ≤ 90 := h.2
    rw [dif_pos h, if_pos ⟨hlow, hhigh⟩]
    show (c.val + 32).toNat = c.val.toNat + 32
    rw [UInt32.toNat_add]
    exact Nat.mod_eq_of_lt (show c.val.toNat + 32 < 2 ^ 32 by omega)
  · have hnot : ¬ (65 ≤ c.toNat ∧ c.toNat ≤ 90) := fun hrange => h ⟨hrange.1, hrange.2⟩
    rw [dif_neg h, if_neg hnot]

theorem toNat_digitChar {d : Nat} (h : d < 16) :
    d.digitChar.toNat = if d < 10 then 48 + d else 87 + d := by
  have hall : ∀ d : Fin 16,
      d.val.digitChar.toNat = if d.val < 10 then 48 + d.val else 87 + d.val := by
    decide
  exact hall ⟨d, h⟩

/-- The writer's digits are small. -/
theorem toLower_digitChar {d : Nat} (h : d < 16) : d.digitChar.toLower = d.digitChar := by
  have hall : ∀ d : Fin 16, d.val.digitChar.toLower = d.val.digitChar := by decide
  exact hall ⟨d, h⟩

/-- Folding case changes no small digit. -/
theorem map_toLower_digitChars {cs : List Char} (h : ∀ c ∈ cs, ∃ d < 16, c = d.digitChar) :
    cs.map Char.toLower = cs := by
  refine (List.map_congr_left fun c hc => ?_).trans (List.map_id cs)
  obtain ⟨d, hd, rfl⟩ := h c hc
  exact toLower_digitChar hd

/-- **Digits.** Case does not matter. -/
theorem digit?_eq_some_iff {radix : Nat} (hradix : radix ≤ 16) {c : Char} {d : Nat} :
    digit? radix c = some d ↔ d < radix ∧ c.toLower = d.digitChar := by
  have hsame : d < radix → (c.toLower = d.digitChar ↔
      (if 65 ≤ c.toNat ∧ c.toNat ≤ 90 then c.toNat + 32 else c.toNat) =
        if d < 10 then 48 + d else 87 + d) := by
    intro hd
    rw [← toNat_toLower, ← toNat_digitChar (by omega), Char.toNat_inj]
  constructor
  · intro h
    obtain ⟨hvalue, hd⟩ := Option.filter_eq_some_iff.mp h
    have hd : d < radix := of_decide_eq_true hd
    refine ⟨hd, (hsame hd).mpr ?_⟩
    split at hvalue
    · cases hvalue
      split <;> split <;> omega
    · split at hvalue
      · cases hvalue
        split <;> split <;> omega
      · split at hvalue
        · cases hvalue
          split <;> split <;> omega
        · cases hvalue
  · rintro ⟨hd, hchar⟩
    have hcode := (hsame hd).mp hchar
    refine Option.filter_eq_some_iff.mpr ⟨?_, decide_eq_true hd⟩
    split at hcode
    · split at hcode
      · omega
      · rw [if_neg (by omega), if_neg (by omega), if_pos (by omega)]
        exact congrArg some (by omega)
    · split at hcode
      · rw [if_pos (by omega)]
        exact congrArg some (by omega)
      · rw [if_neg (by omega), if_pos (by omega)]
        exact congrArg some (by omega)

/-- A run of characters that are the digits of a list, in their order. -/
def AreDigits (radix : Nat) (cs : List Char) (ds : List Nat) : Prop :=
  List.Forall₂ (fun c d => d < radix ∧ c.toLower = d.digitChar) cs ds

theorem mapM_digit?_eq_some_iff {radix : Nat} (hradix : radix ≤ 16) {cs : List Char}
    {ds : List Nat} : cs.mapM (digit? radix) = some ds ↔ AreDigits radix cs ds := by
  induction cs generalizing ds with
  | nil =>
    rw [List.mapM_nil, AreDigits, List.forall₂_nil_left_iff]
    exact ⟨fun h => (Option.some.inj h).symm, fun h => congrArg some h.symm⟩
  | cons c cs ih =>
    rw [List.mapM_cons, Option.bind_eq_bind, Option.bind_eq_some_iff, AreDigits,
      List.forall₂_cons_left_iff]
    constructor
    · rintro ⟨d, hd, h⟩
      obtain ⟨rest, hrest, h⟩ := Option.bind_eq_some_iff.mp h
      cases h
      exact ⟨d, rest, (digit?_eq_some_iff hradix).mp hd, ih.mp hrest, rfl⟩
    · rintro ⟨d, rest, hd, hrest, rfl⟩
      refine ⟨d, (digit?_eq_some_iff hradix).mpr hd, Option.bind_eq_some_iff.mpr ?_⟩
      exact ⟨rest, ih.mpr hrest, rfl⟩

/-- The digits in front of the first character that is none. -/
def leadingDigits (radix : Nat) : List Char → List Nat
  | [] => []
  | c :: cs =>
    match digit? radix c with
    | some d => d :: leadingDigits radix cs
    | none => []

theorem length_leadingDigits_le (radix : Nat) (cs : List Char) :
    (leadingDigits radix cs).length ≤ cs.length := by
  induction cs with
  | nil => exact Nat.le_refl 0
  | cons c cs ih =>
    rw [leadingDigits]
    cases digit? radix c with
    | none => exact Nat.zero_le _
    | some d => exact Nat.succ_le_succ ih

/-- A text is all digits exactly if none of its characters stands behind those in front. -/
theorem areDigits_iff {radix : Nat} (hradix : radix ≤ 16) {cs : List Char} {ds : List Nat} :
    AreDigits radix cs ds ↔ ds = leadingDigits radix cs ∧ ds.length = cs.length := by
  induction cs generalizing ds with
  | nil =>
    rw [AreDigits, List.forall₂_nil_left_iff, leadingDigits]
    exact ⟨fun h => ⟨h, congrArg List.length h⟩, And.left⟩
  | cons c cs ih =>
    rw [AreDigits, List.forall₂_cons_left_iff, leadingDigits]
    constructor
    · rintro ⟨d, rest, hd, hrest, rfl⟩
      obtain ⟨hlead, hlength⟩ := ih.mp hrest
      rw [(digit?_eq_some_iff hradix).mpr hd]
      exact ⟨congrArg (d :: ·) hlead, congrArg Nat.succ hlength⟩
    · rintro ⟨hlead, hlength⟩
      cases hd : digit? radix c with
      | none =>
        rw [hd] at hlead
        rw [hlead] at hlength
        cases hlength
      | some d =>
        rw [hd] at hlead
        subst hlead
        exact ⟨d, _, (digit?_eq_some_iff hradix).mp hd, ih.mpr ⟨rfl, Nat.succ.inj hlength⟩, rfl⟩

/-! ## Numerals -/

/-- **Numerals.** The digits of a number, as the standard writer gives them, behind any number of
    zeros. -/
def IsNumeral (radix : Nat) (cs : List Char) (n : Nat) : Prop :=
  ∃ zeros, cs = List.replicate zeros '0' ++ Nat.toDigits radix n

/-- The number that digits add up to, read on from a number. -/
abbrev addDigits (radix acc : Nat) (ds : List Nat) : Nat :=
  ds.foldl (fun acc d => acc * radix + d) acc

variable {radix : Nat}

/-- **One more digit.** A numeral, or nothing for zero, stays a numeral with a digit behind it. -/
theorem IsNumeral.concat (hradix : 1 < radix) {cs : List Char} {n d : Nat}
    (h : cs = [] ∧ n = 0 ∨ IsNumeral radix cs n) (hd : d < radix) :
    IsNumeral radix (cs ++ [d.digitChar]) (n * radix + d) := by
  rcases h with ⟨rfl, rfl⟩ | ⟨zeros, rfl⟩
  · exact ⟨0, by rw [Nat.zero_mul, Nat.zero_add, Nat.toDigits_of_lt_base hd]; rfl⟩
  · rcases Nat.eq_zero_or_pos n with rfl | hn
    · -- the only digit of zero is one more zero in front
      refine ⟨zeros + 1, ?_⟩
      rw [Nat.zero_mul, Nat.zero_add, Nat.toDigits_of_lt_base hd, Nat.toDigits_zero,
        List.replicate_succ']
    · refine ⟨zeros, ?_⟩
      rw [Nat.mul_comm, ← Nat.toDigits_append_toDigits hradix hn hd, Nat.toDigits_of_lt_base hd,
        List.append_assoc]

/-- **Adding up.** The characters of digits, in small letters, spell the number that the digits add
    up to. -/
theorem isNumeral_addDigits (hradix : 1 < radix) (front : List Char) {cs : List Char} {acc : Nat}
    {ds : List Nat} (hfront : front = [] ∧ acc = 0 ∨ IsNumeral radix front acc)
    (h : AreDigits radix cs ds) (hne : front ++ cs ≠ []) :
    IsNumeral radix (front ++ cs.map Char.toLower) (addDigits radix acc ds) := by
  induction h generalizing front acc with
  | nil =>
    rcases hfront with ⟨rfl, _⟩ | hfront
    · exact absurd rfl hne
    · rw [List.map_nil, List.append_nil]
      exact hfront
  | @cons c d cs ds hd _ ih =>
    have hnext := ih _ (.inr (IsNumeral.concat hradix hfront hd.1)) (by simp)
    rw [List.append_assoc] at hnext
    rw [List.map_cons, hd.2]
    exact hnext

theorem addDigits_replicate_zero (zeros : Nat) (ds : List Nat) :
    addDigits radix 0 (List.replicate zeros 0 ++ ds) = addDigits radix 0 ds := by
  induction zeros with
  | zero => rfl
  | succ zeros ih =>
    rw [List.replicate_succ, List.cons_append, addDigits, List.foldl_cons, Nat.zero_mul]
    exact ih

/-- The digits that the standard writer gives a number add up to it. -/
theorem exists_digits_toDigits (hradix : 1 < radix) (n : Nat) :
    ∃ ds, List.Forall₂ (fun c d => d < radix ∧ c = d.digitChar) (Nat.toDigits radix n) ds ∧
      addDigits radix 0 ds = n := by
  induction n using Nat.strongRecOn with
  | ind n ih =>
    rw [Nat.toDigits_eq_if hradix]
    split
    · next hlt => exact ⟨[n], .cons ⟨hlt, rfl⟩ .nil, by simp⟩
    · next hge =>
      obtain ⟨ds, hds, hsum⟩ := ih (n / radix) (Nat.div_lt_self (by omega) hradix)
      have hlast := Nat.mod_lt n (show radix > 0 by omega)
      refine ⟨ds ++ [n % radix], List.rel_append hds (.cons ⟨hlast, rfl⟩ .nil), ?_⟩
      have hsplit : addDigits radix 0 (ds ++ [n % radix]) =
          addDigits radix 0 ds * radix + n % radix := List.foldl_append
      rw [hsplit, hsum, Nat.mul_comm]
      exact Nat.div_add_mod n radix

/-- **Taking apart.** A text whose small form is a numeral is made of digits, which add up to its
    number. -/
theorem exists_digits_of_isNumeral (hradix : 1 < radix) {cs : List Char} {n : Nat}
    (h : IsNumeral radix (cs.map Char.toLower) n) :
    ∃ ds, AreDigits radix cs ds ∧ addDigits radix 0 ds = n := by
  obtain ⟨zeros, hcs⟩ := h
  obtain ⟨ds, hds, hsum⟩ := exists_digits_toDigits hradix n
  refine ⟨List.replicate zeros 0 ++ ds, ?_, by rw [addDigits_replicate_zero, hsum]⟩
  refine (List.forall₂_map_left_iff (R := fun c d => d < radix ∧ c = d.digitChar)).mp ?_
  rw [hcs]
  refine List.rel_append ?_ hds
  clear hcs
  induction zeros with
  | zero => exact .nil
  | succ zeros ih => exact .cons ⟨by omega, rfl⟩ ih

theorem IsNumeral.ne_nil {cs : List Char} {n : Nat} (h : IsNumeral radix cs n) : cs ≠ [] := by
  obtain ⟨zeros, rfl⟩ := h
  exact List.append_ne_nil_of_right_ne_nil _ Nat.toDigits_ne_nil

/-! ## Reading -/

/-- **Reading.** A run of digits is read as a number exactly when its small form is a numeral of
    it. -/
theorem readNat?_eq_some_iff (hradix : 1 < radix) (hradix' : radix ≤ 16) {cs : List Char}
    {n : Nat} :
    readNat? radix cs = some n ↔ IsNumeral radix (cs.map Char.toLower) n := by
  unfold readNat?
  split
  · next hnil =>
    constructor
    · intro h
      cases h
    · intro h
      exact absurd (by rw [hnil]; rfl) h.ne_nil
  · next hne =>
    rw [Option.map_eq_some_iff]
    constructor
    · rintro ⟨ds, hds, rfl⟩
      have hdigits := (mapM_digit?_eq_some_iff hradix').mp hds
      exact isNumeral_addDigits hradix [] (.inl ⟨rfl, rfl⟩) hdigits hne
    · intro h
      obtain ⟨ds, hds, hsum⟩ := exists_digits_of_isNumeral hradix h
      exact ⟨ds, (mapM_digit?_eq_some_iff hradix').mpr hds, hsum⟩

theorem isDigit_of_mem {cs : List Char} {n : Nat} (h : IsNumeral 10 cs n) {c : Char}
    (hc : c ∈ cs) : c.isDigit = true := by
  obtain ⟨zeros, rfl⟩ := h
  rcases List.mem_append.mp hc with hzero | hdigit
  · rw [List.eq_of_mem_replicate hzero]
    rfl
  · exact Nat.isDigit_of_mem_toDigits (by decide) (by decide) hdigit

theorem code_of_isDigit {c : Char} (h : c.isDigit = true) : 48 ≤ c.toNat ∧ c.toNat ≤ 57 := by
  rw [Char.isDigit, Bool.and_eq_true] at h
  exact ⟨of_decide_eq_true h.1, of_decide_eq_true h.2⟩

/-- Decimal digits have no case. -/
theorem isNumeral_ten_map_toLower {cs : List Char} {n : Nat} :
    IsNumeral 10 (cs.map Char.toLower) n ↔ IsNumeral 10 cs n := by
  have hsame : (∀ c ∈ cs, c.toLower.toNat ≤ 57 ∨ c.toNat ≤ 57) → cs.map Char.toLower = cs := by
    intro h
    refine (List.map_congr_left fun c hc => ?_).trans (List.map_id cs)
    have hcode := toNat_toLower c
    have hle := h c hc
    apply Char.toNat_inj.mp
    show c.toLower.toNat = c.toNat
    split at hcode
    · omega
    · exact hcode
  constructor
  · intro h
    rw [hsame] at h
    · exact h
    · intro c hc
      exact .inl (code_of_isDigit (isDigit_of_mem h (List.mem_map_of_mem hc))).2
  · intro h
    rw [hsame]
    · exact h
    · intro c hc
      exact .inr (code_of_isDigit (isDigit_of_mem h hc)).2

/-- **Decimal numerals**, with or without a plus sign. -/
def IsDecimal (cs : List Char) (n : Nat) : Prop :=
  ∃ sign numeral, (sign = [] ∨ sign = ['+']) ∧ cs = sign ++ numeral ∧ IsNumeral 10 numeral n

theorem IsDecimal.ne_nil {cs : List Char} {n : Nat} (h : IsDecimal cs n) : cs ≠ [] := by
  obtain ⟨sign, numeral, _, rfl, hnumeral⟩ := h
  exact List.append_ne_nil_of_right_ne_nil sign hnumeral.ne_nil

theorem isDecimal_toDigits (n : Nat) : IsDecimal (Nat.toDigits 10 n) n :=
  ⟨[], Nat.toDigits 10 n, .inl rfl, rfl, 0, rfl⟩

theorem dropPlus_of_isNumeral {cs : List Char} {n : Nat} (h : IsNumeral 10 cs n) :
    dropPlus cs = cs := by
  unfold dropPlus
  split
  · next rest => exact absurd (isDigit_of_mem h List.mem_cons_self) (by decide)
  · rfl

theorem isNumeral_dropPlus_iff {cs : List Char} {n : Nat} :
    IsNumeral 10 (dropPlus cs) n ↔ IsDecimal cs n := by
  constructor
  · intro h
    unfold dropPlus at h
    split at h
    · next rest => exact ⟨['+'], rest, .inr rfl, rfl, h⟩
    · exact ⟨[], cs, .inl rfl, rfl, h⟩
  · rintro ⟨sign, numeral, rfl | rfl, rfl, h⟩
    · rw [dropPlus_of_isNumeral h]
      exact h
    · exact h

/-- **Bounded reading.** The decimal numerals of the numbers below the bound are read. -/
theorem readUnsigned?_eq_some_iff {bound : Nat} {cs : List Char} {n : Nat} :
    readUnsigned? bound cs = some n ↔ IsDecimal cs n ∧ n < bound := by
  rw [readUnsigned?, Option.filter_eq_some_iff, readNat?_eq_some_iff (by decide) (by decide),
    isNumeral_ten_map_toLower, isNumeral_dropPlus_iff, decide_eq_true_iff]

/-- A number above zero does not start with a zero. -/
theorem head?_toDigits {n : Nat} (h : 0 < n) : (Nat.toDigits 10 n).head? ≠ some '0' := by
  induction n using Nat.strongRecOn with
  | ind n ih =>
    rw [Nat.toDigits_eq_if (by decide)]
    split
    · next hlt =>
      have hall : ∀ d : Fin 10, 0 < d.val → d.val.digitChar ≠ '0' := by decide
      intro hzero
      exact hall ⟨n, hlt⟩ h (Option.some.inj hzero)
    · next hge =>
      rw [List.head?_append_of_ne_nil _ Nat.toDigits_ne_nil]
      exact ih (n / 10) (Nat.div_lt_self h (by decide)) (by omega)

theorem readNat?_toDigits (n : Nat) : readNat? 10 (Nat.toDigits 10 n) = some n :=
  (readNat?_eq_some_iff (by decide) (by decide)).mpr (isNumeral_ten_map_toLower.mpr ⟨0, rfl⟩)

end Numeral

end ChainClient
