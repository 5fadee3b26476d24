import ChainClient.Proofs.Address.CheckDigits
import ChainClient.Proofs.Bytes.Number
import ChainClient.Proofs.Text.Utf8

/-!
# `ChainClient.Proofs.Address.Iban` — addresses are read back from their account numbers

An address of 20 bytes is below `36 ^ 31`, so its digits in base 36 fill 30 places or 31. They are
read back whatever zeros stand in front of them, and the check digits make up to 98 what the other
characters leave modulo 97.

## Contents
- **Account.** `accountValues` are the digits in base 36 of which `accountDigits` are the spelling.
- **Check digits.** `checkNumber`, from 2 to 98, is what `checkDigits` spells;
  `checkedNumber_checkDigits` is the law of it.
- **Bytes.** A number has one byte for each character, so that it can be cut behind the fourth.
- **Reading back.** `Address.IsNumberOf` says what an account number of an address is, and
  `ibanText_isNumberOf` that it is written.
-/

namespace ChainClient

namespace Address

/-! ## Account -/

/-- The digits in base 36 of an account, padded with zeros in front. -/
def accountValues (a : Address) : List Nat :=
  List.replicate (accountWidth - (Numeral.digits 36 a.octets.value).length) 0 ++
    Numeral.digits 36 a.octets.value

theorem accountDigits_eq (a : Address) :
    accountDigits a = (accountValues a).map Numeral.upperDigit := by
  rw [accountValues, List.map_append, List.map_replicate, accountDigits, List.length_map]
  rfl

theorem lt_of_mem_accountValues {a : Address} {d : Nat} (h : d ∈ accountValues a) : d < 36 := by
  rcases List.mem_append.mp h with hzero | hdigit
  · rw [List.eq_of_mem_replicate hzero]
    decide
  · exact Numeral.lt_of_mem_digits (by decide) hdigit

/-- The digits add up to the number of the address. -/
theorem ofDigits_accountValues (a : Address) :
    Numeral.ofDigits 36 (accountValues a) = a.octets.value :=
  (Numeral.addDigits_replicate_zero _ _).trans (Numeral.ofDigits_digits (by decide) _)

theorem value_lt (a : Address) : a.octets.value < 2 ^ 160 :=
  Bytes.value_lt_of_length a.octets.length_bytes

/-- **The length of an account**: 20 bytes need no more than 31 digits. -/
theorem length_accountValues (a : Address) :
    (accountValues a).length = 30 ∨ (accountValues a).length = 31 := by
  have hbound : a.octets.value < 36 ^ 31 := Nat.lt_trans (value_lt a) (by decide)
  have hlen := (Numeral.length_digits_le_iff (by decide) a.octets.value 31).mpr hbound
  have hwidth : accountWidth = 30 := rfl
  rw [accountValues, List.length_append, List.length_replicate]
  omega

theorem isPlain_upperDigit {d : Nat} (h : d < 36) : IsPlain (Numeral.upperDigit d) := by
  have hall : ∀ d : Fin 36, (Numeral.upperDigit d.val).isDigit = true ∨
      (Numeral.upperDigit d.val).isUpper = true := by
    decide
  exact hall ⟨d, h⟩

theorem worth_upperDigit {d : Nat} (h : d < 36) : worth (Numeral.upperDigit d) = d := by
  have hall : ∀ d : Fin 36, worth (Numeral.upperDigit d.val) = d.val := by decide
  exact hall ⟨d, h⟩

theorem isPlain_accountDigits (a : Address) : ∀ c ∈ accountDigits a, IsPlain c := by
  rw [accountDigits_eq, List.forall_mem_map]
  exact fun d hd => isPlain_upperDigit (lt_of_mem_accountValues hd)

/-- The digits are read back from their spelling. -/
theorem mapM_digit?_accountDigits (a : Address) :
    (accountDigits a).mapM (Numeral.digit? 36) = some (accountValues a) := by
  rw [mapM_digit?_of_isPlain (isPlain_accountDigits a), accountDigits_eq, List.map_map]
  refine congrArg some ((List.map_congr_left fun d hd => ?_).trans (List.map_id _))
  exact worth_upperDigit (lt_of_mem_accountValues hd)

/-! ## Check digits -/

variable {account : List Char}

/-- The number that the check digits of an account spell. -/
def checkNumber (account : List Char) : Nat :=
  98 - expandedNumber (account ++ countryCode) * 100 % 97

theorem checkNumber_bounds (account : List Char) :
    2 ≤ checkNumber account ∧ checkNumber account ≤ 98 := by
  unfold checkNumber
  omega

/-- Two digits spell the numbers below a hundred. -/
theorem twoDigits_spec {n : Nat} (h : n < 100) :
    (∀ c ∈ twoDigits n, c.isDigit = true) ∧ expandedNumber (twoDigits n) = n ∧
      expandedLength (twoDigits n) = 2 := by
  have hall : ∀ n : Fin 100, (twoDigits n.val).all Char.isDigit = true ∧
      expandedNumber (twoDigits n.val) = n.val ∧ expandedLength (twoDigits n.val) = 2 := by
    decide
  rw [← List.all_eq_true]
  exact hall ⟨n, h⟩

/-- The check digits are the last two digits of the checked number. -/
theorem checkedNumber_twoDigits {n : Nat} (h : n < 100) (account : List Char) :
    checkedNumber (countryCode ++ twoDigits n ++ account) =
      expandedNumber (account ++ countryCode) * 100 + n := by
  obtain ⟨_, hnumber, hlength⟩ := twoDigits_spec h
  have hrotated : rotated (countryCode ++ twoDigits n ++ account) =
      (account ++ countryCode) ++ twoDigits n :=
    (List.append_assoc account countryCode (twoDigits n)).symm
  rw [checkedNumber, hrotated, expandedNumber_append, hnumber, hlength]
  rfl

theorem isPlain_framed (hplain : ∀ c ∈ account, IsPlain c) {n : Nat} (h : n < 100) :
    ∀ c ∈ countryCode ++ twoDigits n ++ account, IsPlain c := by
  rw [List.forall_mem_append, List.forall_mem_append]
  exact ⟨⟨isPlain_countryCode, fun c hc => .inl ((twoDigits_spec h).1 c hc)⟩, hplain⟩

theorem checkDigits_eq (hplain : ∀ c ∈ account, IsPlain c) :
    checkDigits account = twoDigits (checkNumber account) := by
  have hlen : 4 ≤ (countryCode ++ twoDigits 0 ++ account).length := by
    rw [List.length_append]
    exact Nat.le_add_right 4 _
  have hremainder := remainder97?_eq hlen (isPlain_framed hplain (by decide))
  rw [checkedNumber_twoDigits (by decide), Nat.add_zero] at hremainder
  show twoDigits (98 - (remainder97? (countryCode ++ twoDigits 0 ++ account)).getD 0) = _
  rw [hremainder]
  rfl

/-- **The check digits** make the checked number leave 1. -/
theorem checkedNumber_checkDigits (hplain : ∀ c ∈ account, IsPlain c) :
    checkedNumber (countryCode ++ checkDigits account ++ account) % 97 = 1 := by
  have hbounds := checkNumber_bounds account
  rw [checkDigits_eq hplain, checkedNumber_twoDigits (by omega), checkNumber]
  omega

/-! ## Bytes -/

theorem toNat_lt_of_isPlain {c : Char} (h : IsPlain c) : c.toNat < 128 := by
  rcases h with hdigit | hupper
  · have := Numeral.code_of_isDigit hdigit
    omega
  · have := code_of_isUpper hupper
    omega

/-- Characters of one byte are cut off one by one. -/
theorem dropBytes?_append {front : List Char} (h : ∀ c ∈ front, c.toNat < 128) (rest : List Char) :
    dropBytes? front.length (front ++ rest) = some rest := by
  induction front with
  | nil =>
    show dropBytes? 0 rest = some rest
    rw [dropBytes?]
  | cons c front ih =>
    obtain ⟨hc, hfront⟩ := List.forall_mem_cons.mp h
    have hsize : c.utf8Size = 1 := by
      rw [← String.length_utf8EncodeChar, Utf8.encodeChar_of_ascii hc]
      rfl
    rw [List.length_cons, List.cons_append, dropBytes?, hsize, if_pos (Nat.le_add_left 1 _)]
    exact ih hfront

/-! ## Reading back -/

/-- **Account numbers.** What makes a text the account number of an address: its length, its check
    digits, and that both readers come back to the address. -/
structure IsNumberOf (s : String) (a : Address) : Prop where
  length_eq : s.length = 34 ∨ s.length = 35
  check : ∃ check, 2 ≤ check ∧ check ≤ 98 ∧ (s.toList.drop 2).take 2 = twoDigits check
  checkedNumber_eq : checkedNumber s.toList % 97 = 1
  isDirectIban_eq : isDirectIban s = true
  isValidIban_eq : isValidIban s = true
  ofIban?_eq : ofIban? s = some a
  checksumOfIban?_eq : checksumOfIban? s = some a.checksumText

/-- The characters of the account number of an address. -/
def ibanChars (a : Address) : List Char :=
  countryCode ++ twoDigits (checkNumber (accountDigits a)) ++ accountDigits a

theorem toList_ibanText (a : Address) : (ibanText a).toList = ibanChars a := by
  rw [ibanText, String.toList_ofList, checkDigits_eq (isPlain_accountDigits a)]
  rfl

theorem isPlain_ibanChars (a : Address) : ∀ c ∈ ibanChars a, IsPlain c := by
  have hbounds := checkNumber_bounds (accountDigits a)
  exact isPlain_framed (isPlain_accountDigits a) (by omega)

theorem length_ibanChars (a : Address) : (ibanChars a).length = 34 ∨ (ibanChars a).length = 35 := by
  have hlen : (ibanChars a).length = 4 + (accountValues a).length := by
    rw [ibanChars, accountDigits_eq, List.length_append, List.length_map]
    rfl
  have hvalues := length_accountValues a
  omega

theorem hasIbanForm_ibanChars (a : Address) : hasIbanForm (ibanChars a) = true := by
  have hbounds := checkNumber_bounds (accountDigits a)
  refine hasIbanForm_iff.mpr ⟨length_ibanChars a, rfl, ?_, ?_⟩
  · exact (twoDigits_spec (by omega)).1
  · exact isPlain_accountDigits a

theorem isDirectIban_ibanText (a : Address) : isDirectIban (ibanText a) = true := by
  have hascii : ∀ c ∈ ibanChars a, c.toNat < 128 :=
    fun c hc => toNat_lt_of_isPlain (isPlain_ibanChars a c hc)
  have hlen : (Utf8.bytes (ibanText a)).length = (ibanChars a).length := by
    rw [Utf8.bytes, toList_ibanText, Utf8.encode_of_ascii hascii, List.length_map]
  rw [isDirectIban, Bool.or_eq_true, beq_iff_eq, beq_iff_eq, hlen]
  exact length_ibanChars a

/-- **Reading back.** The digits behind the first four bytes add up to the address. -/
theorem ofIban?_ibanText (a : Address) : ofIban? (ibanText a) = some a := by
  have hbounds := checkNumber_bounds (accountDigits a)
  have hfront : ∀ c ∈ countryCode ++ twoDigits (checkNumber (accountDigits a)), c.toNat < 128 := by
    intro c hc
    exact toNat_lt_of_isPlain (isPlain_ibanChars a c (List.mem_append_left _ hc))
  have haccount : dropBytes? 4 (ibanText a).toList = some (accountDigits a) := by
    rw [toList_ibanText]
    exact dropBytes?_append hfront (accountDigits a)
  have hoctets : FixedBytes.ofNat 20 a.octets.value = a.octets :=
    Bytes.eq_of_value_eq (Bytes.value_ofNat_of_lt (value_lt a))
  unfold ofIban?
  rw [isDirectIban_ibanText, haccount]
  simp only [guard, Option.bind_eq_bind, Option.pure_def, if_true, Option.bind_some,
    mapM_digit?_accountDigits, Option.map_some, ofDigits_accountValues, hoctets]
  rw [if_pos (show a.octets.value < bitBound 160 from value_lt a)]
  rfl

theorem isNumberOf_ibanText (a : Address) : IsNumberOf (ibanText a) a := by
  have hlist := toList_ibanText a
  have hbounds := checkNumber_bounds (accountDigits a)
  have hchecked : checkedNumber (ibanText a).toList % 97 = 1 := by
    rw [hlist, ibanChars, ← checkDigits_eq (isPlain_accountDigits a)]
    exact checkedNumber_checkDigits (isPlain_accountDigits a)
  exact
    { length_eq := by
        rw [← String.length_toList, hlist]
        exact length_ibanChars a
      check := ⟨checkNumber (accountDigits a), hbounds.1, hbounds.2, by rw [hlist]; rfl⟩
      checkedNumber_eq := hchecked
      isDirectIban_eq := isDirectIban_ibanText a
      isValidIban_eq := isValidIban_iff.mpr ⟨hlist ▸ hasIbanForm_ibanChars a, hchecked⟩
      ofIban?_eq := ofIban?_ibanText a
      checksumOfIban?_eq := by rw [checksumOfIban?, ofIban?_ibanText, Option.map_some] }

/-- **Account numbers are read back.** Every address has one, of 34 or 35 characters, which is
    accepted and stands for that address alone. -/
theorem ibanText_read_back :
    (∀ a : Address, IsNumberOf (ibanText a) a) ∧
    ∀ a b : Address, ibanText a = ibanText b ↔ a = b := by
  refine ⟨isNumberOf_ibanText, fun a b => ⟨fun h => ?_, fun h => h ▸ rfl⟩⟩
  have hread := ofIban?_ibanText a
  rw [h, ofIban?_ibanText b] at hread
  exact (Option.some.inj hread).symm

end Address

end ChainClient
