import ChainClient.Hex
import ChainClient.Proofs.Text.Numeral
import ChainClient.Proofs.Text.Utf8

/-!
# `ChainClient.Proofs.Hex` — the texts that spell bytes

The writer gives every byte string one text. The strict reader takes that text and those that differ
from it in the case of letters, or in that of the mark, and no others.

## Contents
- **Digits.** `digit?_eq_some_iff`, for the codes of characters.
- **Digits without a mark.** `decode_eq_ok_iff`.
- **Marked texts.** `IsMarked`; `decodeMarked_eq_ok_iff` ties it to the strict reader. A mark and
  what is behind it do not depend on case (`dropMark_of_map_toLower`).
- **Lossy reading.** `length_lossy_le`: a text spells at most half as many bytes as it has.
  `lossy_eq_of_isMarked`: where the strict reader succeeds, the lossy one gives the same bytes.
- **What is left out.** `exists_front_of_lossy`: the lossy reader takes the pairs in front of the
  first one that is not two digits, and leaves nothing out exactly if the text is `OnlyDigits`.
  `encode_lossy_of_onlyDigits` is what such texts are read as, and `isPrefix_lossy_iff` says which
  texts start with some bytes.
-/

namespace ChainClient

namespace Hex

/-! ## Digits -/

/-- Digits of bytes are digits of the characters with their codes. -/
theorem map_toNat_digit? (b : UInt8) :
    (digit? b).map UInt8.toNat = Numeral.digit? 16 (Char.ofUInt8 b) := by
  have hcode : (Char.ofUInt8 b).toNat = b.toNat := rfl
  have hsub : ∀ k : UInt8, k.toNat ≤ b.toNat → (b - k).toNat = b.toNat - k.toNat :=
    fun k hk => UInt8.toNat_sub_of_le b k (UInt8.le_iff_toNat_le.mpr hk)
  unfold digit? Numeral.digit?
  simp only [hcode, UInt8.le_iff_toNat_le, UInt8.reduceToNat]
  split
  · next h =>
    rw [Option.map_some, hsub 0x30 h.1, Option.filter_some, if_pos]
    · rfl
    · exact decide_eq_true (show b.toNat - 48 < 16 by omega)
  · split
    · next h =>
      rw [if_pos (by omega), Option.map_some, hsub 0x57 (show 87 ≤ b.toNat by omega),
        Option.filter_some, if_pos]
      · rfl
      · exact decide_eq_true (show b.toNat - 87 < 16 by omega)
    · split
      · next h =>
        rw [if_neg (by omega), if_pos (by omega), Option.map_some,
          hsub 0x37 (show 55 ≤ b.toNat by omega), Option.filter_some, if_pos]
        · rfl
        · exact decide_eq_true (show b.toNat - 55 < 16 by omega)
      · -- the letters beyond `f` are digits of greater radices only
        symm
        apply Option.filter_eq_none_iff.mpr
        intro d hd hsmall
        have hsmall : d < 16 := of_decide_eq_true hsmall
        split at hd
        · cases hd
          omega
        · split at hd
          · cases hd
            omega
          · cases hd

/-- The character with a code, in small letters. -/
def smallChar (b : UInt8) : Char := (Char.ofUInt8 b).toLower

theorem toNat_smallChar (b : UInt8) :
    (smallChar b).toNat = if 65 ≤ b.toNat ∧ b.toNat ≤ 90 then b.toNat + 32 else b.toNat :=
  Numeral.toNat_toLower (Char.ofUInt8 b)

/-- **Digits.** Case does not matter. -/
theorem digit?_eq_some_iff {b h : UInt8} :
    digit? b = some h ↔ h.toNat < 16 ∧ smallChar b = h.toNat.digitChar := by
  rw [smallChar, ← Numeral.digit?_eq_some_iff (Nat.le_refl 16), ← map_toNat_digit?,
    Option.map_eq_some_iff]
  constructor
  · intro hb
    exact ⟨h, hb, rfl⟩
  · rintro ⟨h', hb, hh⟩
    rw [hb, UInt8.toNat_inj.mp hh]

/-- The check for digits accepts the bytes that have a value as digits. -/
theorem isDigit_eq_isSome_digit? (b : UInt8) : isDigit b = (digit? b).isSome := by
  unfold isDigit digit?
  rw [Bool.eq_iff_iff, Bool.or_eq_true, Bool.or_eq_true, Bool.and_eq_true, Bool.and_eq_true,
    Bool.and_eq_true, decide_eq_true_iff, decide_eq_true_iff, decide_eq_true_iff,
    decide_eq_true_iff, decide_eq_true_iff, decide_eq_true_iff]
  split
  · next hdecimal => exact iff_of_true (.inl (.inl hdecimal)) rfl
  · next hdecimal =>
    split
    · next hsmall => exact iff_of_true (.inr hsmall) rfl
    · next hsmall =>
      split
      · next hcapital => exact iff_of_true (.inl (.inr hcapital)) rfl
      · next hcapital =>
        exact iff_of_false (fun h => h.elim (fun h => h.elim hdecimal hcapital) hsmall)
          Bool.false_ne_true

theorem isDigit_of_some {b d : UInt8} (h : digit? b = some d) : isDigit b = true := by
  rw [isDigit_eq_isSome_digit?, h]
  rfl

theorem isDigit_of_none {b : UInt8} (h : digit? b = none) : isDigit b = false := by
  rw [isDigit_eq_isSome_digit?, h]
  rfl

/-! ## Digits without a mark -/

theorem encode_cons (b : UInt8) (bs : Bytes) :
    encode (b :: bs) =
      (b.toNat / 16).digitChar :: (b.toNat % 16).digitChar :: encode bs := rfl

theorem length_encode (bs : Bytes) : (encode bs).length = 2 * bs.length := by
  induction bs with
  | nil => rfl
  | cons b bs ih =>
    rw [encode_cons, List.length_cons, List.length_cons, List.length_cons, ih]
    omega

/-- Two characters spell a byte when they are the digits of its halves. -/
theorem smallChar_pair_iff {high low b : UInt8} :
    smallChar high = (b.toNat / 16).digitChar ∧ smallChar low = (b.toNat % 16).digitChar ↔
      ∃ h l, digit? high = some h ∧ digit? low = some l ∧ h * 16 + l = b := by
  have hb : b.toNat < 256 := b.toNat_lt
  have hsum : ∀ h l : UInt8, h.toNat < 16 → l.toNat < 16 →
      (h * 16 + l = b ↔ h.toNat = b.toNat / 16 ∧ l.toNat = b.toNat % 16) := by
    intro h l hh hl
    have hmul : (h * 16 + l).toNat = h.toNat * 16 + l.toNat := by
      rw [UInt8.toNat_add, UInt8.toNat_mul]
      show (h.toNat * 16 % 256 + l.toNat) % 256 = _
      omega
    rw [← UInt8.toNat_inj, hmul]
    omega
  constructor
  · rintro ⟨hhigh, hlow⟩
    have hh : (UInt8.ofNat (b.toNat / 16)).toNat = b.toNat / 16 :=
      UInt8.toNat_ofNat_of_lt' (show b.toNat / 16 < 256 by omega)
    have hl : (UInt8.ofNat (b.toNat % 16)).toNat = b.toNat % 16 :=
      UInt8.toNat_ofNat_of_lt' (show b.toNat % 16 < 256 by omega)
    refine ⟨UInt8.ofNat (b.toNat / 16), UInt8.ofNat (b.toNat % 16),
      digit?_eq_some_iff.mpr ⟨by omega, hh.symm ▸ hhigh⟩,
      digit?_eq_some_iff.mpr ⟨by omega, hl.symm ▸ hlow⟩, ?_⟩
    exact (hsum _ _ (by omega) (by omega)).mpr ⟨hh, hl⟩
  · rintro ⟨h, l, hhigh, hlow, hbyte⟩
    obtain ⟨hh, hhigh⟩ := digit?_eq_some_iff.mp hhigh
    obtain ⟨hl, hlow⟩ := digit?_eq_some_iff.mp hlow
    obtain ⟨hh', hl'⟩ := (hsum h l hh hl).mp hbyte
    exact ⟨hh' ▸ hhigh, hl' ▸ hlow⟩

/-- The digits of a byte string are pairs, one for each byte. -/
theorem cons_cons_eq_encode_iff {high low : UInt8} {cs : List Char} {bs : Bytes} :
    smallChar high :: smallChar low :: cs = encode bs ↔
      ∃ h l rest, digit? high = some h ∧ digit? low = some l ∧ bs = (h * 16 + l) :: rest ∧
        cs = encode rest := by
  cases bs with
  | nil =>
    constructor
    · intro h
      cases h
    · rintro ⟨_, _, _, _, _, hbs, _⟩
      cases hbs
  | cons b bs =>
    rw [encode_cons, List.cons.injEq, List.cons.injEq, ← and_assoc, smallChar_pair_iff]
    constructor
    · rintro ⟨⟨h, l, hhigh, hlow, rfl⟩, hcs⟩
      exact ⟨h, l, bs, hhigh, hlow, rfl, hcs⟩
    · rintro ⟨h, l, rest, hhigh, hlow, hbs, hcs⟩
      obtain ⟨hb, rfl⟩ := List.cons.inj hbs
      exact ⟨⟨h, l, hhigh, hlow, hb.symm⟩, hcs⟩

theorem decodeFrom_eq_ok_iff {digits bs : Bytes} (heven : digits.length % 2 = 0) (position : Nat) :
    decodeFrom position digits = .ok bs ↔ digits.map smallChar = encode bs := by
  fun_induction decodeFrom position digits generalizing bs with
  | case1 position high low rest hhigh =>
    rw [List.map_cons, List.map_cons, cons_cons_eq_encode_iff, hhigh]
    simp
  | case2 position high low rest h hlow hhigh =>
    rw [List.map_cons, List.map_cons, cons_cons_eq_encode_iff, hlow]
    simp
  | case3 position high low rest h l hlow hhigh bs' hrest ih =>
    have heven' : rest.length % 2 = 0 := by
      rw [List.length_cons, List.length_cons] at heven
      omega
    rw [List.map_cons, List.map_cons, cons_cons_eq_encode_iff]
    constructor
    · intro hok
      cases hok
      exact ⟨h, l, bs', hhigh, hlow, rfl, (ih heven').mp hrest⟩
    · rintro ⟨h', l', rest', hh', hl', rfl, hcs⟩
      obtain rfl := Option.some.inj (hhigh.symm.trans hh')
      obtain rfl := Option.some.inj (hlow.symm.trans hl')
      obtain rfl := Except.ok.inj (hrest.symm.trans ((ih heven').mpr hcs))
      rfl
  | case4 position high low rest h l hlow hhigh fault hrest ih =>
    have heven' : rest.length % 2 = 0 := by
      rw [List.length_cons, List.length_cons] at heven
      omega
    rw [List.map_cons, List.map_cons, cons_cons_eq_encode_iff]
    constructor
    · intro hok
      cases hok
    · rintro ⟨_, _, rest', _, _, rfl, hcs⟩
      cases hrest.symm.trans ((ih heven').mpr hcs)
  | case5 digits position hshort =>
    have hnil : digits = [] := by
      match digits, hshort, heven with
      | [], _, _ => rfl
      | [_], _, heven => cases heven
      | high :: low :: rest, hshort, _ => exact (hshort high low rest rfl).elim
    rw [hnil, List.map_nil]
    cases bs with
    | nil => exact ⟨fun _ => rfl, fun _ => rfl⟩
    | cons b bs =>
      constructor
      · intro h
        cases h
      · intro h
        cases h

theorem exists_digit_of_mem_encode {c : Char} {bs : Bytes} (h : c ∈ encode bs) :
    ∃ d < 16, c = d.digitChar := by
  obtain ⟨b, _, hc⟩ := List.mem_flatMap.mp h
  have hb : b.toNat < 256 := b.toNat_lt
  rcases List.mem_pair.mp hc with rfl | rfl
  · exact ⟨b.toNat / 16, by omega, rfl⟩
  · exact ⟨b.toNat % 16, by omega, rfl⟩

theorem toNat_lt_of_mem_encode {c : Char} {bs : Bytes} (h : c ∈ encode bs) : c.toNat < 128 := by
  obtain ⟨d, hd, rfl⟩ := exists_digit_of_mem_encode h
  rw [Numeral.toNat_digitChar hd]
  split <;> omega

/-- In ASCII, bytes and characters are the same. -/
theorem map_smallChar_encode {cs : List Char} (h : ∀ c ∈ cs, c.toNat < 128) :
    (Utf8.encode cs).map smallChar = cs.map Char.toLower := by
  have hsplit : (Utf8.encode cs).map smallChar =
      ((Utf8.encode cs).map Char.ofUInt8).map Char.toLower := List.map_map.symm
  rw [hsplit, Utf8.map_ofUInt8_encode h]

/-- **Strict reading.** A text of digits is read as the bytes whose digits it has. -/
theorem decode_eq_ok_iff {cs : List Char} {bs : Bytes} :
    decode (Utf8.encode cs) = .ok bs ↔ cs.map Char.toLower = encode bs := by
  unfold decode
  constructor
  · intro h
    split at h
    · cases h
    · next heven =>
      have hsmall := (decodeFrom_eq_ok_iff (by omega) 0).mp h
      -- the bytes are codes of digits, so the text has no other characters
      have hascii : ∀ b ∈ Utf8.encode cs, b.toNat < 128 := by
        intro b hb
        have hmem : smallChar b ∈ encode bs := hsmall ▸ List.mem_map_of_mem hb
        have hcode := toNat_smallChar b
        have hlt := toNat_lt_of_mem_encode hmem
        split at hcode <;> omega
      rw [← map_smallChar_encode (Utf8.isAscii_of_encode hascii), hsmall]
  · intro h
    have hascii : ∀ c ∈ cs, c.toNat < 128 := by
      intro c hc
      have hlt := toNat_lt_of_mem_encode (h ▸ List.mem_map_of_mem (f := Char.toLower) hc)
      have hcode := Numeral.toNat_toLower c
      split at hcode <;> omega
    have hlen : (Utf8.encode cs).length = 2 * bs.length := by
      rw [← length_encode, ← h, ← map_smallChar_encode hascii, List.length_map]
    rw [if_neg (by omega), decodeFrom_eq_ok_iff (by omega), map_smallChar_encode hascii, h]

/-! ## Marked texts -/

/-- **The marked texts of bytes**: a mark, and their digits in letters of any case. -/
def IsMarked (s : String) (bs : Bytes) : Prop :=
  ∃ mark digits, s.toList = '0' :: mark :: digits ∧ (mark = 'x' ∨ mark = 'X') ∧
    digits.map Char.toLower = encode bs

theorem hasMark_iff {cs : List Char} :
    hasMark cs = true ↔ ∃ mark digits, cs = '0' :: mark :: digits ∧ (mark = 'x' ∨ mark = 'X') := by
  unfold hasMark
  split
  · next c rest =>
    rw [Bool.or_eq_true, beq_iff_eq, beq_iff_eq]
    constructor
    · intro h
      exact ⟨c, rest, rfl, h⟩
    · rintro ⟨mark, digits, hcs, hmark⟩
      cases hcs
      exact hmark
  · next hother =>
    constructor
    · intro h
      cases h
    · rintro ⟨mark, digits, rfl, _⟩
      exact (hother mark digits rfl).elim

/-- Texts that differ in case only are marked alike. -/
theorem hasMark_of_map_toLower {cs ds : List Char}
    (h : cs.map Char.toLower = ds.map Char.toLower) (hmark : hasMark ds = true) :
    hasMark cs = true := by
  obtain ⟨mark, digits, rfl, hx⟩ := hasMark_iff.mp hmark
  obtain ⟨zero, rest, rfl, hzero, h⟩ := List.map_eq_cons_iff.mp h
  obtain ⟨mark', rest, rfl, hmark', -⟩ := List.map_eq_cons_iff.mp h
  have hsmall : mark.toLower = 'x' := by rcases hx with rfl | rfl <;> rfl
  have hzero' : zero.toLower.toNat = 48 := congrArg Char.toNat hzero
  have hx' : mark'.toLower.toNat = 120 := congrArg Char.toNat (hmark'.trans hsmall)
  rw [Numeral.toNat_toLower] at hzero' hx'
  have hzero : zero = '0' := Char.toNat_inj.mp (show zero.toNat = 48 by split at hzero' <;> omega)
  refine hasMark_iff.mpr ⟨mark', rest, by rw [hzero], ?_⟩
  rw [← Char.toNat_inj, ← Char.toNat_inj]
  show mark'.toNat = 120 ∨ mark'.toNat = 88
  split at hx' <;> omega

theorem dropMark_of_map_toLower {cs ds : List Char}
    (h : cs.map Char.toLower = ds.map Char.toLower) :
    (dropMark cs).map Char.toLower = (dropMark ds).map Char.toLower := by
  have hmark : hasMark cs = hasMark ds :=
    Bool.eq_iff_iff.mpr ⟨hasMark_of_map_toLower h.symm, hasMark_of_map_toLower h⟩
  rw [dropMark, dropMark, hmark]
  split
  · rw [List.map_drop, List.map_drop, h]
  · exact h

/-- **Strict reading of marked texts.** -/
theorem decodeMarked_eq_ok_iff {s : String} {bs : Bytes} :
    decodeMarked s = .ok bs ↔ IsMarked s bs := by
  unfold decodeMarked
  constructor
  · intro h
    split at h
    · cases h
    · split at h
      · next hmark =>
        obtain ⟨mark, digits, hs, hx⟩ := hasMark_iff.mp hmark
        rw [hs] at h
        refine ⟨mark, digits, hs, hx, decode_eq_ok_iff.mp ?_⟩
        cases hdecode : decode (Utf8.encode digits) with
        | ok bs' =>
          rw [List.drop_succ_cons, List.drop_succ_cons, List.drop_zero, hdecode] at h
          cases h
          rfl
        | error fault =>
          rw [List.drop_succ_cons, List.drop_succ_cons, List.drop_zero, hdecode] at h
          cases h
      · cases h
  · rintro ⟨mark, digits, hs, hx, hdigits⟩
    rw [if_neg (by rw [hs]; exact List.cons_ne_nil _ _),
      if_pos (hasMark_iff.mpr ⟨mark, digits, hs, hx⟩), hs]
    show (decode (Utf8.encode digits)).mapError _ = _
    rw [decode_eq_ok_iff.mpr hdigits]
    rfl

theorem map_toLower_encode (bs : Bytes) : (encode bs).map Char.toLower = encode bs :=
  Numeral.map_toLower_digitChars fun _ hc => exists_digit_of_mem_encode hc

/-- The writer's text is one of those that are read. -/
theorem isMarked_marked (bs : Bytes) : IsMarked (marked bs) bs :=
  ⟨'x', encode bs, String.toList_ofList, .inl rfl, map_toLower_encode bs⟩

/-! ## Lossy reading -/

/-- A byte is spelled by a pair of digits. -/
theorem length_pairs_le (digits : Bytes) : (pairs digits).length * 2 ≤ digits.length := by
  fun_induction pairs digits with
  | case1 high low rest h l hhigh hlow ih =>
    rw [List.length_cons, List.length_cons, List.length_cons]
    omega
  | case2 => exact Nat.zero_le _
  | case3 => exact Nat.zero_le _

/-- A text without its mark has no more bytes than the text. -/
theorem length_encode_dropMark_le (cs : List Char) :
    (Utf8.encode (dropMark cs)).length ≤ (Utf8.encode cs).length := by
  unfold dropMark
  split
  · have hsplit : Utf8.encode cs = Utf8.encode (cs.take 2) ++ Utf8.encode (cs.drop 2) := by
      rw [← Utf8.encode_append, List.take_append_drop]
    rw [hsplit, List.length_append]
    exact Nat.le_add_left _ _
  · exact Nat.le_refl _

/-- A text spells at most half as many bytes as it has, an odd digit counted as a pair. -/
theorem length_lossy_le (s : String) : (lossy s).length * 2 ≤ (Utf8.bytes s).length + 1 := by
  have hbody := length_encode_dropMark_le s.toList
  have hpairs := length_pairs_le (Utf8.encode (dropMark s.toList))
  have hodd := length_pairs_le (0x30 :: Utf8.encode (dropMark s.toList))
  rw [List.length_cons] at hodd
  show (if _ then _ else _ : Bytes).length * 2 ≤ (Utf8.encode s.toList).length + 1
  split
  · omega
  · omega

/-- What the strict reader takes is spelled by pairs to the end. -/
theorem pairs_of_decodeFrom {position : Nat} {digits bs : Bytes}
    (h : decodeFrom position digits = .ok bs) : pairs digits = bs := by
  fun_induction decodeFrom position digits generalizing bs with
  | case1 => cases h
  | case2 => cases h
  | case3 position high low rest h' l hhigh hlow bs' hrest ih =>
    cases h
    rw [pairs, hhigh, hlow]
    simp only
    rw [ih hrest]
  | case4 => cases h
  | case5 position digits hshort =>
    cases h
    rw [pairs]
    exact hshort

/-- Digits are read lossily as they are read strictly. -/
theorem lossy_eq_of_digits {s : String} {bs : Bytes}
    (h : (dropMark s.toList).map Char.toLower = encode bs) : lossy s = bs := by
  have hdecode := decode_eq_ok_iff.mpr h
  rw [decode] at hdecode
  split at hdecode
  · cases hdecode
  · next heven => exact (if_neg heven).trans (pairs_of_decodeFrom hdecode)

/-- **Readers agree** on the texts that spell all of a byte string. -/
theorem lossy_eq_of_isMarked {s : String} {bs : Bytes} (h : IsMarked s bs) : lossy s = bs := by
  obtain ⟨mark, digits, hs, hx, hdigits⟩ := h
  have hbody : dropMark s.toList = digits := by
    rw [dropMark, if_pos (hasMark_iff.mpr ⟨mark, digits, hs, hx⟩), hs]
    rfl
  exact lossy_eq_of_digits (hbody ▸ hdigits)

theorem lossy_marked (bs : Bytes) : lossy (marked bs) = bs :=
  lossy_eq_of_isMarked (isMarked_marked bs)

/-! ## What is left out -/

/-- **Texts of digits**, of any number, behind a mark or without one. -/
def OnlyDigits (s : String) : Prop :=
  ∀ c ∈ dropMark s.toList, (Numeral.digit? 16 c).isSome = true

instance (s : String) : Decidable (OnlyDigits s) :=
  List.decidableBAll _ (dropMark s.toList)

theorem isDigit_eq_isSome (b : UInt8) :
    isDigit b = (Numeral.digit? 16 (Char.ofUInt8 b)).isSome := by
  rw [isDigit_eq_isSome_digit?, ← map_toNat_digit?, Option.isSome_map]

theorem isSome_digit?_iff {c : Char} :
    (Numeral.digit? 16 c).isSome = true ↔ ∃ d < 16, c.toLower = d.digitChar := by
  rw [Option.isSome_iff_exists]
  simp only [Numeral.digit?_eq_some_iff (Nat.le_refl 16)]

theorem toNat_lt_of_digit? {c : Char} (h : (Numeral.digit? 16 c).isSome = true) :
    c.toNat < 128 := by
  obtain ⟨d, hlt, hchar⟩ := isSome_digit?_iff.mp h
  have hlower := Numeral.toNat_toLower c
  rw [hchar, Numeral.toNat_digitChar hlt] at hlower
  split at hlower <;> split at hlower <;> omega

/-- Characters are digits if their bytes are. -/
theorem forall_isDigit_encode_iff {cs : List Char} :
    (∀ b ∈ Utf8.encode cs, isDigit b = true) ↔
      ∀ c ∈ cs, (Numeral.digit? 16 c).isSome = true := by
  -- both say that the text is ASCII, and there bytes and characters are the same
  have hsame : (∀ c ∈ cs, c.toNat < 128) →
      ((∀ b ∈ Utf8.encode cs, isDigit b = true) ↔
        ∀ c ∈ cs, (Numeral.digit? 16 c).isSome = true) := by
    intro hascii
    conv_rhs => rw [← Utf8.map_ofUInt8_encode hascii]
    simp only [List.forall_mem_map, isDigit_eq_isSome]
  constructor
  · intro h
    refine (hsame (Utf8.isAscii_of_encode fun b hb => ?_)).mp h
    exact toNat_lt_of_digit? ((isDigit_eq_isSome b).symm.trans (h b hb))
  · intro h
    exact (hsame fun c hc => toNat_lt_of_digit? (h c hc)).mpr h

/-- The characters of a text are digits if its bytes are. -/
theorem onlyDigits_iff {s : String} :
    OnlyDigits s ↔ ∀ b ∈ Utf8.encode (dropMark s.toList), isDigit b = true :=
  forall_isDigit_encode_iff.symm

/-- The pairs that are read, and what stands behind them: less than a pair, or one with something
    else in it. -/
theorem exists_front_of_pairs (digits : Bytes) :
    ∃ front behind, digits = front ++ behind ∧ front.map smallChar = encode (pairs digits) ∧
      (∀ b ∈ front, isDigit b = true) ∧
      (behind.length < 2 ∨ ∃ b ∈ behind.take 2, isDigit b = false) := by
  fun_induction pairs digits with
  | case1 high low rest h l hlow hhigh ih =>
    obtain ⟨front, behind, rfl, hfront, hdigits, hbehind⟩ := ih
    refine ⟨high :: low :: front, behind, rfl, ?_, ?_, hbehind⟩
    · exact cons_cons_eq_encode_iff.mpr ⟨h, l, _, hhigh, hlow, rfl, hfront⟩
    · rw [List.forall_mem_cons, List.forall_mem_cons]
      exact ⟨isDigit_of_some hhigh, isDigit_of_some hlow, hdigits⟩
  | case2 high low rest hpair =>
    refine ⟨[], high :: low :: rest, rfl, rfl, List.forall_mem_nil _, .inr ?_⟩
    cases hhigh : digit? high with
    | none => exact ⟨high, List.mem_cons_self, isDigit_of_none hhigh⟩
    | some h =>
      cases hlow : digit? low with
      | none => exact ⟨low, List.mem_cons_of_mem high List.mem_cons_self, isDigit_of_none hlow⟩
      | some l => exact (hpair h l hhigh hlow).elim
  | case3 digits hshort =>
    refine ⟨[], digits, rfl, rfl, List.forall_mem_nil _, .inl ?_⟩
    match digits, hshort with
    | [], _ => exact Nat.zero_lt_two
    | [_], _ => exact Nat.one_lt_two
    | high :: low :: rest, hshort => exact (hshort high low rest rfl).elim

/-- The bytes that the lossy reader takes in pairs: those behind the mark, and a zero in front of an
    odd number of them. -/
def pairedBytes (s : String) : Bytes :=
  let body := Utf8.encode (dropMark s.toList)
  if body.length % 2 = 1 then 0x30 :: body else body

theorem lossy_eq_pairs (s : String) : lossy s = pairs (pairedBytes s) := by
  show (if _ then _ else _) = pairs (if _ then _ else _)
  split <;> rfl

theorem length_pairedBytes (s : String) : (pairedBytes s).length % 2 = 0 := by
  unfold pairedBytes
  simp only
  split
  · rw [List.length_cons]
    omega
  · omega

/-- The zero in front is a digit. -/
theorem forall_isDigit_pairedBytes {s : String} :
    (∀ b ∈ pairedBytes s, isDigit b = true) ↔ OnlyDigits s := by
  rw [onlyDigits_iff]
  unfold pairedBytes
  simp only
  split
  · rw [List.forall_mem_cons]
    exact and_iff_right rfl
  · rfl

/-- **The front that is read.** What the lossy reader takes of a text are the digits in front of the
    first pair that is not two digits. Nothing stands behind them exactly if the text is digits. -/
theorem exists_front_of_lossy (s : String) :
    ∃ front behind, pairedBytes s = front ++ behind ∧ front.map smallChar = encode (lossy s) ∧
      (behind = [] ∨ ∃ b ∈ behind.take 2, isDigit b = false) ∧ (behind = [] ↔ OnlyDigits s) := by
  obtain ⟨front, behind, hsplit, hfront, hdigits, hbehind⟩ :=
    exists_front_of_pairs (pairedBytes s)
  rw [← lossy_eq_pairs] at hfront
  have hbehind : behind = [] ∨ ∃ b ∈ behind.take 2, isDigit b = false := by
    refine hbehind.imp_left fun hshort => List.length_eq_zero_iff.mp ?_
    -- pairs are taken from an even number of bytes
    have heven := length_pairedBytes s
    have hlength := congrArg List.length hfront
    rw [hsplit, List.length_append] at heven
    rw [List.length_map, length_encode] at hlength
    omega
  refine ⟨front, behind, hsplit, hfront, hbehind, ?_⟩
  rw [← forall_isDigit_pairedBytes, hsplit, List.forall_mem_append]
  constructor
  · rintro rfl
    exact ⟨hdigits, List.forall_mem_nil _⟩
  · rintro ⟨_, hall⟩
    refine hbehind.resolve_right ?_
    rintro ⟨b, hb, hnot⟩
    rw [hall b (List.mem_of_mem_take hb)] at hnot
    cases hnot

/-- **Texts of digits** are read to the end, an odd number of them with a zero in front. -/
theorem encode_lossy_of_onlyDigits {s : String} (h : OnlyDigits s) :
    encode (lossy s) =
      if (dropMark s.toList).length % 2 = 1 then '0' :: (dropMark s.toList).map Char.toLower
      else (dropMark s.toList).map Char.toLower := by
  have hascii : ∀ c ∈ dropMark s.toList, c.toNat < 128 := fun c hc => toNat_lt_of_digit? (h c hc)
  have hlength : (Utf8.encode (dropMark s.toList)).length = (dropMark s.toList).length := by
    rw [Utf8.encode_of_ascii hascii, List.length_map]
  obtain ⟨front, behind, hsplit, hfront, -, hbehind⟩ := exists_front_of_lossy s
  rw [hbehind.mpr h, List.append_nil] at hsplit
  rw [← hfront, ← hsplit, pairedBytes, hlength]
  split
  · rw [List.map_cons, map_smallChar_encode hascii]
    rfl
  · exact map_smallChar_encode hascii

/-- Digits of bytes are read as those bytes, and what stands behind them is read on its own. -/
theorem pairs_append {digits : Bytes} {bs : Bytes} {rest : List Char}
    (h : digits.map smallChar = encode bs ++ rest) :
    pairs digits = bs ++ pairs (digits.drop (2 * bs.length)) := by
  induction bs generalizing digits with
  | nil => rfl
  | cons b bs ih =>
    rw [encode_cons, List.cons_append, List.cons_append] at h
    obtain ⟨high, digits, rfl, hhigh, h⟩ := List.map_eq_cons_iff.mp h
    obtain ⟨low, digits, rfl, hlow, h⟩ := List.map_eq_cons_iff.mp h
    obtain ⟨x, y, hx, hy, hbyte⟩ := smallChar_pair_iff.mp ⟨hhigh, hlow⟩
    rw [pairs, hx, hy]
    simp only
    rw [ih h, hbyte]
    rfl

/-- **What a text starts with.** The bytes that are read from a text start with some bytes exactly
    if the text, behind its mark and with its odd zero, starts with their digits. -/
theorem isPrefix_lossy_iff {s : String} {bs : Bytes} :
    bs <+: lossy s ↔ encode bs <+: (pairedBytes s).map smallChar := by
  constructor
  · rintro ⟨rest, hrest⟩
    obtain ⟨front, behind, hsplit, hfront, _⟩ := exists_front_of_lossy s
    have hencode : encode (bs ++ rest) = encode bs ++ encode rest := List.flatMap_append
    rw [hsplit, List.map_append, hfront, ← hrest, hencode, List.append_assoc]
    exact List.prefix_append _ _
  · rintro ⟨rest, hrest⟩
    rw [lossy_eq_pairs, pairs_append hrest.symm]
    exact List.prefix_append _ _

end Hex

end ChainClient
