import ChainClient.Address
import ChainClient.Proofs.Hex.Agreement

/-!
# `ChainClient.Proofs.Address.Canonical` — texts in canonical form

A text is brought into canonical form in two ways: by reading an address from it and writing that
one, which works on pairs of digits and on bytes; or by work on its characters alone, which adds a
mark, zeros in front and small letters. Where the text spells an address, or the end of one, both
give the same.

## Contents
- **Reading.** `parse_eq_ok_iff` and `exists_parse_eq_ok_iff` say which address digits denote, and
  `lossy_of_parse` that the lossy reader reads the same one.
- **Canonical texts.** `isStrictText_iff`: those that are recognised are the texts of addresses.
- **Padding.** `encode_fit`: zero bytes in front of bytes are zeros in front of their digits.
- **Normal form.** `toList_strictText` says what any text becomes. So nothing changes the second
  time (`strictText_strictText`), and digits become the text of the address they end
  (`strictText_of_onlyDigits`).
- **Normalisation.** `texts_normalise`.
-/

namespace ChainClient

namespace Address

/-! ## Reading -/

/-- **Denoted addresses.** Digits are read as the address whose digits they are in small form. -/
theorem parse_eq_ok_iff {s : String} {a : Address} :
    parse s = .ok a ↔ (Hex.dropMark s.toList).map Char.toLower = Hex.encode a.bytes := by
  rw [← Hex.decode_eq_ok_iff]
  unfold parse
  constructor
  · intro h
    split at h
    · next bs hbs =>
      unfold ofBytes FixedBytes.ofBytes? at h
      split at h
      · next octets hoctets =>
        split at hoctets
        · cases hoctets
          cases h
          exact hbs
        · cases hoctets
      · cases h
    · cases h
  · intro h
    rw [h]
    show ofBytes a.bytes = .ok a
    rw [ofBytes, FixedBytes.ofBytes?, dif_pos a.length_bytes]
    rfl

theorem length_encode_bytes (a : Address) : (Hex.encode a.bytes).length = 40 := by
  rw [Hex.length_encode, a.length_bytes]

/-- Forty digits are those of an address. -/
theorem exists_encode_bytes_iff {cs : List Char} :
    (∃ a : Address, cs.map Char.toLower = Hex.encode a.bytes) ↔
      cs.length = 40 ∧ ∀ c ∈ cs, (Numeral.digit? 16 c).isSome = true := by
  constructor
  · rintro ⟨a, ha⟩
    refine ⟨?_, (Hex.isPaired_iff.mpr ⟨a.bytes, ha⟩).2⟩
    rw [← List.length_map, ha, length_encode_bytes]
  · rintro ⟨hlength, hdigits⟩
    obtain ⟨bs, hbs⟩ := Hex.isPaired_iff.mp ⟨by rw [hlength], hdigits⟩
    have htwenty : bs.length = 20 := by
      have hdouble := Hex.length_encode bs
      rw [← hbs, List.length_map, hlength] at hdouble
      omega
    exact ⟨fit bs, by rw [bytes_fit_of_length htwenty, hbs]⟩

/-- Forty digits denote an address, and nothing else does. -/
theorem exists_parse_eq_ok_iff {s : String} :
    (∃ a, parse s = .ok a) ↔ (Hex.dropMark s.toList).length = 40 ∧ Hex.OnlyDigits s := by
  simp only [parse_eq_ok_iff]
  exact exists_encode_bytes_iff

/-- The lossy reader reads an address where there is one. -/
theorem lossy_of_parse {s : String} {a : Address} (h : parse s = .ok a) : lossy s = a := by
  rw [lossy, Hex.lossy_eq_of_digits (parse_eq_ok_iff.mp h), fit_bytes]

/-! ## Canonical texts -/

theorem toList_text (a : Address) : a.text.toList = '0' :: 'x' :: Hex.encode a.bytes :=
  String.toList_ofList

theorem dropMark_toList_text (a : Address) : Hex.dropMark a.text.toList = Hex.encode a.bytes := by
  rw [toList_text]
  rfl

theorem parse_text (a : Address) : parse a.text = .ok a := by
  rw [parse_eq_ok_iff, dropMark_toList_text, Hex.map_toLower_encode]

theorem isLowerHexDigit_iff {b : UInt8} :
    isLowerHexDigit b = true ↔ ∃ d < 16, Char.ofUInt8 b = d.digitChar := by
  have hcode : (Char.ofUInt8 b).toNat = b.toNat := rfl
  rw [isLowerHexDigit, Bool.or_eq_true, Bool.and_eq_true, Bool.and_eq_true, decide_eq_true_iff,
    decide_eq_true_iff, decide_eq_true_iff, decide_eq_true_iff]
  simp only [UInt8.le_iff_toNat_le, UInt8.reduceToNat, ← Char.toNat_inj, hcode]
  constructor
  · rintro (hdecimal | hletter)
    · refine ⟨b.toNat - 48, by omega, ?_⟩
      rw [Numeral.toNat_digitChar (by omega), if_pos (by omega)]
      omega
    · refine ⟨b.toNat - 87, by omega, ?_⟩
      rw [Numeral.toNat_digitChar (by omega), if_neg (by omega)]
      omega
  · rintro ⟨d, hd, hb⟩
    rw [Numeral.toNat_digitChar hd] at hb
    split at hb <;> omega

/-- Characters whose bytes are all codes of small digits are small digits: none of them can be
    beyond ASCII. -/
theorem digitChars_of_encode {cs : List Char}
    (h : ∀ b ∈ Utf8.encode cs, isLowerHexDigit b = true) : ∀ c ∈ cs, ∃ d < 16, c = d.digitChar := by
  have hsmall : ∀ b ∈ Utf8.encode cs, b.toNat < 128 := by
    intro b hb
    obtain ⟨d, hd, hchar⟩ := isLowerHexDigit_iff.mp (h b hb)
    have hcode : b.toNat = d.digitChar.toNat := congrArg Char.toNat hchar
    rw [Numeral.toNat_digitChar hd] at hcode
    split at hcode <;> omega
  rw [← Utf8.map_ofUInt8_encode (Utf8.isAscii_of_encode hsmall)]
  intro c hc
  obtain ⟨b, hb, rfl⟩ := List.mem_map.mp hc
  exact isLowerHexDigit_iff.mp (h b hb)

/-- **Canonical texts** are the texts of addresses. -/
theorem isStrictText_iff {s : String} : isStrictText s = true ↔ ∃ a : Address, a.text = s := by
  rw [isStrictText, Bool.and_eq_true, Bool.and_eq_true, beq_iff_eq, beq_iff_eq, List.all_eq_true]
  constructor
  · rintro ⟨⟨hlength, hmark⟩, hdigits⟩
    have hsplit := (List.take_append_drop 2 (Utf8.bytes s)).symm
    rw [hmark] at hsplit
    have hsmall : ∀ b ∈ ([0x30, 0x78] : Bytes), b.toNat < 128 := by
      rw [List.forall_mem_cons, List.forall_mem_singleton]
      exact ⟨by decide, by decide⟩
    obtain ⟨rest, hs, hrest⟩ := Utf8.exists_chars_of_encode hsplit hsmall
    rw [← hrest] at hdigits
    have hlower := digitChars_of_encode hdigits
    have hhex : ∀ c ∈ rest, (Numeral.digit? 16 c).isSome = true := by
      intro c hc
      obtain ⟨d, hd, rfl⟩ := hlower c hc
      exact Hex.isSome_digit?_iff.mpr ⟨d, hd, Numeral.toLower_digitChar hd⟩
    have hforty : rest.length = 40 := by
      have hbytes : (Utf8.encode rest).length = 40 := by
        rw [hrest, List.length_drop, hlength]
      rwa [Utf8.encode_of_ascii fun c hc => Hex.toNat_lt_of_digit? (hhex c hc),
        List.length_map] at hbytes
    obtain ⟨a, ha⟩ := exists_encode_bytes_iff.mpr ⟨hforty, hhex⟩
    rw [Numeral.map_toLower_digitChars hlower] at ha
    refine ⟨a, String.toList_inj.mp ?_⟩
    rw [toList_text, ← ha]
    exact hs.symm
  · rintro ⟨a, rfl⟩
    have hascii : ∀ c ∈ '0' :: 'x' :: Hex.encode a.bytes, c.toNat < 128 := by
      rw [List.forall_mem_cons, List.forall_mem_cons]
      exact ⟨by decide, by decide, fun c hc => Hex.toNat_lt_of_mem_encode hc⟩
    rw [Utf8.bytes, toList_text, Utf8.encode_of_ascii hascii]
    refine ⟨⟨?_, rfl⟩, ?_⟩
    · rw [List.length_map, List.length_cons, List.length_cons, Hex.length_encode, a.length_bytes]
    · intro b hb
      obtain ⟨c, hc, rfl⟩ := List.mem_map.mp hb
      obtain ⟨d, hd, hchar⟩ := Hex.exists_digit_of_mem_encode hc
      refine isLowerHexDigit_iff.mpr ⟨d, hd, ?_⟩
      rw [Utf8.ofUInt8_code (Hex.toNat_lt_of_mem_encode hc), hchar]

/-! ## Padding -/

theorem leftpad_of_le {α : Type} {n : Nat} {a : α} {l : List α} (h : n ≤ l.length) :
    List.leftpad n a l = l := by
  rw [List.leftpad, Nat.sub_eq_zero_of_le h]
  rfl

/-- A padding character in front saves one of the padding. -/
theorem leftpad_cons_self {α : Type} {n : Nat} {a : α} {l : List α} (h : l.length < n) :
    List.leftpad n a (a :: l) = List.leftpad n a l := by
  have hsplit : n - l.length = (n - (a :: l).length) + 1 := by
    rw [List.length_cons]
    omega
  rw [List.leftpad, List.leftpad, hsplit, List.replicate_succ', List.append_assoc]
  rfl

/-- **Padding bytes.** A zero byte has two zeros. -/
theorem encode_fit {bs : Bytes} (h : bs.length ≤ 20) :
    Hex.encode (Bytes.fit 20 bs) = List.leftpad 40 '0' (Hex.encode bs) := by
  have hzeros : ∀ n, Hex.encode (List.replicate n 0) = List.replicate (2 * n) '0' := by
    intro n
    induction n with
    | zero => rfl
    | succ n ih =>
      rw [List.replicate_succ, Hex.encode_cons, ih]
      rfl
  have hencode : Hex.encode (List.replicate (20 - bs.length) 0 ++ bs) =
      Hex.encode (List.replicate (20 - bs.length) 0) ++ Hex.encode bs := List.flatMap_append
  rw [Bytes.fit, Nat.sub_eq_zero_of_le h, List.drop_zero, Bytes.padLeft, hencode, hzeros,
    List.leftpad, Hex.length_encode, Nat.mul_sub]

/-! ## Normal form -/

/-- **Normal form.** A mark, and behind it the characters in small form, padded to forty. -/
theorem toList_strictText (s : String) :
    (strictText s).toList =
      '0' :: 'x' :: List.leftpad 40 '0' ((Hex.dropMark s.toList).map Char.toLower) := by
  unfold strictText
  split
  · next hstrict =>
    -- the text of an address has this form already
    obtain ⟨a, rfl⟩ := isStrictText_iff.mp hstrict
    rw [dropMark_toList_text, Hex.map_toLower_encode,
      leftpad_of_le (Nat.le_of_eq (length_encode_bytes a).symm), toList_text]
  · exact String.toList_ofList

/-- **Twice is once.** -/
theorem strictText_strictText (s : String) : strictText (strictText s) = strictText s := by
  have hlower : ∀ c : Char, c.toLower.toLower = c.toLower := by
    intro c
    rw [← Char.toNat_inj, Numeral.toNat_toLower, Numeral.toNat_toLower]
    split
    · exact if_neg (by omega)
    · rfl
  have hsmall : ∀ cs : List Char, (List.leftpad 40 '0' (cs.map Char.toLower)).map Char.toLower =
      List.leftpad 40 '0' (cs.map Char.toLower) := by
    intro cs
    rw [List.leftpad, List.map_append, List.map_replicate, List.map_map]
    exact congrArg _ (List.map_congr_left fun c _ => hlower c)
  have hmark : ∀ cs, Hex.dropMark ('0' :: 'x' :: cs) = cs := fun cs => rfl
  apply String.toList_inj.mp
  rw [toList_strictText (strictText s), toList_strictText s, hmark, hsmall, leftpad_of_le]
  rw [List.length_leftpad]
  exact Nat.le_max_left 40 _

/-- Where there is an address, its text is the canonical form. -/
theorem strictText_of_parse {s : String} {a : Address} (h : parse s = .ok a) :
    strictText s = a.text := by
  apply String.toList_inj.mp
  rw [toList_strictText, parse_eq_ok_iff.mp h,
    leftpad_of_le (Nat.le_of_eq (length_encode_bytes a).symm), toList_text]

/-- **Digits of the end of an address.** At most forty digits are padded as the bytes that they
    spell are. -/
theorem strictText_of_onlyDigits {s : String} (hlength : (Hex.dropMark s.toList).length ≤ 40)
    (h : Hex.OnlyDigits s) : strictText s = (lossy s).text := by
  have hread := Hex.encode_lossy_of_onlyDigits h
  have hbytes : (Hex.lossy s).length ≤ 20 := by
    have hdouble := Hex.length_encode (Hex.lossy s)
    rw [hread] at hdouble
    split at hdouble
    · rw [List.length_cons, List.length_map] at hdouble
      omega
    · rw [List.length_map] at hdouble
      omega
  apply String.toList_inj.mp
  rw [toList_strictText, toList_text]
  show _ = '0' :: 'x' :: Hex.encode (Bytes.fit 20 (Hex.lossy s))
  rw [encode_fit hbytes, hread]
  split
  · next hodd =>
    -- an odd number is below forty, and the zero of the last pair is one of the padding
    rw [leftpad_cons_self]
    rw [List.length_map]
    omega
  · rfl

/-! ## Normalisation -/

/-- **Texts normalise consistently.** At most forty digits, any number of them and with or without a
    mark, become the text of the address that the lossy reader reads, and that text is canonical.
    Where there is a whole address, both readers read the same one, and the text becomes that
    address's own. The canonical texts are those that addresses have. And a text that has been
    brought into canonical form, as far as that went, stays as it is. -/
theorem texts_normalise :
    (∀ s, (Hex.dropMark s.toList).length ≤ 40 → Hex.OnlyDigits s →
      strictText s = (lossy s).text ∧ isStrictText (strictText s) = true) ∧
    (∀ s a, parse s = .ok a → lossy s = a ∧ strictText s = a.text) ∧
    (∀ s, isStrictText s = true ↔ ∃ a, parse s = .ok a ∧ a.text = s) ∧
    ∀ s, strictText (strictText s) = strictText s := by
  refine ⟨fun s hlength h => ?_, fun s a h => ⟨lossy_of_parse h, strictText_of_parse h⟩,
    fun s => ?_, strictText_strictText⟩
  · have htext := strictText_of_onlyDigits hlength h
    exact ⟨htext, isStrictText_iff.mpr ⟨lossy s, htext.symm⟩⟩
  · rw [isStrictText_iff]
    refine exists_congr fun a => ⟨fun h => ⟨?_, h⟩, And.right⟩
    rw [← h]
    exact parse_text a

/-- An odd number of digits behind a capital mark; and forty digits without a mark. -/
theorem texts_normalise_of_odd :
    strictText "0XaBc" = (lossy "0XaBc").text ∧ isStrictText (strictText "0XaBc") = true ∧
      lossy "08D04fc4513e27854ac19f16B9b8cB8D564e2c68" =
        fit [0x08, 0xD0, 0x4F, 0xC4, 0x51, 0x3E, 0x27, 0x85, 0x4A, 0xC1, 0x9F, 0x16, 0xB9, 0xB8,
          0xCB, 0x8D, 0x56, 0x4E, 0x2C, 0x68] := by
  obtain ⟨hpad, haddress, -, -⟩ := texts_normalise
  obtain ⟨htext, hstrict⟩ := hpad "0XaBc" (by decide) (by decide)
  exact ⟨htext, hstrict, (haddress _ _ (by decide)).1⟩

end Address

end ChainClient
