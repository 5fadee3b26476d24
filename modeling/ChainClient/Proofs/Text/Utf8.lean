import ChainClient.Text.Utf8

/-!
# `ChainClient.Proofs.Text.Utf8` — characters written and read back

## Contents
- **One character.** `front?_encodeChar_append`: the bytes of a character are read back as that
  character, whatever follows them.
- **Texts.** `decode_encode` and `read_bytes`: a text is read back from its bytes.
- **ASCII.** `encode_of_ascii`: a text of small characters has one byte for each, its code;
  `le_of_mem_encodeChar`: other characters have large bytes only. So small bytes at the front of a
  text are its first characters (`exists_chars_of_encode`).
- **Positions.** `slice_append`: what is cut between two characters is what stands between them.
-/

namespace ChainClient

namespace Utf8

theorem encode_cons (c : Char) (cs : List Char) :
    encode (c :: cs) = String.utf8EncodeChar c ++ encode cs := rfl

/-! ## One character -/

/-- The reader sees at most four bytes, which hold the whole character. -/
theorem front?_encodeChar_append (c : Char) (rest : Bytes) :
    front? (String.utf8EncodeChar c ++ rest) = some c := by
  have hlen : (String.utf8EncodeChar c).length ≤ 4 := by
    rw [String.length_utf8EncodeChar]
    exact c.utf8Size_le_four
  rw [front?, List.take_append, List.take_of_length_le hlen, List.toByteArray_append]
  exact ByteArray.utf8DecodeChar?_utf8EncodeChar_append

/-! ## Texts -/

theorem decodeFrom_encode (index : Nat) (cs : List Char) :
    decodeFrom index (encode cs) = .ok cs := by
  induction cs generalizing index with
  | nil => rw [decodeFrom]; rfl
  | cons c cs ih =>
    have hne : encode (c :: cs) ≠ [] := by
      rw [encode_cons]
      exact List.append_ne_nil_of_left_ne_nil String.utf8EncodeChar_ne_nil _
    have hdrop : (encode (c :: cs)).drop c.utf8Size = encode cs := by
      rw [encode_cons, ← String.length_utf8EncodeChar, List.drop_left]
    rw [decodeFrom, dif_neg hne, encode_cons, front?_encodeChar_append]
    simp only
    rw [← encode_cons, hdrop, ih]

theorem decode_encode (cs : List Char) : decode (encode cs) = .ok cs := decodeFrom_encode 0 cs

/-- **A text is read back from its bytes.** -/
theorem read_bytes (s : String) : read (bytes s) = .ok s := by
  rw [read, bytes, decode_encode]
  exact congrArg Except.ok String.ofList_toList

/-! ## ASCII -/

theorem encode_append (cs ds : List Char) : encode (cs ++ ds) = encode cs ++ encode ds :=
  List.flatMap_append

theorem encodeChar_of_ascii {c : Char} (h : c.toNat < 128) :
    String.utf8EncodeChar c = [UInt8.ofNat c.toNat] := by
  unfold String.utf8EncodeChar
  rw [if_pos (show c.val.toNat ≤ 127 from Nat.le_of_lt_succ h)]
  rfl

/-- **ASCII texts** have one byte a character. -/
theorem encode_of_ascii {cs : List Char} (h : ∀ c ∈ cs, c.toNat < 128) :
    encode cs = cs.map fun c => UInt8.ofNat c.toNat := by
  induction cs with
  | nil => rfl
  | cons c cs ih =>
    rw [encode_cons, encodeChar_of_ascii (h c List.mem_cons_self),
      ih fun d hd => h d (List.mem_cons_of_mem c hd)]
    rfl

/-- The character with the code of a small one. -/
theorem ofUInt8_code {c : Char} (h : c.toNat < 128) :
    Char.ofUInt8 (UInt8.ofNat c.toNat) = c := by
  apply Char.toNat_inj.mp
  show (UInt8.ofNat c.toNat).toNat = c.toNat
  exact UInt8.toNat_ofNat_of_lt' (show c.toNat < 256 by omega)

/-- The bytes of an ASCII text are the codes of its characters. -/
theorem map_ofUInt8_encode {cs : List Char} (h : ∀ c ∈ cs, c.toNat < 128) :
    (encode cs).map Char.ofUInt8 = cs := by
  rw [encode_of_ascii h, List.map_map]
  exact List.map_congr_left (fun c hc => ofUInt8_code (h c hc)) |>.trans (List.map_id cs)

/-- Small bytes are the codes of characters that have no other bytes. -/
theorem encode_map_ofUInt8 {bs : Bytes} (h : ∀ b ∈ bs, b.toNat < 128) :
    encode (bs.map Char.ofUInt8) = bs := by
  have hcode : ∀ b : UInt8, (Char.ofUInt8 b).toNat = b.toNat := fun _ => rfl
  rw [encode_of_ascii, List.map_map]
  · refine (List.map_congr_left fun b _ => ?_).trans (List.map_id bs)
    show UInt8.ofNat (Char.ofUInt8 b).toNat = b
    rw [hcode, UInt8.ofNat_toNat]
  · intro c hc
    obtain ⟨b, hb, rfl⟩ := List.mem_map.mp hc
    exact h b hb

/-- A character beyond ASCII has bytes beyond ASCII only. -/
theorem le_of_mem_encodeChar {c : Char} (h : 128 ≤ c.toNat) {b : UInt8}
    (hb : b ∈ String.utf8EncodeChar c) : 128 ≤ b.toNat := by
  have hval : c.toNat = c.val.toNat := rfl
  have hmark : ∀ n, 128 ≤ n → n < 256 → 128 ≤ (UInt8.ofNat n).toNat := by
    intro n hlow hhigh
    rw [UInt8.toNat_ofNat_of_lt' hhigh]
    exact hlow
  unfold String.utf8EncodeChar at hb
  rw [if_neg (by omega)] at hb
  -- every byte is a mark and a remainder of the number of the character
  split at hb
  · simp only [List.mem_cons, List.not_mem_nil, or_false] at hb
    rcases hb with rfl | rfl
    all_goals exact hmark _ (by omega) (by omega)
  · split at hb
    · simp only [List.mem_cons, List.not_mem_nil, or_false] at hb
      rcases hb with rfl | rfl | rfl
      all_goals exact hmark _ (by omega) (by omega)
    · simp only [List.mem_cons, List.not_mem_nil, or_false] at hb
      rcases hb with rfl | rfl | rfl | rfl
      all_goals exact hmark _ (by omega) (by omega)

theorem isAscii_of_encode {cs : List Char} (h : ∀ b ∈ encode cs, b.toNat < 128) :
    ∀ c ∈ cs, c.toNat < 128 := by
  intro c hc
  rcases Nat.lt_or_ge c.toNat 128 with hsmall | hlarge
  · exact hsmall
  · obtain ⟨b, hb⟩ := List.exists_mem_of_ne_nil _ (String.utf8EncodeChar_ne_nil (c := c))
    have hbyte := le_of_mem_encodeChar hlarge hb
    exact absurd (h b (List.mem_flatMap.mpr ⟨c, hc, hb⟩)) (Nat.not_lt.mpr hbyte)

/-- Small bytes at the front of a text are characters at its front. -/
theorem exists_chars_of_encode {cs : List Char} {front behind : Bytes}
    (h : encode cs = front ++ behind) (hfront : ∀ b ∈ front, b.toNat < 128) :
    ∃ rest, cs = front.map Char.ofUInt8 ++ rest ∧ encode rest = behind := by
  induction front generalizing cs with
  | nil => exact ⟨cs, rfl, h⟩
  | cons b front ih =>
    obtain ⟨hb, hfront⟩ := List.forall_mem_cons.mp hfront
    cases cs with
    | nil => cases h
    | cons c cs =>
      rw [encode_cons] at h
      rcases Nat.lt_or_ge c.toNat 128 with hsmall | hlarge
      · rw [encodeChar_of_ascii hsmall] at h
        obtain ⟨hcode, h⟩ := List.cons.inj h
        obtain ⟨rest, rfl, hrest⟩ := ih h hfront
        refine ⟨rest, ?_, hrest⟩
        rw [← hcode, List.map_cons, List.cons_append, ofUInt8_code hsmall]
      · -- all bytes of such a character are large, and the first of them stands in front
        obtain ⟨first, others, hbytes⟩ :=
          List.exists_cons_of_ne_nil (String.utf8EncodeChar_ne_nil (c := c))
        rw [hbytes] at h
        have hfirst := le_of_mem_encodeChar hlarge (hbytes ▸ List.mem_cons_self)
        rw [(List.cons.inj h).1] at hfirst
        exact absurd hb (Nat.not_lt.mpr hfirst)

/-! ## Positions -/

theorem length_encode_cons (c : Char) (cs : List Char) :
    (encode (c :: cs)).length = c.utf8Size + (encode cs).length := by
  rw [encode_cons, List.length_append, String.length_utf8EncodeChar]

theorem length_encode_concat (cs : List Char) (c : Char) :
    (encode (cs ++ [c])).length = (encode cs).length + c.utf8Size := by
  rw [encode_append, List.length_append, length_encode_cons]
  rfl

theorem positions_append (index : Nat) (cs ds : List Char) :
    positions index (cs ++ ds) =
      positions index cs ++ positions (index + (encode cs).length) ds := by
  induction cs generalizing index with
  | nil => rfl
  | cons c cs ih =>
    rw [List.cons_append, positions, positions, ih, List.cons_append, length_encode_cons,
      Nat.add_assoc]

theorem map_snd_positions (index : Nat) (cs : List Char) :
    (positions index cs).map Prod.snd = cs := by
  induction cs generalizing index with
  | nil => rfl
  | cons c cs ih => rw [positions, List.map_cons, ih]

/-- The characters of a text start at bytes of it. -/
theorem mem_positions {index : Nat} {cs : List Char} {p : Nat × Char}
    (h : p ∈ positions index cs) : index ≤ p.1 ∧ p.1 < index + (encode cs).length := by
  induction cs generalizing index with
  | nil => exact (List.not_mem_nil h).elim
  | cons c cs ih =>
    have hsize := c.utf8Size_pos
    rw [length_encode_cons]
    rcases List.mem_cons.mp h with rfl | hrest
    · exact ⟨Nat.le_refl _, by show index < _; omega⟩
    · have := ih hrest
      omega

/-- **Cuts.** What is cut between two characters is what stands between them. -/
theorem slice_append (front cs behind : List Char) :
    slice (encode front).length (encode (front ++ cs)).length (front ++ cs ++ behind) = cs := by
  have hlen : (encode (front ++ cs)).length = (encode front).length + (encode cs).length := by
    rw [encode_append, List.length_append]
  have hfront : (positions 0 front).filter
      (fun p => (encode front).length ≤ p.1 ∧ p.1 < (encode (front ++ cs)).length) = [] := by
    rw [List.filter_eq_nil_iff]
    intro p hp
    have := mem_positions hp
    simp only [decide_eq_true_eq]
    omega
  have hmiddle : (positions (0 + (encode front).length) cs).filter
      (fun p => (encode front).length ≤ p.1 ∧ p.1 < (encode (front ++ cs)).length) =
      positions (0 + (encode front).length) cs := by
    rw [List.filter_eq_self]
    intro p hp
    have := mem_positions hp
    simp only [decide_eq_true_eq]
    omega
  have hbehind : (positions (0 + (encode (front ++ cs)).length) behind).filter
      (fun p => (encode front).length ≤ p.1 ∧ p.1 < (encode (front ++ cs)).length) = [] := by
    rw [List.filter_eq_nil_iff]
    intro p hp
    have := mem_positions hp
    simp only [decide_eq_true_eq]
    omega
  rw [slice, positions_append, positions_append, List.filter_append, List.filter_append, hfront,
    hmiddle, hbehind, List.nil_append, List.append_nil, map_snd_positions]

end Utf8

end ChainClient
