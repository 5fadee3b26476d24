import ChainClient.Json.Source
import ChainClient.Json.Value
import ChainClient.Proofs.Text.Utf8

/-!
# `ChainClient.Proofs.Json.String` — JSON strings, written and read back

The writer escapes quotes, backslashes and controls. Everything else stands for itself, and its
bytes are none that the reader would stop at.

## Contents
- **Readings.** `Reads` says what a reader takes from the front of a byte string and what it leaves.
- **Pieces.** `Spells` says so of the inside of a string. There is a law for each form of a piece.
- **Characters.** `Spells.char`: a character is spelled by its escape.
- **Strings.** `reads_stringBytes`: a string is read back, whatever stands behind it.
-/

namespace ChainClient

namespace JsonSource

/-! ## Readings -/

/-- What a reader takes from the front of a byte string, and what it leaves. -/
def Reads {α : Type} (read : (bs : Bytes) → Option (Reading α bs)) (bs : Bytes) (value : α)
    (rest : Bytes) : Prop :=
  ∃ h, read bs = some ⟨value, rest, h⟩

/-! ## Pieces -/

/-- The inside of a string, which spells bytes, up to the quote that closes it. -/
def Spells (bs bytes rest : Bytes) : Prop :=
  ∃ pieces, Reads readPieces bs pieces rest ∧ pieceBytes? pieces = some bytes

theorem spells_quote (rest : Bytes) : Spells (0x22 :: rest) [] rest :=
  ⟨[], ⟨by simp, rfl⟩, rfl⟩

/-- The bytes of a string that stand for themselves. -/
def PlainByte (b : UInt8) : Prop := 0x20 ≤ b ∧ b ≠ 0x22 ∧ b ≠ 0x5C

theorem Spells.byte {b : UInt8} {bs bytes rest : Bytes} (hb : PlainByte b)
    (h : Spells bs bytes rest) : Spells (b :: bs) (b :: bytes) rest := by
  obtain ⟨pieces, ⟨hlt, hread⟩, hbytes⟩ := h
  obtain ⟨hlow, hquote, hslash⟩ := hb
  refine ⟨.byte b :: pieces, ⟨Nat.lt_succ_of_lt hlt, ?_⟩, ?_⟩
  · have hplain : ¬ (b < 0x20 ∨ b = 0x5C) := by
      rintro (hsmall | heq)
      · exact absurd hsmall (UInt8.not_lt.mpr hlow)
      · exact hslash heq
    rw [readPieces]
    · rw [if_neg hplain, hread]
      rfl
    · exact hquote
    · exact fun _ _ _ _ _ heq => absurd heq hslash
    · exact fun _ _ heq => absurd heq hslash
  · rw [pieceBytes?, hbytes]
    rfl

theorem Spells.append {front bs bytes rest : Bytes} (hfront : ∀ b ∈ front, PlainByte b)
    (h : Spells bs bytes rest) : Spells (front ++ bs) (front ++ bytes) rest := by
  induction front with
  | nil => exact h
  | cons b front ih =>
    have hrest := ih fun c hc => hfront c (List.mem_cons_of_mem b hc)
    exact hrest.byte (hfront b List.mem_cons_self)

/-- A letter behind a backslash. -/
theorem Spells.letter {letter b : UInt8} {bs bytes rest : Bytes}
    (hletter : escapedByte? letter = some b) (hunit : letter ≠ 0x75) (h : Spells bs bytes rest) :
    Spells (0x5C :: letter :: bs) (b :: bytes) rest := by
  obtain ⟨pieces, ⟨hlt, hread⟩, hbytes⟩ := h
  refine ⟨.byte b :: pieces, ⟨?_, ?_⟩, ?_⟩
  · simp only [List.length_cons]
    omega
  · rw [readPieces, hletter, hread]
    · rfl
    · exact fun _ _ _ _ _ heq => absurd heq hunit
  · rw [pieceBytes?, hbytes]
    rfl

/-- A unit that is no half of a pair spells its character, whatever follows. -/
theorem pieceBytes?_unit {code : Nat} (h : code < 0xD800) (pieces : List Piece) :
    pieceBytes? (.unit code :: pieces) =
      (pieceBytes? pieces).map (String.utf8EncodeChar (Char.ofNat code) ++ ·) := by
  have hhigh : isHighSurrogate code = false := by
    have : ¬ 0xD800 ≤ code := by omega
    simp [isHighSurrogate, this]
  have hlow : isLowSurrogate code = false := by
    have : ¬ 0xDC00 ≤ code := by omega
    simp [isLowSurrogate, this]
  -- only a first half looks at what follows it
  cases pieces with
  | nil => simp [pieceBytes?, hhigh, hlow]
  | cons piece pieces =>
    cases piece with
    | byte b => simp [pieceBytes?, hhigh, hlow]
    | unit low => simp only [pieceBytes?, hhigh, hlow, Bool.false_eq_true, if_false]

/-- The number of a unit behind a backslash. -/
theorem Spells.unit {a b c d : UInt8} {code : Nat} {bs bytes rest : Bytes}
    (hunit : unitOf? a b c d = some code) (hcode : code < 0xD800) (h : Spells bs bytes rest) :
    Spells (0x5C :: 0x75 :: a :: b :: c :: d :: bs)
      (String.utf8EncodeChar (Char.ofNat code) ++ bytes) rest := by
  obtain ⟨pieces, ⟨hlt, hread⟩, hbytes⟩ := h
  refine ⟨.unit code :: pieces, ⟨?_, ?_⟩, ?_⟩
  · simp only [List.length_cons]
    omega
  · rw [readPieces, hunit, hread]
    rfl
  · rw [pieceBytes?_unit hcode, hbytes]
    rfl

/-! ## Characters -/

/-- A character that needs no escape. -/
theorem plainByte_of_mem_encodeChar {c : Char} (hlow : 0x20 ≤ c.toNat)
    (hquote : c ≠ Char.ofNat 0x22) (hslash : c ≠ '\\') {b : UInt8}
    (hb : b ∈ String.utf8EncodeChar c) : PlainByte b := by
  simp only [PlainByte, ne_eq, UInt8.le_iff_toNat_le, ← UInt8.toNat_inj]
  by_cases hsmall : c.toNat < 128
  · have hcode : ∀ d : Char, c ≠ d → c.toNat ≠ d.toNat := fun d hne heq =>
      hne (Char.toNat_inj.mp heq)
    have hq := hcode _ hquote
    have hs := hcode _ hslash
    rw [Utf8.encodeChar_of_ascii hsmall, List.mem_singleton] at hb
    subst hb
    rw [UInt8.toNat_ofNat_of_lt' (show c.toNat < 256 by omega)]
    exact ⟨hlow, hq, hs⟩
  · -- the bytes of longer characters are beyond all marks
    have hlarge := Utf8.le_of_mem_encodeChar (Nat.not_lt.mp hsmall) hb
    have hne : ∀ small : UInt8, small.toNat < 128 → b.toNat ≠ small.toNat := fun small hsmall =>
      Nat.ne_of_gt (Nat.lt_of_lt_of_le hsmall hlarge)
    exact ⟨Nat.le_trans (by decide) hlarge, hne 0x22 (by decide), hne 0x5C (by decide)⟩

/-- The two last digits of a control character. -/
theorem unitOf?_control (code : Fin 32) :
    unitOf? 0x30 0x30 (UInt8.ofNat (Nat.digitChar (code / 16)).toNat)
      (UInt8.ofNat (Nat.digitChar (code % 16)).toNat) = some code.val := by
  revert code
  decide

theorem encode_control (code : Fin 32) :
    Utf8.encode ['\\', 'u', '0', '0', Nat.digitChar (code / 16), Nat.digitChar (code % 16)] =
      [0x5C, 0x75, 0x30, 0x30, UInt8.ofNat (Nat.digitChar (code / 16)).toNat,
        UInt8.ofNat (Nat.digitChar (code % 16)).toNat] := by
  revert code
  decide

/-- **One character** of a string, escaped if it has to be. -/
theorem Spells.char (c : Char) {bs bytes rest : Bytes} (h : Spells bs bytes rest) :
    Spells (Utf8.encode (Json.escapeChar c) ++ bs) (String.utf8EncodeChar c ++ bytes) rest := by
  unfold Json.escapeChar
  -- the marks and controls that have a letter of their own, then the other controls
  iterate 7
    split
    · next heq =>
      subst heq
      exact h.letter rfl (by decide)
  split
  · next hcontrol =>
    have hunit := h.unit (unitOf?_control ⟨c.toNat, hcontrol⟩) (Nat.lt_trans hcontrol (by decide))
    rw [Char.ofNat_toNat] at hunit
    rw [encode_control ⟨c.toNat, hcontrol⟩]
    exact hunit
  · next hquote hslash _ _ _ _ _ hcontrol =>
    rw [Utf8.encode_cons, List.append_assoc]
    exact h.append fun b hb => plainByte_of_mem_encodeChar (Nat.not_lt.mp hcontrol) hquote hslash hb

theorem spells_escaped (cs : List Char) (rest : Bytes) :
    Spells (Utf8.encode (cs.flatMap Json.escapeChar) ++ 0x22 :: rest) (Utf8.encode cs) rest := by
  induction cs with
  | nil => exact spells_quote rest
  | cons c cs ih =>
    rw [List.flatMap_cons, Utf8.encode_append, List.append_assoc, Utf8.encode_cons]
    exact ih.char c

/-! ## Strings -/

/-- The bytes of a string behind its opening quote. -/
def stringBytes (s : String) : Bytes := Utf8.encode (s.toList.flatMap Json.escapeChar) ++ [0x22]

theorem encode_renderString (s : String) :
    Utf8.encode (Json.renderString s) = 0x22 :: stringBytes s :=
  Utf8.encode_append (Char.ofNat 0x22 :: s.toList.flatMap Json.escapeChar) [Char.ofNat 0x22]

/-- **Strings** are read back. -/
theorem reads_stringBytes (s : String) (rest : Bytes) :
    Reads readString (stringBytes s ++ rest) (some s) rest := by
  obtain ⟨pieces, ⟨hlt, hread⟩, hbytes⟩ := spells_escaped s.toList rest
  have htext : pieceText? pieces = some s := by
    show (pieceBytes? pieces).bind (fun bs => (Utf8.read bs).toOption) = some s
    rw [hbytes, Option.bind_some, ← Utf8.bytes, Utf8.read_bytes]
    rfl
  rw [stringBytes, List.append_assoc, List.singleton_append]
  refine ⟨hlt, ?_⟩
  rw [readString, hread, Option.map_some, Reading.extend, htext]

end JsonSource

end ChainClient
