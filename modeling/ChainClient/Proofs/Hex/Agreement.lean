import ChainClient.Proofs.Hex

/-!
# `ChainClient.Proofs.Hex.Agreement` — the readers of hexadecimal side by side

There is one check for digits and three readers: of bare digits, which stops without a word; of any
text, which skips a mark and completes an odd digit; and of marked texts, which says where a text
goes wrong. They look at bytes, a text has characters, and a character may have several bytes. All
of them see the same digits all the same.

## Contents
- **Pairs of digits.** `IsPaired` is what the check accepts (`isHex_iff`), and what bytes are
  written as in letters of any case (`isPaired_iff`).
- **Bare digits.** `exists_pairedFront_bare`: the reader of bare digits reads the longest front of a
  text that is pairs of digits, an `IsPairedFront`.
- **Marked texts.** `decodeMarked_append_iff`, and `toList_marked_of_decodeMarked` for what is
  written again.
- **Faults.** `StopsAt`: the first byte that is no digit. `decodeMarked_eq_error_iff`: it is the one
  that the strict reader reports.
- **Agreement.** `readers_agree`.
-/

namespace ChainClient

namespace Hex

/-! ## Pairs of digits -/

/-- **Pairs of digits.** An even number of digits, in letters of any case, and nothing else. -/
def IsPaired (cs : List Char) : Prop :=
  cs.length % 2 = 0 ∧ ∀ c ∈ cs, (Numeral.digit? 16 c).isSome = true

instance (cs : List Char) : Decidable (IsPaired cs) := inferInstanceAs (Decidable (_ ∧ _))

theorem IsPaired.ascii {cs : List Char} (h : IsPaired cs) : ∀ c ∈ cs, c.toNat < 128 :=
  fun c hc => toNat_lt_of_digit? (h.2 c hc)

/-- The check counts bytes. -/
theorem isHex_iff {s : String} : isHex s = true ↔ IsPaired s.toList := by
  rw [isHex, Bool.and_eq_true, beq_iff_eq, List.all_eq_true, Utf8.bytes, forall_isDigit_encode_iff]
  refine and_congr_left fun hdigits => ?_
  rw [Utf8.encode_of_ascii fun c hc => toNat_lt_of_digit? (hdigits c hc), List.length_map]

/-- **Pairs of digits spell bytes**, and nothing else does. -/
theorem isPaired_iff {cs : List Char} : IsPaired cs ↔ ∃ bs, cs.map Char.toLower = encode bs := by
  constructor
  · intro h
    obtain ⟨front, behind, hsplit, hfront, -, hbehind⟩ := exists_front_of_pairs (Utf8.encode cs)
    have hdigits := forall_isDigit_encode_iff.mpr h.2
    have hlength := congrArg List.length hsplit
    rw [Utf8.encode_of_ascii h.ascii, List.length_map, List.length_append] at hlength
    have hpairs := congrArg List.length hfront
    rw [List.length_map, length_encode] at hpairs
    have hnil : behind = [] := by
      rcases hbehind with hshort | ⟨b, hb, hnot⟩
      · have heven := h.1
        exact List.length_eq_zero_iff.mp (by omega)
      · have hmem : b ∈ Utf8.encode cs :=
          hsplit ▸ List.mem_append_right front (List.mem_of_mem_take hb)
        rw [hdigits b hmem] at hnot
        cases hnot
    rw [hnil, List.append_nil] at hsplit
    exact ⟨_, by rw [← map_smallChar_encode h.ascii, hsplit, hfront]⟩
  · rintro ⟨bs, h⟩
    constructor
    · rw [← List.length_map, h, length_encode]
      exact Nat.mul_mod_right 2 _
    · intro c hc
      exact isSome_digit?_iff.mpr (exists_digit_of_mem_encode (h ▸ List.mem_map_of_mem hc))

/-! ## Bare digits -/

/-- **The longest front of a text that is pairs of digits.** -/
structure IsPairedFront (cs front : List Char) : Prop where
  starts : front <+: cs
  isPaired : IsPaired front
  longest : ∀ other, other <+: cs → IsPaired other → other.length ≤ front.length

/-- A front of pairs ends where no further pair follows. -/
theorem isPairedFront_of_behind {front behind : List Char} (hfront : IsPaired front)
    (hbehind : (Utf8.encode behind).length < 2 ∨
      ∃ b ∈ (Utf8.encode behind).take 2, isDigit b = false) :
    IsPairedFront (front ++ behind) front where
  starts := List.prefix_append front behind
  isPaired := hfront
  longest := by
    intro other hstarts hother
    by_contra hlonger
    have hlonger := Nat.lt_of_not_le hlonger
    -- what a longer front has more is at least a pair of digits
    obtain ⟨more, rfl⟩ := List.prefix_of_prefix_length_le (List.prefix_append front behind) hstarts
      (Nat.le_of_lt hlonger)
    obtain ⟨rest, rfl⟩ := (List.prefix_append_right_inj front).mp hstarts
    have hdigits : ∀ c ∈ more, (Numeral.digit? 16 c).isSome = true :=
      fun c hc => hother.2 c (List.mem_append_right front hc)
    have hbytes : Utf8.encode more = more.map fun c => UInt8.ofNat c.toNat :=
      Utf8.encode_of_ascii fun c hc => toNat_lt_of_digit? (hdigits c hc)
    have hpair : 2 ≤ (Utf8.encode more).length := by
      have heven := hfront.1
      have heven' := hother.1
      rw [List.length_append] at heven' hlonger
      rw [hbytes, List.length_map]
      omega
    rw [Utf8.encode_append, List.take_append_of_le_length hpair, List.length_append] at hbehind
    rcases hbehind with hshort | ⟨b, hb, hnot⟩
    · omega
    · rw [forall_isDigit_encode_iff.mpr hdigits b (List.mem_of_mem_take hb)] at hnot
      cases hnot

/-- **Bare digits.** What is read is the longest front of pairs. -/
theorem exists_pairedFront_bare (s : String) :
    ∃ front, IsPairedFront s.toList front ∧ front.map Char.toLower = encode (bare s) := by
  obtain ⟨front, behind, hsplit, hfront, hdigits, hbehind⟩ := exists_front_of_pairs (Utf8.bytes s)
  have hascii : ∀ b ∈ front, b.toNat < 128 := fun b hb =>
    toNat_lt_of_digit? ((isDigit_eq_isSome b).symm.trans (hdigits b hb))
  obtain ⟨rest, hs, hrest⟩ := Utf8.exists_chars_of_encode hsplit hascii
  have hread : (front.map Char.ofUInt8).map Char.toLower = encode (bare s) := by
    rw [List.map_map]
    exact hfront
  refine ⟨front.map Char.ofUInt8, ?_, hread⟩
  rw [hs]
  exact isPairedFront_of_behind (isPaired_iff.mpr ⟨_, hread⟩) (hrest ▸ hbehind)

/-! ## Marked texts -/

theorem isMarked_append_iff {s : String} {bs : Bytes} :
    IsMarked ("0x" ++ s) bs ↔ s.toList.map Char.toLower = encode bs := by
  have hs : ("0x" ++ s).toList = '0' :: 'x' :: s.toList := String.toList_append
  constructor
  · rintro ⟨mark, digits, hlist, -, hdigits⟩
    rw [hs] at hlist
    cases hlist
    exact hdigits
  · intro h
    exact ⟨'x', s.toList, hs, .inl rfl, h⟩

/-- **Behind a mark** pairs of digits are read, and nothing else is. -/
theorem decodeMarked_append_iff {s : String} :
    (∃ bs, decodeMarked ("0x" ++ s) = .ok bs) ↔ isHex s = true := by
  rw [isHex_iff, isPaired_iff]
  exact exists_congr fun bs => decodeMarked_eq_ok_iff.trans isMarked_append_iff

/-- What is read is written again in small letters. -/
theorem toList_marked_of_decodeMarked {s : String} {bs : Bytes} (h : decodeMarked s = .ok bs) :
    (marked bs).toList = '0' :: 'x' :: (s.toList.drop 2).map Char.toLower := by
  obtain ⟨mark, digits, hs, -, hdigits⟩ := decodeMarked_eq_ok_iff.mp h
  rw [marked, String.toList_ofList, hs]
  exact congrArg (fun cs => '0' :: 'x' :: cs) hdigits.symm

/-! ## Faults -/

/-- **The first byte that is no digit** is `b`, and stands behind `n` digits. -/
structure StopsAt (digits : Bytes) (n : Nat) (b : UInt8) : Prop where
  getElem?_eq : digits[n]? = some b
  not_isDigit : isDigit b = false
  before : ∀ c ∈ digits.take n, isDigit c = true

theorem not_stopsAt_nil {n : Nat} {b : UInt8} : ¬ StopsAt [] n b := by
  rintro ⟨hget, -, -⟩
  cases hget

theorem stopsAt_cons_of_not {high : UInt8} {rest : Bytes} {n : Nat} {b : UInt8}
    (h : isDigit high = false) : StopsAt (high :: rest) n b ↔ n = 0 ∧ b = high := by
  constructor
  · rintro ⟨hget, -, hbefore⟩
    cases n with
    | zero => exact ⟨rfl, (Option.some.inj hget).symm⟩
    | succ n =>
      rw [hbefore high List.mem_cons_self] at h
      cases h
  · rintro ⟨rfl, rfl⟩
    exact ⟨rfl, h, List.forall_mem_nil _⟩

theorem stopsAt_cons_of_digit {high : UInt8} {rest : Bytes} {n : Nat} {b : UInt8}
    (h : isDigit high = true) :
    StopsAt (high :: rest) n b ↔ ∃ m, n = m + 1 ∧ StopsAt rest m b := by
  constructor
  · rintro ⟨hget, hnot, hbefore⟩
    cases n with
    | zero =>
      rw [← Option.some.inj hget, h] at hnot
      cases hnot
    | succ n => exact ⟨n, rfl, hget, hnot, fun c hc => hbefore c (List.mem_cons_of_mem high hc)⟩
  · rintro ⟨m, rfl, hget, hnot, hbefore⟩
    exact ⟨hget, hnot, List.forall_mem_cons.mpr ⟨h, hbefore⟩⟩

/-- A pair of digits is passed over. -/
theorem stopsAt_cons_cons {high low h l : UInt8} {rest : Bytes} {n : Nat} {b : UInt8}
    (hhigh : digit? high = some h) (hlow : digit? low = some l) :
    StopsAt (high :: low :: rest) n b ↔ ∃ m, n = m + 2 ∧ StopsAt rest m b := by
  have hdigit := isDigit_of_some hlow
  rw [stopsAt_cons_of_digit (isDigit_of_some hhigh)]
  constructor
  · rintro ⟨m, rfl, hstop⟩
    obtain ⟨k, rfl, hrest⟩ := (stopsAt_cons_of_digit hdigit).mp hstop
    exact ⟨k, rfl, hrest⟩
  · rintro ⟨k, rfl, hstop⟩
    exact ⟨k + 1, rfl, (stopsAt_cons_of_digit hdigit).mpr ⟨k, rfl, hstop⟩⟩

/-- **The reader's fault** is the first byte that is no digit. -/
theorem decodeFrom_eq_error_iff {digits : Bytes} (heven : digits.length % 2 = 0) (position : Nat)
    {fault : DigitFault} :
    decodeFrom position digits = .error fault ↔
      ∃ n b, StopsAt digits n b ∧ fault = .notDigit b (position + n) := by
  fun_induction decodeFrom position digits generalizing fault with
  | case1 position high low rest hhigh =>
    simp only [stopsAt_cons_of_not (isDigit_of_none hhigh), Except.error.injEq]
    constructor
    · rintro rfl
      exact ⟨0, high, ⟨rfl, rfl⟩, rfl⟩
    · rintro ⟨n, b, ⟨rfl, rfl⟩, rfl⟩
      rfl
  | case2 position high low rest h hlow hhigh =>
    simp only [stopsAt_cons_of_digit (isDigit_of_some hhigh),
      stopsAt_cons_of_not (isDigit_of_none hlow), Except.error.injEq]
    constructor
    · rintro rfl
      exact ⟨1, low, ⟨0, rfl, rfl, rfl⟩, rfl⟩
    · rintro ⟨n, b, ⟨m, rfl, rfl, rfl⟩, rfl⟩
      rfl
  | case3 position high low rest h l hlow hhigh bs hrest ih =>
    have heven' : rest.length % 2 = 0 := by
      rw [List.length_cons, List.length_cons] at heven
      omega
    constructor
    · intro herror
      cases herror
    · rintro ⟨n, b, hstop, -⟩
      obtain ⟨m, -, hstop⟩ := (stopsAt_cons_cons hhigh hlow).mp hstop
      cases hrest.symm.trans ((ih heven').mpr ⟨m, b, hstop, rfl⟩)
  | case4 position high low rest h l hlow hhigh fault' hrest ih =>
    have heven' : rest.length % 2 = 0 := by
      rw [List.length_cons, List.length_cons] at heven
      omega
    rw [← hrest, ih heven']
    simp only [stopsAt_cons_cons hhigh hlow]
    constructor
    · rintro ⟨m, b, hstop, rfl⟩
      exact ⟨m + 2, b, ⟨m, rfl, hstop⟩, by rw [Nat.add_assoc, Nat.add_comm 2 m]⟩
    · rintro ⟨n, b, ⟨m, rfl, hstop⟩, rfl⟩
      exact ⟨m, b, hstop, by rw [Nat.add_assoc, Nat.add_comm 2 m]⟩
  | case5 digits position hshort =>
    have hnil : digits = [] := by
      cases digits with
      | nil => rfl
      | cons high rest =>
        cases rest with
        | nil => cases heven
        | cons low rest => exact (hshort high low rest rfl).elim
    constructor
    · intro herror
      cases herror
    · rintro ⟨n, b, hstop, -⟩
      exact absurd (hnil ▸ hstop) not_stopsAt_nil

theorem decode_eq_error_notDigit_iff {digits : Bytes} {b : UInt8} {n : Nat} :
    decode digits = .error (.notDigit b n) ↔ digits.length % 2 = 0 ∧ StopsAt digits n b := by
  unfold decode
  split
  · next hodd =>
    constructor
    · intro h
      cases h
    · rintro ⟨heven, -⟩
      omega
  · next heven =>
    have heven : digits.length % 2 = 0 := by omega
    rw [decodeFrom_eq_error_iff heven, and_iff_right heven]
    constructor
    · rintro ⟨m, c, hstop, h⟩
      rw [Nat.zero_add] at h
      cases h
      exact hstop
    · intro hstop
      exact ⟨n, b, hstop, by rw [Nat.zero_add]⟩

/-- A mark has two bytes. -/
theorem bytes_of_hasMark {s : String} (h : hasMark s.toList = true) :
    (Utf8.bytes s).drop 2 = Utf8.encode (s.toList.drop 2) ∧
      (Utf8.bytes s).length = (Utf8.encode (s.toList.drop 2)).length + 2 := by
  obtain ⟨mark, digits, hs, rfl | rfl⟩ := hasMark_iff.mp h
  · rw [Utf8.bytes, hs]
    exact ⟨rfl, rfl⟩
  · rw [Utf8.bytes, hs]
    exact ⟨rfl, rfl⟩

/-- **Invalid characters.** The byte that is reported is the first one behind the mark that is no
    digit, and the position is its own in the whole text. -/
theorem decodeMarked_eq_error_iff {s : String} {b : UInt8} {i : Nat} :
    decodeMarked s = .error (.invalidCharacter b i) ↔
      hasMark s.toList = true ∧ (Utf8.bytes s).length % 2 = 0 ∧
        ∃ n, i = n + 2 ∧ StopsAt ((Utf8.bytes s).drop 2) n b := by
  unfold decodeMarked
  split
  · next hnil =>
    rw [hnil]
    exact iff_of_false (fun h => nomatch h) fun h => Bool.false_ne_true h.1
  · split
    · next hmark =>
      obtain ⟨hdrop, hlength⟩ := bytes_of_hasMark hmark
      rw [and_iff_right hmark, hdrop, hlength, Nat.add_mod_right]
      constructor
      · intro h
        cases hdecode : decode (Utf8.encode (s.toList.drop 2)) with
        | ok bs =>
          rw [hdecode] at h
          cases h
        | error fault =>
          rw [hdecode] at h
          cases fault with
          | oddCount => cases h
          | notDigit c n =>
            cases h
            obtain ⟨heven, hstop⟩ := decode_eq_error_notDigit_iff.mp hdecode
            exact ⟨heven, n, rfl, hstop⟩
      · rintro ⟨heven, n, rfl, hstop⟩
        rw [decode_eq_error_notDigit_iff.mpr ⟨heven, hstop⟩]
        rfl
    · next hmark => exact iff_of_false (fun h => nomatch h) fun h => hmark h.1

/-! ## Agreement -/

/-- **The readers agree.** What is written is read back by the strict reader and by the lossy one.
    Bare digits are read to the end of their longest front of pairs. Behind a mark the strict reader
    takes just what the check accepts; where it takes a text, the lossy reader gives the same bytes,
    and they are written as that text in small letters behind `0x`. And where it reports a
    character, it is the one with the code of the first byte behind the mark that is no digit. -/
theorem readers_agree :
    (∀ bs, decodeMarked (marked bs) = .ok bs ∧ lossy (marked bs) = bs) ∧
    (∀ s, ∃ front, IsPairedFront s.toList front ∧ front.map Char.toLower = encode (bare s)) ∧
    (∀ s, (isHex s = true ↔ IsPaired s.toList) ∧
      ((∃ bs, decodeMarked ("0x" ++ s) = .ok bs) ↔ isHex s = true)) ∧
    (∀ s bs, decodeMarked s = .ok bs →
      lossy s = bs ∧ (marked bs).toList = '0' :: 'x' :: (s.toList.drop 2).map Char.toLower) ∧
    ∀ s b i,
      (decodeMarked s = .error (.invalidCharacter b i) ↔
        hasMark s.toList = true ∧ (Utf8.bytes s).length % 2 = 0 ∧
          ∃ n, i = n + 2 ∧ StopsAt ((Utf8.bytes s).drop 2) n b) ∧
      (Error.invalidCharacter b i).message =
        "invalid hex character " ++ Text.quotedChar (Char.ofNat b.toNat) ++ " at position "
          ++ i.repr := by
  refine ⟨fun bs => ⟨decodeMarked_eq_ok_iff.mpr (isMarked_marked bs), lossy_marked bs⟩,
    exists_pairedFront_bare, fun s => ⟨isHex_iff, decodeMarked_append_iff⟩, fun s bs h => ?_,
    fun s b i => ⟨decodeMarked_eq_error_iff, ?_⟩⟩
  · exact ⟨lossy_eq_of_isMarked (decodeMarked_eq_ok_iff.mp h), toList_marked_of_decodeMarked h⟩
  · have hchar : Char.ofNat b.toNat = Char.ofUInt8 b := Char.ofNat_toNat (Char.ofUInt8 b)
    rw [hchar]
    rfl

/-- A capital mark and digits of either case; and a character of two bytes, of which the first is
    reported. -/
theorem readers_agree_of_accent :
    decodeMarked "0XaB" = .ok [0xAB] ∧ lossy "0XaB" = [0xAB] ∧
      (marked [0xAB]).toList = ['0', 'x', 'a', 'b'] ∧
      decodeMarked "0xa1é" = .error (.invalidCharacter 0xC3 4) := by
  have hread : decodeMarked "0XaB" = .ok [0xAB] := by decide
  obtain ⟨-, -, -, hagree, hfault⟩ := readers_agree
  obtain ⟨hlossy, hwritten⟩ := hagree "0XaB" [0xAB] hread
  refine ⟨hread, hlossy, hwritten, ((hfault _ _ _).1).mpr ⟨by decide, by decide, 2, rfl, ?_⟩⟩
  exact ⟨by decide, by decide, List.all_eq_true.mp (by decide)⟩

end Hex

end ChainClient
