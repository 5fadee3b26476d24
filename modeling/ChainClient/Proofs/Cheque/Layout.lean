import ChainClient.Cheque.Binary
import ChainClient.Proofs.Bytes.Width
import ChainClient.Proofs.Outcome

/-!
# `ChainClient.Proofs.Cheque.Layout` — which bytes are a cheque

The layout of a cheque is stated here apart from the program that reads it: the parts stand one
after the other, and the first of them has three forms. Reading is then one law: it takes a front of
the bytes that is laid out as its result, and leaves the rest.

## Contents
- **Steps.** One law a reader, from `take_eq_ok_iff` to `readAmount_eq_ok_iff`: what it takes is the
  spelling of what it returns.
- **Layout.** `Cheque.IsOrigin` and `Cheque.IsLayout`; `ofBytes_eq_ok_iff` ties them to the reader.
- **Plain form.** `toBytes` writes a layout of the cheque without metadata (`exists_toBytes`), which
  reads back (`ofBytes_of_toBytes`), and no layout is shorter (`length_le_of_isLayout`).
  `toBytes_plain_form` puts this together.
-/

namespace ChainClient

namespace Cheque

/-! ## Steps -/

/-- The next `n` bytes are a front of the bytes, of that length. -/
theorem take_eq_ok_iff {part : ChequePart} {n : Nat} {bs front rest : Bytes} :
    (take part n).run bs = .ok (front, rest) ↔ bs = front ++ rest ∧ front.length = n := by
  show (if bs.length < n then _ else _) = _ ↔ _
  split
  · next hshort =>
    constructor
    · intro h
      cases h
    · rintro ⟨rfl, hlen⟩
      rw [List.length_append] at hshort
      omega
  · next hlong =>
    constructor
    · intro h
      cases h
      exact ⟨(List.take_append_drop n bs).symm, List.length_take_of_le (by omega)⟩
    · rintro ⟨rfl, rfl⟩
      rw [List.take_left, List.drop_left]

/-- **Parts of fixed width.** A part that is read by `f` from `n` bytes, and spelled by `g` in as
    many without loss, is read from its spelling and from nothing else. -/
theorem part_eq_ok_iff {α : Type} (f : Bytes → α) (g : α → Bytes) {n : Nat}
    (hread : ∀ a, f (g a) = a) (hspell : ∀ bs, bs.length = n → g (f bs) = bs)
    (hlen : ∀ a, (g a).length = n) {part : ChequePart} {bs rest : Bytes} {a : α} :
    (do return f (← take part n) : Reader α).run bs = .ok (a, rest) ↔ bs = g a ++ rest := by
  rw [Outcome.run_bind_eq_ok_iff]
  constructor
  · rintro ⟨front, r, htake, hpure⟩
    obtain ⟨rfl, hfront⟩ := take_eq_ok_iff.mp htake
    obtain ⟨rfl, rfl⟩ := Outcome.run_pure_eq_ok_iff.mp hpure
    rw [hspell front hfront]
  · rintro rfl
    exact ⟨g a, rest, take_eq_ok_iff.mpr ⟨rfl, hlen a⟩,
      Outcome.run_pure_eq_ok_iff.mpr ⟨hread a, rfl⟩⟩

theorem readByte_eq_ok_iff {part : ChequePart} {bs rest : Bytes} {b : UInt8} :
    (readByte part).run bs = .ok (b, rest) ↔ bs = b :: rest := by
  have hread : ∀ b : UInt8, UInt8.ofNat (Bytes.value [b]) = b := by
    intro b
    simp [Bytes.value]
  refine part_eq_ok_iff _ (fun b => [b]) hread ?_ (fun b => rfl)
  intro bs hbs
  obtain ⟨c, rfl⟩ := List.length_eq_one_iff.mp hbs
  rw [hread]

theorem readUInt32_eq_ok_iff {part : ChequePart} {bs rest : Bytes} {n : UInt32} :
    (readUInt32 part).run bs = .ok (n, rest) ↔ bs = Bytes.ofNat 4 n.toNat ++ rest := by
  have hread : ∀ n : UInt32, UInt32.ofNat (Bytes.value (Bytes.ofNat 4 n.toNat)) = n := by
    intro n
    have hlt : n.toNat < 256 ^ 4 := n.toNat_lt
    rw [Bytes.value_ofNat_of_lt hlt, UInt32.ofNat_toNat]
  refine part_eq_ok_iff _ (fun n : UInt32 => Bytes.ofNat 4 n.toNat) hread ?_
    (fun n => Bytes.length_ofNat 4 _)
  intro bs hbs
  have hlt : Bytes.value bs < 256 ^ 4 := Bytes.value_lt_of_length hbs
  exact Bytes.ofNat_of_value_eq hbs (UInt32.toNat_ofNat_of_lt' hlt)

theorem readUInt64_eq_ok_iff {part : ChequePart} {bs rest : Bytes} {n : UInt64} :
    (readUInt64 part).run bs = .ok (n, rest) ↔ bs = Bytes.ofNat 8 n.toNat ++ rest := by
  have hread : ∀ n : UInt64, UInt64.ofNat (Bytes.value (Bytes.ofNat 8 n.toNat)) = n := by
    intro n
    have hlt : n.toNat < 256 ^ 8 := n.toNat_lt
    rw [Bytes.value_ofNat_of_lt hlt, UInt64.ofNat_toNat]
  refine part_eq_ok_iff _ (fun n : UInt64 => Bytes.ofNat 8 n.toNat) hread ?_
    (fun n => Bytes.length_ofNat 8 _)
  intro bs hbs
  have hlt : Bytes.value bs < 256 ^ 8 := Bytes.value_lt_of_length hbs
  exact Bytes.ofNat_of_value_eq hbs (UInt64.toNat_ofNat_of_lt' hlt)

theorem readAddress_eq_ok_iff {part : ChequePart} {bs rest : Bytes} {a : Address} :
    (readAddress part).run bs = .ok (a, rest) ↔ bs = a.bytes ++ rest :=
  part_eq_ok_iff _ _ Address.fit_bytes (fun _ => Address.bytes_fit_of_length) Address.length_bytes

/-- **Amounts.** The bytes of an amount spell it, whatever number of zeros stands in front. -/
theorem amountOf_eq_ok_iff {bs : Bytes} {amount : Word} :
    amountOf bs = .ok amount ↔ Bytes.value bs = amount.toNat := by
  unfold amountOf
  simp only
  have hvalue := Bytes.value_dropWhile_zero bs
  split
  · next hlong =>
    constructor
    · intro h
      cases h
    · intro h
      -- the first byte that counts is not zero, so more than 32 of them pass a word
      exfalso
      cases hcount : bs.dropWhile (· == 0) with
      | nil =>
        rw [hcount] at hlong
        simp at hlong
      | cons b rest =>
        have hb : b ≠ 0 := by
          have := List.head_dropWhile_not (· == (0 : UInt8)) (l := bs) (by simp [hcount])
          simpa [hcount] using this
        have hlt : Bytes.value (b :: rest) < 256 ^ 32 := by
          rw [← hcount, hvalue, h]
          exact amount.isLt
        have := Bytes.length_le_of_value_lt hb hlt
        rw [hcount] at hlong
        omega
  · next hshort =>
    have hlt : Bytes.value (bs.dropWhile (· == 0)) < 2 ^ 256 := by
      calc Bytes.value (bs.dropWhile (· == 0))
          < 256 ^ (bs.dropWhile (· == 0)).length := Bytes.value_lt _
        _ ≤ 256 ^ 32 := Nat.pow_le_pow_right (by decide) (by omega)
        _ = 2 ^ 256 := by decide
    have hword : (Word.ofBytes (bs.dropWhile (· == 0))).toNat = Bytes.value bs := by
      rw [Word.ofBytes, BitVec.toNat_ofNat, Nat.mod_eq_of_lt hlt, hvalue]
    constructor
    · intro h
      cases h
      exact hword.symm
    · intro h
      exact congrArg Except.ok (BitVec.eq_of_toNat_eq (hword.trans h))

/-- **The spelling of an amount**: a byte that counts, and as many bytes with the value of the
    amount. -/
def IsAmount (amount : Word) (bs : Bytes) : Prop :=
  ∃ spelled : Bytes, spelled.length < 256 ∧ Bytes.value spelled = amount.toNat ∧
    bs = UInt8.ofNat spelled.length :: spelled

theorem readAmount_eq_ok_iff {bs rest : Bytes} {amount : Word} :
    readAmount.run bs = .ok (amount, rest) ↔
      ∃ front, IsAmount amount front ∧ bs = front ++ rest := by
  unfold readAmount
  rw [Outcome.run_bind_eq_ok_iff]
  constructor
  · rintro ⟨length, r, hlength, h⟩
    obtain rfl := readByte_eq_ok_iff.mp hlength
    obtain ⟨spelled, r', htake, hamount⟩ := Outcome.run_bind_eq_ok_iff.mp h
    obtain ⟨rfl, hlen⟩ := take_eq_ok_iff.mp htake
    obtain ⟨value, hvalue, hpure⟩ := Outcome.bind_eq_ok_iff.mp hamount
    cases hpure
    refine ⟨UInt8.ofNat spelled.length :: spelled, ⟨spelled, ?_, ?_, rfl⟩, ?_⟩
    · rw [hlen]
      exact length.toNat_lt
    · exact amountOf_eq_ok_iff.mp hvalue
    · rw [hlen, UInt8.ofNat_toNat]
      rfl
  · rintro ⟨front, ⟨spelled, hlen, hvalue, rfl⟩, rfl⟩
    refine ⟨UInt8.ofNat spelled.length, spelled ++ rest, readByte_eq_ok_iff.mpr rfl, ?_⟩
    rw [UInt8.toNat_ofNat_of_lt' hlen, Outcome.run_bind_eq_ok_iff]
    refine ⟨spelled, rest, take_eq_ok_iff.mpr ⟨rfl, rfl⟩, ?_⟩
    exact Outcome.bind_eq_ok_iff.mpr ⟨amount, amountOf_eq_ok_iff.mpr hvalue, rfl⟩

/-! ## Layout -/

/-- **The front of a cheque**: the chain it comes from, alone or behind metadata of one of two
    versions, which four zeros announce. -/
inductive IsOrigin (chain : UInt32) : Option Metadata → Bytes → Prop where
  | plain (h : chain ≠ reservedChain) : IsOrigin chain none (Bytes.ofNat 4 chain.toNat)
  | version0 : IsOrigin chain (some { useLocal := true })
      ([0, 0, 0, 0, 0] ++ Bytes.ofNat 4 chain.toNat)
  | version1 {bs : Bytes} (h : bs.length = 8) : IsOrigin chain (some (metadataOf bs))
      ([0, 0, 0, 0, 1] ++ (bs ++ Bytes.ofNat 4 chain.toNat))

theorem readMetadata_eq_ok_iff {version : UInt8} {metadata : Metadata} {bs rest : Bytes} :
    (readMetadata version).run bs = .ok (metadata, rest) ↔
      version = 0 ∧ metadata = { useLocal := true } ∧ bs = rest ∨
      version = 1 ∧ ∃ front, front.length = 8 ∧ metadata = metadataOf front ∧
        bs = front ++ rest := by
  unfold readMetadata
  split
  · next h0 =>
    rw [Outcome.run_pure_eq_ok_iff]
    subst h0
    constructor
    · rintro ⟨rfl, rfl⟩
      exact .inl ⟨rfl, rfl, rfl⟩
    · rintro (⟨-, rfl, rfl⟩ | ⟨h, -⟩)
      · exact ⟨rfl, rfl⟩
      · exact absurd h (by decide)
  · next h0 =>
    split
    · next h1 =>
      rw [Outcome.run_bind_eq_ok_iff]
      constructor
      · rintro ⟨front, r, htake, hpure⟩
        obtain ⟨rfl, hlen⟩ := take_eq_ok_iff.mp htake
        obtain ⟨rfl, rfl⟩ := Outcome.run_pure_eq_ok_iff.mp hpure
        exact .inr ⟨h1, front, hlen, rfl, rfl⟩
      · rintro (⟨h, -⟩ | ⟨-, front, hlen, rfl, rfl⟩)
        · exact absurd h h0
        · exact ⟨front, rest, take_eq_ok_iff.mpr ⟨rfl, hlen⟩,
            Outcome.run_pure_eq_ok_iff.mpr ⟨rfl, rfl⟩⟩
    · next h1 =>
      constructor
      · intro h
        cases h
      · rintro (⟨h, -⟩ | ⟨h, -⟩)
        · exact absurd h h0
        · exact absurd h h1

theorem ofNat_reservedChain : Bytes.ofNat 4 reservedChain.toNat = [0, 0, 0, 0] := rfl

theorem readOrigin_eq_ok_iff {chain : UInt32} {metadata? : Option Metadata} {bs rest : Bytes} :
    readOrigin.run bs = .ok ((chain, metadata?), rest) ↔
      ∃ front, IsOrigin chain metadata? front ∧ bs = front ++ rest := by
  unfold readOrigin
  rw [Outcome.run_bind_eq_ok_iff]
  constructor
  · rintro ⟨first, r, hfirst, h⟩
    obtain rfl := readUInt32_eq_ok_iff.mp hfirst
    split at h
    · next hreserved =>
      obtain ⟨version, r₁, hversion, h₁⟩ := Outcome.run_bind_eq_ok_iff.mp h
      obtain ⟨metadata, r₂, hmetadata, h₂⟩ := Outcome.run_bind_eq_ok_iff.mp h₁
      obtain ⟨real, r₃, hreal, h₃⟩ := Outcome.run_bind_eq_ok_iff.mp h₂
      obtain ⟨hpair, rfl⟩ := Outcome.run_pure_eq_ok_iff.mp h₃
      obtain ⟨rfl, rfl⟩ := Prod.mk.inj hpair
      rw [readByte_eq_ok_iff.mp hversion, hreserved, ofNat_reservedChain]
      rw [readUInt32_eq_ok_iff.mp hreal] at hmetadata
      rcases readMetadata_eq_ok_iff.mp hmetadata with ⟨rfl, rfl, rfl⟩ | ⟨rfl, front, hlen, rfl, rfl⟩
      · exact ⟨_, .version0, rfl⟩
      · refine ⟨_, .version1 hlen, ?_⟩
        simp only [List.append_assoc]
        rfl
    · next hplain =>
      obtain ⟨hpair, rfl⟩ := Outcome.run_pure_eq_ok_iff.mp h
      obtain ⟨rfl, rfl⟩ := Prod.mk.inj hpair
      exact ⟨_, .plain hplain, rfl⟩
  · rintro ⟨front, horigin, rfl⟩
    cases horigin with
    | plain hplain =>
      refine ⟨chain, rest, readUInt32_eq_ok_iff.mpr rfl, ?_⟩
      rw [if_neg hplain]
      rfl
    | version0 =>
      refine ⟨reservedChain, _, readUInt32_eq_ok_iff.mpr rfl, ?_⟩
      rw [if_pos rfl, Outcome.run_bind_eq_ok_iff]
      refine ⟨0, _, readByte_eq_ok_iff.mpr rfl, Outcome.run_bind_eq_ok_iff.mpr ?_⟩
      refine ⟨_, _, readMetadata_eq_ok_iff.mpr (.inl ⟨rfl, rfl, rfl⟩),
        Outcome.run_bind_eq_ok_iff.mpr ?_⟩
      exact ⟨chain, rest, readUInt32_eq_ok_iff.mpr rfl, rfl⟩
    | @version1 eight hlen =>
      refine ⟨reservedChain, _, readUInt32_eq_ok_iff.mpr rfl, ?_⟩
      rw [if_pos rfl, Outcome.run_bind_eq_ok_iff]
      refine ⟨1, eight ++ (Bytes.ofNat 4 chain.toNat ++ rest), readByte_eq_ok_iff.mpr ?_,
        Outcome.run_bind_eq_ok_iff.mpr ?_⟩
      · exact congrArg (1 :: ·) (List.append_assoc eight _ rest)
      · refine ⟨_, _, readMetadata_eq_ok_iff.mpr (.inr ⟨rfl, eight, hlen, rfl, rfl⟩),
          Outcome.run_bind_eq_ok_iff.mpr ?_⟩
        exact ⟨chain, rest, readUInt32_eq_ok_iff.mpr rfl, rfl⟩

/-- **The layout of a cheque.** -/
def IsLayout (cheque : Cheque) (bs : Bytes) : Prop :=
  ∃ origin amount, IsOrigin cheque.fromChain cheque.metadata? origin ∧
    IsAmount cheque.amount amount ∧
    bs = origin ++ cheque.fromAddress.bytes ++ Bytes.ofNat 8 cheque.nonce.toNat
      ++ Bytes.ofNat 4 cheque.toChain.toNat ++ cheque.toAddress.bytes
      ++ Bytes.ofNat 8 cheque.expireHeight.toNat ++ amount

/-- **Reading.** A cheque is read from a front of the bytes that is laid out as it, and from nothing
    else; what follows is left. -/
theorem read_eq_ok_iff {cheque : Cheque} {bs rest : Bytes} :
    read.run bs = .ok (cheque, rest) ↔ ∃ front, IsLayout cheque front ∧ bs = front ++ rest := by
  unfold read
  rw [Outcome.run_bind_eq_ok_iff]
  constructor
  · rintro ⟨⟨chain, metadata?⟩, r₀, horigin, h₀⟩
    obtain ⟨fromAddress, r₁, hfromAddress, h₁⟩ := Outcome.run_bind_eq_ok_iff.mp h₀
    obtain ⟨nonce, r₂, hnonce, h₂⟩ := Outcome.run_bind_eq_ok_iff.mp h₁
    obtain ⟨toChain, r₃, htoChain, h₃⟩ := Outcome.run_bind_eq_ok_iff.mp h₂
    obtain ⟨toAddress, r₄, htoAddress, h₄⟩ := Outcome.run_bind_eq_ok_iff.mp h₃
    obtain ⟨expireHeight, r₅, hexpireHeight, h₅⟩ := Outcome.run_bind_eq_ok_iff.mp h₄
    obtain ⟨amount, r₆, hamount, h₆⟩ := Outcome.run_bind_eq_ok_iff.mp h₅
    obtain ⟨rfl, rfl⟩ := Outcome.run_pure_eq_ok_iff.mp h₆
    obtain ⟨origin, hfront, rfl⟩ := readOrigin_eq_ok_iff.mp horigin
    obtain ⟨spelled, hspelled, rfl⟩ := readAmount_eq_ok_iff.mp hamount
    refine ⟨_, ⟨origin, spelled, hfront, hspelled, rfl⟩, ?_⟩
    rw [readAddress_eq_ok_iff.mp hfromAddress, readUInt64_eq_ok_iff.mp hnonce,
      readUInt32_eq_ok_iff.mp htoChain, readAddress_eq_ok_iff.mp htoAddress,
      readUInt64_eq_ok_iff.mp hexpireHeight]
    simp only [List.append_assoc]
  · rintro ⟨front, ⟨origin, amount, horigin, hamount, rfl⟩, rfl⟩
    simp only [List.append_assoc]
    refine ⟨_, _, readOrigin_eq_ok_iff.mpr ⟨origin, horigin, rfl⟩,
      Outcome.run_bind_eq_ok_iff.mpr ?_⟩
    refine ⟨_, _, readAddress_eq_ok_iff.mpr rfl, Outcome.run_bind_eq_ok_iff.mpr ?_⟩
    refine ⟨_, _, readUInt64_eq_ok_iff.mpr rfl, Outcome.run_bind_eq_ok_iff.mpr ?_⟩
    refine ⟨_, _, readUInt32_eq_ok_iff.mpr rfl, Outcome.run_bind_eq_ok_iff.mpr ?_⟩
    refine ⟨_, _, readAddress_eq_ok_iff.mpr rfl, Outcome.run_bind_eq_ok_iff.mpr ?_⟩
    refine ⟨_, _, readUInt64_eq_ok_iff.mpr rfl, Outcome.run_bind_eq_ok_iff.mpr ?_⟩
    exact ⟨_, _, readAmount_eq_ok_iff.mpr ⟨amount, hamount, rfl⟩, rfl⟩

theorem ofBytes_eq_ok_iff {cheque : Cheque} {bs : Bytes} :
    ofBytes bs = .ok cheque ↔ ∃ front rest, IsLayout cheque front ∧ bs = front ++ rest := by
  unfold ofBytes
  rw [Outcome.map_eq_ok_iff]
  constructor
  · rintro ⟨⟨read, rest⟩, hread, rfl⟩
    obtain ⟨front, hfront, hbs⟩ := read_eq_ok_iff.mp hread
    exact ⟨front, rest, hfront, hbs⟩
  · rintro ⟨front, rest, hfront, hbs⟩
    exact ⟨(cheque, rest), read_eq_ok_iff.mpr ⟨front, hfront, hbs⟩, rfl⟩

/-! ## Plain form -/

/-- Zeros in place of a chain announce metadata. -/
theorem IsLayout.metadata?_ne_none {cheque : Cheque} {bs : Bytes} (h : IsLayout cheque bs)
    (hchain : cheque.fromChain = reservedChain) : cheque.metadata? ≠ none := by
  obtain ⟨origin, _, horigin, _⟩ := h
  intro hnone
  rw [hnone] at horigin
  cases horigin with
  | plain hplain => exact hplain hchain

theorem length_minimal_amount_le (amount : Word) : amount.minimal.length ≤ 32 := by
  rw [Word.minimal_eq]
  exact (Bytes.length_minimal_le_iff amount.toNat 32).mpr amount.isLt

/-- **Writing.** What is written is a layout of the cheque without its metadata. -/
theorem exists_toBytes {cheque : Cheque} (h : cheque.fromChain ≠ reservedChain) :
    ∃ bs, cheque.toBytes = .ok bs ∧ IsLayout { cheque with metadata? := none } bs := by
  unfold toBytes
  rw [if_neg h]
  refine ⟨_, rfl, Bytes.ofNat 4 cheque.fromChain.toNat,
    UInt8.ofNat cheque.amount.minimal.length :: cheque.amount.minimal, .plain h, ?_, rfl⟩
  have hlen := length_minimal_amount_le cheque.amount
  exact ⟨cheque.amount.minimal, by omega, Word.value_minimal cheque.amount, rfl⟩

/-- What was written reads back, without the metadata. -/
theorem ofBytes_of_toBytes {cheque : Cheque} {bs : Bytes} (h : cheque.toBytes = .ok bs) :
    ofBytes bs = .ok { cheque with metadata? := none } := by
  have hchain : cheque.fromChain ≠ reservedChain := by
    intro hreserved
    rw [toBytes, if_pos hreserved] at h
    cases h
  obtain ⟨bs', hbs', hlayout⟩ := exists_toBytes hchain
  obtain rfl := Except.ok.inj (h.symm.trans hbs')
  exact ofBytes_eq_ok_iff.mpr ⟨bs, [], hlayout, (List.append_nil bs).symm⟩

theorem toBytes_of_reserved {cheque : Cheque} (h : cheque.fromChain = reservedChain) :
    cheque.toBytes = .error (.reservedChain cheque.fromChain) := if_pos h

/-- The amount in minimal form is no longer than any of its spellings. -/
theorem length_minimal_le_of_value {amount : Word} {spelled : Bytes}
    (h : Bytes.value spelled = amount.toNat) : amount.minimal.length ≤ spelled.length := by
  rw [Word.minimal_eq]
  apply (Bytes.length_minimal_le_iff amount.toNat spelled.length).mpr
  rw [← h]
  exact Bytes.value_lt spelled

/-- No front is shorter than the chain alone. -/
theorem IsOrigin.four_le {chain : UInt32} {metadata? : Option Metadata} {origin : Bytes}
    (h : IsOrigin chain metadata? origin) : 4 ≤ origin.length := by
  cases h with
  | plain _ => rw [Bytes.length_ofNat]
  | version0 =>
    rw [List.length_append, Bytes.length_ofNat]
    exact Nat.le_add_left 4 _
  | version1 _ =>
    rw [List.length_append, List.length_append, Bytes.length_ofNat]
    omega

/-- **The shortest layout.** What is written is no longer than any layout of the cheque. -/
theorem length_le_of_isLayout {cheque : Cheque} {bs front : Bytes}
    (hbs : cheque.toBytes = .ok bs) (h : IsLayout cheque front) : bs.length ≤ front.length := by
  obtain ⟨origin, amount, horigin, ⟨spelled, _, hvalue, rfl⟩, rfl⟩ := h
  have hfour := horigin.four_le
  have hminimal := length_minimal_le_of_value hvalue
  unfold toBytes at hbs
  split at hbs
  · cases hbs
  · cases hbs
    simp only [List.length_append, List.length_cons, Bytes.length_ofNat, Address.length_bytes]
    omega

/-- **The plain form.** A cheque from a chain with a number is written and read back without its
    metadata, one from no chain is refused. What was read from bytes of any form, and does come from
    a chain, is written in no more bytes than it was read from. -/
theorem toBytes_plain_form (cheque : Cheque) :
    (cheque.fromChain ≠ 0 →
      ∃ bs, cheque.toBytes = .ok bs ∧ ofBytes bs = .ok { cheque with metadata? := none }) ∧
    (cheque.fromChain = 0 → cheque.toBytes = .error (.reservedChain 0)) ∧
    ∀ data, ofBytes data = .ok cheque →
      (cheque.fromChain ≠ 0 →
        ∃ bs, cheque.toBytes = .ok bs ∧ bs.length ≤ data.length ∧
          ofBytes bs = .ok { cheque with metadata? := none }) ∧
      (cheque.fromChain = 0 →
        cheque.metadata? ≠ none ∧ cheque.toBytes = .error (.reservedChain 0)) := by
  have hwritten : cheque.fromChain ≠ 0 →
      ∃ bs, cheque.toBytes = .ok bs ∧ ofBytes bs = .ok { cheque with metadata? := none } := by
    intro hchain
    obtain ⟨bs, hbs, _⟩ := exists_toBytes hchain
    exact ⟨bs, hbs, ofBytes_of_toBytes hbs⟩
  have hrefused : cheque.fromChain = 0 → cheque.toBytes = .error (.reservedChain 0) := by
    intro hchain
    rw [toBytes_of_reserved hchain, hchain]
  refine ⟨hwritten, hrefused, ?_⟩
  intro data hdata
  obtain ⟨front, rest, hfront, rfl⟩ := ofBytes_eq_ok_iff.mp hdata
  refine ⟨?_, ?_⟩
  · intro hchain
    obtain ⟨bs, hbs, hread⟩ := hwritten hchain
    refine ⟨bs, hbs, ?_, hread⟩
    have hle := length_le_of_isLayout hbs hfront
    rw [List.length_append]
    omega
  · intro hchain
    exact ⟨hfront.metadata?_ne_none hchain, hrefused hchain⟩

/-- A cheque behind metadata, with two zeros in front of its amount and a byte behind it; and one
    from no chain, which only the metadata in front of it makes readable. -/
theorem toBytes_plain_form_of_metadata :
    (∃ cheque bs, ofBytes ([0, 0, 0, 0, 1, 1, 0, 0, 0, 2, 1, 0, 3] ++ [0, 0, 0, 7]
          ++ List.replicate 20 0xAA ++ [0, 0, 0, 0, 0, 0, 0, 5] ++ [0, 0, 0, 9]
          ++ List.replicate 20 0xBB ++ [0, 0, 0, 0, 0, 0, 1, 0] ++ [3, 0, 0, 100] ++ [255]) =
        .ok cheque ∧
      cheque.toBytes = .ok bs ∧ ofBytes bs = .ok { cheque with metadata? := none }) ∧
    ∃ cheque : Cheque, ofBytes ([0, 0, 0, 0, 0] ++ List.replicate 64 0 ++ [1, 100]) = .ok cheque ∧
      cheque.metadata? ≠ none ∧ cheque.toBytes = .error (.reservedChain 0) := by
  constructor
  · obtain ⟨bs, hbs, _, hread⟩ := ((toBytes_plain_form _).2.2
      ([0, 0, 0, 0, 1, 1, 0, 0, 0, 2, 1, 0, 3] ++ [0, 0, 0, 7]
      ++ List.replicate 20 0xAA ++ [0, 0, 0, 0, 0, 0, 0, 5] ++ [0, 0, 0, 9]
      ++ List.replicate 20 0xBB ++ [0, 0, 0, 0, 0, 0, 1, 0] ++ [3, 0, 0, 100] ++ [255]) rfl).1
      (by decide)
    exact ⟨_, bs, rfl, hbs, hread⟩
  · exact ⟨_, rfl, ((toBytes_plain_form _).2.2 ([0, 0, 0, 0, 0] ++ List.replicate 64 0 ++ [1, 100])
      rfl).2 rfl⟩

end Cheque

end ChainClient
