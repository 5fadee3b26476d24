import ChainClient.Proofs.Cheque.Layout

/-!
# `ChainClient.Proofs.Cheque.Truncation` — cheques that are cut off

A cheque ends at one byte of the data that holds it. What stands behind that byte does not matter,
and data that end before it are refused with the name of the part in which they end. This holds of
every reader in the chain of readers, so it is stated once for a reader (`Reads`) and carried along
the chain.

## Contents
- **Pieces.** `Piece` is a part with its bytes, `joined` lays pieces end to end, and `partAt?` finds
  the part that a byte belongs to. `IsOriginPieces` and `IsPieces` take a cheque apart.
- **Readers.** `Reads`: the pieces are read whatever follows them, and every cut through them is
  reported. `Reads.bind` is the law of a chain.
- **Cheques.** `reads_read`, and `ofBytes_stable` for data that hold a cheque.
-/

namespace ChainClient

namespace Cheque

/-! ## Pieces -/

/-- A part of a cheque, and the bytes that belong to it. -/
structure Piece where
  /-- The part. -/
  part : ChequePart
  /-- Its bytes. -/
  bytes : Bytes

/-- The bytes of pieces, end to end. -/
def joined (pieces : List Piece) : Bytes := pieces.flatMap Piece.bytes

/-- The part that the byte at a position belongs to. -/
def partAt? : (pieces : List Piece) → (position : Nat) → Option ChequePart
  | [], _ => none
  | piece :: pieces, position =>
    if position < piece.bytes.length then some piece.part
    else partAt? pieces (position - piece.bytes.length)

theorem joined_cons (piece : Piece) (pieces : List Piece) :
    joined (piece :: pieces) = piece.bytes ++ joined pieces := rfl

theorem joined_append (ps qs : List Piece) : joined (ps ++ qs) = joined ps ++ joined qs :=
  List.flatMap_append

theorem partAt?_append_left {ps : List Piece} (qs : List Piece) {j : Nat}
    (h : j < (joined ps).length) : partAt? (ps ++ qs) j = partAt? ps j := by
  induction ps generalizing j with
  | nil => exact absurd h (Nat.not_lt_zero j)
  | cons p ps ih =>
    rw [joined_cons, List.length_append] at h
    rw [List.cons_append, partAt?, partAt?]
    split
    · rfl
    · exact ih (by omega)

theorem partAt?_append_right {ps : List Piece} (qs : List Piece) {j : Nat}
    (h : (joined ps).length ≤ j) : partAt? (ps ++ qs) j = partAt? qs (j - (joined ps).length) := by
  induction ps generalizing j with
  | nil => rfl
  | cons p ps ih =>
    rw [joined_cons, List.length_append] at h
    rw [List.cons_append, partAt?, if_neg (by omega), ih (by omega), joined_cons,
      List.length_append, Nat.sub_sub]

/-- **The pieces in front of a cheque**: the chain it comes from, alone or behind the zeros, the
    version and the metadata of older writers. Version 0 has no bytes of metadata. -/
inductive IsOriginPieces (chain : UInt32) : Option Metadata → List Piece → Prop where
  | plain (h : chain ≠ reservedChain) :
      IsOriginPieces chain none [⟨.fromChain, Bytes.ofNat 4 chain.toNat⟩]
  | version0 : IsOriginPieces chain (some { useLocal := true })
      [⟨.fromChain, [0, 0, 0, 0]⟩, ⟨.version, [0]⟩, ⟨.fromChain, Bytes.ofNat 4 chain.toNat⟩]
  | version1 {bs : Bytes} (h : bs.length = 8) : IsOriginPieces chain (some (metadataOf bs))
      [⟨.fromChain, [0, 0, 0, 0]⟩, ⟨.version, [1]⟩, ⟨.metadata, bs⟩,
        ⟨.fromChain, Bytes.ofNat 4 chain.toNat⟩]

/-- The pieces behind the chain that a cheque comes from, its amount spelled by the given bytes. -/
def piecesBehind (cheque : Cheque) (amount : Bytes) : List Piece :=
  [⟨.fromAddress, cheque.fromAddress.bytes⟩, ⟨.nonce, Bytes.ofNat 8 cheque.nonce.toNat⟩,
    ⟨.toChain, Bytes.ofNat 4 cheque.toChain.toNat⟩, ⟨.toAddress, cheque.toAddress.bytes⟩,
    ⟨.expireHeight, Bytes.ofNat 8 cheque.expireHeight.toNat⟩,
    ⟨.amountLength, [UInt8.ofNat amount.length]⟩, ⟨.amount, amount⟩]

/-- **The pieces of a cheque**, each with its part. -/
def IsPieces (cheque : Cheque) (pieces : List Piece) : Prop :=
  ∃ origin amount, IsOriginPieces cheque.fromChain cheque.metadata? origin ∧
    amount.length < 256 ∧ Bytes.value amount = cheque.amount.toNat ∧
    pieces = origin ++ cheque.piecesBehind amount

theorem IsOrigin.exists_pieces {chain : UInt32} {metadata? : Option Metadata} {origin : Bytes}
    (h : IsOrigin chain metadata? origin) :
    ∃ pieces, IsOriginPieces chain metadata? pieces ∧ joined pieces = origin := by
  cases h with
  | plain hplain => exact ⟨_, .plain hplain, List.append_nil _⟩
  | version0 => exact ⟨_, .version0, by simp [joined]⟩
  | version1 height => exact ⟨_, .version1 height, by simp [joined]⟩

/-- Whatever is laid out as a cheque is made of pieces. -/
theorem IsLayout.exists_pieces {cheque : Cheque} {front : Bytes} (h : IsLayout cheque front) :
    ∃ pieces, IsPieces cheque pieces ∧ joined pieces = front := by
  obtain ⟨origin, _, horigin, ⟨amount, hlen, hvalue, rfl⟩, rfl⟩ := h
  obtain ⟨pieces, hpieces, rfl⟩ := horigin.exists_pieces
  refine ⟨_, ⟨pieces, amount, hpieces, hlen, hvalue, rfl⟩, ?_⟩
  rw [joined_append]
  simp [joined, piecesBehind]

/-! ## Readers -/

/-- **A reader of pieces.** From the pieces it reads a value and leaves what follows, whatever that
    is; and where the bytes end before the pieces do, it reports the part that the next byte would
    have belonged to. -/
structure Reads {α : Type} (reader : Reader α) (pieces : List Piece) (a : α) : Prop where
  /-- What follows is left. -/
  whole : ∀ rest, reader.run (joined pieces ++ rest) = .ok (a, rest)
  /-- A cut is reported. -/
  cut : ∀ j < (joined pieces).length, ∃ part, partAt? pieces j = some part ∧
    reader.run ((joined pieces).take j) = .error (.truncated part)

variable {α β : Type}

theorem reads_pure (a : α) : Reads (pure a) [] a where
  whole _ := rfl
  cut j h := absurd h (Nat.not_lt_zero j)

/-- What needs no bytes and succeeds. -/
theorem reads_lift {x : Except ChequeError α} {a : α} (h : x = .ok a) :
    Reads (liftM x) [] a := by
  subst h
  exact ⟨fun _ => rfl, fun j h => absurd h (Nat.not_lt_zero j)⟩

theorem reads_take {part : ChequePart} {n : Nat} {bs : Bytes} (h : bs.length = n) :
    Reads (take part n) [⟨part, bs⟩] bs where
  whole rest := take_eq_ok_iff.mpr ⟨by rw [joined_cons]; simp [joined], h⟩
  cut j hj := by
    have hjoined : joined [⟨part, bs⟩] = bs := List.append_nil bs
    rw [hjoined] at hj ⊢
    refine ⟨part, if_pos hj, ?_⟩
    have hshort : (bs.take j).length < n := by
      rw [List.length_take]
      omega
    exact if_pos hshort

/-- **A chain of readers.** A cut goes through the pieces of the first reader, which reports it, or
    leaves them whole, and then the second reader does. -/
theorem Reads.bind {x : Reader α} {f : α → Reader β} {ps qs : List Piece} {a : α} {b : β}
    (hx : Reads x ps a) (hf : Reads (f a) qs b) : Reads (x >>= f) (ps ++ qs) b where
  whole rest := by
    rw [joined_append, List.append_assoc, Outcome.run_bind_eq_ok_iff]
    exact ⟨a, joined qs ++ rest, hx.whole _, hf.whole rest⟩
  cut j hj := by
    rw [joined_append] at hj ⊢
    rw [List.length_append] at hj
    rw [StateT.run_bind]
    rcases Nat.lt_or_ge j (joined ps).length with hfirst | hsecond
    · obtain ⟨part, hpart, hcut⟩ := hx.cut j hfirst
      refine ⟨part, by rw [partAt?_append_left qs hfirst, hpart], ?_⟩
      rw [List.take_append_of_le_length (Nat.le_of_lt hfirst), hcut]
      rfl
    · obtain ⟨part, hpart, hcut⟩ := hf.cut (j - (joined ps).length) (by omega)
      refine ⟨part, by rw [partAt?_append_right qs hsecond, hpart], ?_⟩
      rw [List.take_append, List.take_of_length_le hsecond, hx.whole]
      exact hcut

/-- A part that is read by `f` from bytes of fixed width. -/
theorem reads_part {f : Bytes → α} {part : ChequePart} {n : Nat} {bs : Bytes} {a : α}
    (hread : f bs = a) (hlen : bs.length = n) :
    Reads (do return f (← take part n)) [⟨part, bs⟩] a := by
  subst hread
  exact (reads_take hlen).bind (reads_pure (f bs))

theorem reads_readByte (part : ChequePart) (b : UInt8) :
    Reads (readByte part) [⟨part, [b]⟩] b :=
  reads_part (by simp [Bytes.value]) rfl

theorem reads_readUInt32 (part : ChequePart) (n : UInt32) :
    Reads (readUInt32 part) [⟨part, Bytes.ofNat 4 n.toNat⟩] n := by
  refine reads_part ?_ (Bytes.length_ofNat 4 _)
  rw [Bytes.value_ofNat_of_lt n.toNat_lt, UInt32.ofNat_toNat]

theorem reads_readUInt64 (part : ChequePart) (n : UInt64) :
    Reads (readUInt64 part) [⟨part, Bytes.ofNat 8 n.toNat⟩] n := by
  refine reads_part ?_ (Bytes.length_ofNat 8 _)
  rw [Bytes.value_ofNat_of_lt n.toNat_lt, UInt64.ofNat_toNat]

theorem reads_readAddress (part : ChequePart) (a : Address) :
    Reads (readAddress part) [⟨part, a.bytes⟩] a :=
  reads_part (Address.fit_bytes a) a.length_bytes

theorem reads_readAmount {amount : Word} {bs : Bytes} (hlen : bs.length < 256)
    (hvalue : Bytes.value bs = amount.toNat) :
    Reads readAmount [⟨.amountLength, [UInt8.ofNat bs.length]⟩, ⟨.amount, bs⟩] amount := by
  refine (reads_readByte .amountLength _).bind ((reads_take ?_).bind (reads_lift ?_))
  · rw [UInt8.toNat_ofNat_of_lt' hlen]
  · exact amountOf_eq_ok_iff.mpr hvalue

/-! ## Cheques -/

theorem reads_readOrigin {chain : UInt32} {metadata? : Option Metadata} {pieces : List Piece}
    (h : IsOriginPieces chain metadata? pieces) :
    Reads readOrigin pieces (chain, metadata?) := by
  cases h with
  | plain hplain =>
    refine (reads_readUInt32 .fromChain chain).bind ?_
    rw [if_neg hplain]
    exact reads_pure _
  | version0 =>
    refine (reads_readUInt32 .fromChain reservedChain).bind ?_
    rw [if_pos rfl]
    exact (reads_readByte .version 0).bind <| (reads_pure _).bind <|
      (reads_readUInt32 .fromChain chain).bind (reads_pure _)
  | @version1 bs hlen =>
    refine (reads_readUInt32 .fromChain reservedChain).bind ?_
    rw [if_pos rfl]
    have hmetadata : Reads (readMetadata 1) [⟨.metadata, bs⟩] (metadataOf bs) :=
      reads_part rfl hlen
    exact (reads_readByte .version 1).bind <| hmetadata.bind <|
      (reads_readUInt32 .fromChain chain).bind (reads_pure _)

/-- **Reading a cheque** is reading its pieces. -/
theorem reads_read {cheque : Cheque} {pieces : List Piece} (h : IsPieces cheque pieces) :
    Reads read pieces cheque := by
  obtain ⟨origin, amount, horigin, hlen, hvalue, rfl⟩ := h
  exact (reads_readOrigin horigin).bind <| (reads_readAddress .fromAddress _).bind <|
    (reads_readUInt64 .nonce _).bind <| (reads_readUInt32 .toChain _).bind <|
    (reads_readAddress .toAddress _).bind <| (reads_readUInt64 .expireHeight _).bind <|
    (reads_readAmount hlen hvalue).bind (reads_pure _)

/-- **A cheque ends where it ends.** Data that hold a cheque hold it in a front of a certain length.
    The front alone decides: with anything else behind it, the same cheque is read. And from a
    shorter front no cheque is read; the error names the part that the first missing byte belongs
    to. -/
theorem ofBytes_stable {data : Bytes} {cheque : Cheque} (h : ofBytes data = .ok cheque) :
    ∃ (k : Nat) (pieces : List Piece), k ≤ data.length ∧
      IsPieces cheque pieces ∧ joined pieces = data.take k ∧
      (∀ rest, ofBytes (data.take k ++ rest) = .ok cheque) ∧
      ∀ j < k, ∃ part, partAt? pieces j = some part ∧
        ofBytes (data.take j) = .error (.truncated part) := by
  obtain ⟨front, behind, hlayout, rfl⟩ := ofBytes_eq_ok_iff.mp h
  obtain ⟨pieces, hpieces, rfl⟩ := hlayout.exists_pieces
  have hread := reads_read hpieces
  have htake : (joined pieces ++ behind).take (joined pieces).length = joined pieces :=
    List.take_left
  refine ⟨(joined pieces).length, pieces, ?_, hpieces, htake.symm, ?_, ?_⟩
  · rw [List.length_append]
    exact Nat.le_add_right _ _
  · intro rest
    rw [htake, ofBytes, hread.whole]
    rfl
  · intro j hj
    obtain ⟨part, hpart, hcut⟩ := hread.cut j hj
    refine ⟨part, hpart, ?_⟩
    rw [List.take_append_of_le_length (Nat.le_of_lt hj), ofBytes, hcut]
    rfl

/-- A cheque behind metadata of version 1, with zeros in front of its amount and two more bytes
    behind it. -/
theorem ofBytes_stable_of_version1 :
    ∃ data cheque, data = [0, 0, 0, 0, 1, 1, 0, 0, 0, 2, 1, 0, 3] ++ [0, 0, 0, 7]
        ++ List.replicate 20 0xAA ++ [0, 0, 0, 0, 0, 0, 0, 5] ++ [0, 0, 0, 9]
        ++ List.replicate 20 0xBB ++ [0, 0, 0, 0, 0, 0, 1, 0] ++ [3, 0, 0, 100] ++ [255, 1] ∧
      ofBytes data = .ok cheque ∧
      ∃ (k : Nat) (pieces : List Piece), k ≤ data.length ∧
        IsPieces cheque pieces ∧ joined pieces = data.take k ∧
        (∀ rest, ofBytes (data.take k ++ rest) = .ok cheque) ∧
        ∀ j < k, ∃ part, partAt? pieces j = some part ∧
          ofBytes (data.take j) = .error (.truncated part) :=
  ⟨_, _, rfl, rfl, ofBytes_stable rfl⟩

end Cheque

end ChainClient
