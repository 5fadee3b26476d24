import ChainClient.Proofs.Cheque.Layout

/-!
# `ChainClient.Proofs.Cheque.Metadata` — cheques behind older metadata

Older writers announced metadata by zeros and a version. What stands behind the metadata is read as
it would be alone: the same cheque comes out of it, or the same error, whatever is wrong with it.
Only zeros in its first place make a difference, since alone they would announce metadata
themselves.

## Contents
- **Plain form.** `readPlain` reads a cheque that nothing is put in front of.
- **Forms.** `run_read_of_plain` and `run_read_announced` reduce both forms to it, the second one by
  way of the metadata, which `metadataOf_eq` spells out.
- **Transparency.** `ofBytes_behind` for any metadata that are read, and `ofBytes_behind_metadata`
  for every version.
-/

namespace ChainClient

namespace Cheque

/-! ## Plain form -/

/-- Reads what stands behind the chain that a cheque comes from. -/
def readBehind (fromChain : UInt32) (metadata? : Option Metadata) : Reader Cheque := do
  let fromAddress ← readAddress .fromAddress
  let nonce ← readUInt64 .nonce
  let toChain ← readUInt32 .toChain
  let toAddress ← readAddress .toAddress
  let expireHeight ← readUInt64 .expireHeight
  let amount ← readAmount
  return { fromChain, fromAddress, nonce, toChain, toAddress, expireHeight, amount, metadata? }

/-- Reads a cheque in plain form, from any chain. -/
def readPlain : Reader Cheque := do
  let fromChain ← readUInt32 .fromChain
  readBehind fromChain none

/-- A cheque with metadata, in place of any that it had. -/
def withMetadata (metadata : Metadata) (cheque : Cheque) : Cheque :=
  { cheque with metadata? := some metadata }

/-- No reader looks at the metadata. -/
theorem readBehind_some (fromChain : UInt32) (metadata : Metadata) :
    readBehind fromChain (some metadata) =
      withMetadata metadata <$> readBehind fromChain none := by
  simp only [readBehind, map_bind, map_pure]
  rfl

/-! ## Forms -/

theorem read_eq_bind : read = readOrigin >>= fun origin => readBehind origin.1 origin.2 := rfl

/-- Bytes that do not start with zeros are read in plain form. -/
theorem run_read_of_plain {bs : Bytes} (h : ¬ [0, 0, 0, 0] <+: bs) :
    read.run bs = readPlain.run bs := by
  rw [read_eq_bind, readOrigin, readPlain, bind_assoc]
  cases hfirst : (readUInt32 .fromChain).run bs with
  | error e => rw [Outcome.run_bind_of_eq_error hfirst, Outcome.run_bind_of_eq_error hfirst]
  | ok result =>
    obtain ⟨first, rest⟩ := result
    have hchain : first ≠ reservedChain := by
      rintro rfl
      exact h ⟨rest, (readUInt32_eq_ok_iff.mp hfirst).symm⟩
    rw [Outcome.run_bind_of_eq_ok hfirst, Outcome.run_bind_of_eq_ok hfirst, if_neg hchain,
      pure_bind]

/-- Behind zeros and a version, the metadata of the version are read and then the plain form. -/
theorem run_read_announced (version : UInt8) (bs : Bytes) :
    read.run ([0, 0, 0, 0, version] ++ bs) =
      (readMetadata version >>= fun metadata => withMetadata metadata <$> readPlain).run bs := by
  have hzeros : (readUInt32 .fromChain).run ([0, 0, 0, 0, version] ++ bs) =
      .ok (reservedChain, version :: bs) := readUInt32_eq_ok_iff.mpr rfl
  have hversion : (readByte .version).run (version :: bs) = .ok (version, bs) :=
    readByte_eq_ok_iff.mpr rfl
  rw [read_eq_bind, readOrigin, bind_assoc, Outcome.run_bind_of_eq_ok hzeros, if_pos rfl,
    bind_assoc, Outcome.run_bind_of_eq_ok hversion]
  simp only [readPlain, bind_assoc, pure_bind, map_bind, readBehind_some]

/-- The metadata in eight bytes: a truth value, a chain, a truth value and a currency. -/
theorem metadataOf_eq (m₀ m₁ m₂ m₃ m₄ m₅ m₆ m₇ : UInt8) :
    metadataOf [m₀, m₁, m₂, m₃, m₄, m₅, m₆, m₇] =
      { useLocal := m₀ != 0, parentChain := UInt32.ofNat (Bytes.value [m₁, m₂, m₃, m₄]),
        isShard := m₅ != 0, currency := UInt16.ofNat (Bytes.value [m₆, m₇]) } := by
  have hflag : ∀ m : UInt8, ([m] != [0]) = (m != 0) := by
    intro m
    rw [bne, bne, List.cons_beq_cons, BEq.rfl, Bool.and_true]
  show Metadata.mk ([m₀] != [0]) _ ([m₅] != [0]) _ = _
  rw [hflag, hflag]
  rfl

/-! ## Transparency -/

/-- Behind metadata that are read, bytes are read as they are alone. -/
theorem ofBytes_behind {version : UInt8} {metadata : Metadata} {front bs : Bytes}
    (hread : (readMetadata version).run (front ++ bs) = .ok (metadata, bs))
    (h : ¬ [0, 0, 0, 0] <+: bs) : ofBytes ([0, 0, 0, 0, version] ++ (front ++ bs)) =
      (ofBytes bs).map (withMetadata metadata) := by
  have hrun := run_read_announced version (front ++ bs)
  rw [Outcome.run_bind_of_eq_ok hread, StateT.run_map, ← run_read_of_plain h] at hrun
  rw [ofBytes, hrun, ofBytes]
  cases read.run bs <;> rfl

/-- **Older metadata are transparent.** Bytes that do not announce metadata themselves are read
    behind metadata of a known version as they are read alone, to the same cheque with the metadata
    or to the same error. Version 0 stands for payment in the currency of the chain; version 1 has
    eight bytes. Behind any other version nothing is read. -/
theorem ofBytes_behind_metadata :
    (∀ bs : Bytes, bs.length < 4 ∨ ¬ [0, 0, 0, 0] <+: bs →
      ofBytes ([0, 0, 0, 0, 0] ++ bs) = (ofBytes bs).map (withMetadata
        { useLocal := true, parentChain := 0, isShard := false, currency := 0 }) ∧
      ∀ m₀ m₁ m₂ m₃ m₄ m₅ m₆ m₇ : UInt8,
        ofBytes ([0, 0, 0, 0, 1] ++ ([m₀, m₁, m₂, m₃, m₄, m₅, m₆, m₇] ++ bs)) =
          (ofBytes bs).map (withMetadata
            { useLocal := m₀ != 0, parentChain := UInt32.ofNat (Bytes.value [m₁, m₂, m₃, m₄]),
              isShard := m₅ != 0, currency := UInt16.ofNat (Bytes.value [m₆, m₇]) })) ∧
    ∀ (version : UInt8) (bs : Bytes), version ≠ 0 → version ≠ 1 →
      ofBytes ([0, 0, 0, 0, version] ++ bs) = .error (.unknownVersion version) := by
  constructor
  · intro bs hbs
    have hplain : ¬ [0, 0, 0, 0] <+: bs := by
      rcases hbs with hshort | hplain
      · exact fun hzeros => absurd hzeros.length_le (Nat.not_le.mpr hshort)
      · exact hplain
    constructor
    · exact @ofBytes_behind _ _ [] _ (readMetadata_eq_ok_iff.mpr (.inl ⟨rfl, rfl, rfl⟩)) hplain
    · intro m₀ m₁ m₂ m₃ m₄ m₅ m₆ m₇
      rw [← metadataOf_eq]
      exact ofBytes_behind (readMetadata_eq_ok_iff.mpr (.inr ⟨rfl, _, rfl, rfl, rfl⟩)) hplain
  · intro version bs h0 h1
    have hrefused : (readMetadata version).run bs = .error (.unknownVersion version) := by
      rw [readMetadata, if_neg h0, if_neg h1]
      rfl
    rw [ofBytes, run_read_announced, Outcome.run_bind_of_eq_error hrefused]
    rfl

/-- A cheque that ends in its amount, behind metadata of both versions; nothing at all behind them;
    and a version that no writer used. -/
theorem ofBytes_behind_metadata_of_cut :
    ∃ cut : Bytes, cut = [0, 0, 0, 7] ++ List.replicate 20 0xAA ++ [0, 0, 0, 0, 0, 0, 0, 5]
        ++ [0, 0, 0, 9] ++ List.replicate 20 0xBB ++ [0, 0, 0, 0, 0, 0, 1, 0] ++ [2, 1] ∧
      ofBytes ([0, 0, 0, 0, 0] ++ cut) = .error (.truncated .amount) ∧
      (∃ cheque, ofBytes ([0, 0, 0, 0, 1] ++ ([1, 0, 0, 1, 2, 0, 0, 3] ++ (cut ++ [4]))) =
          .ok cheque ∧ cheque.amount = 260 ∧
        cheque.metadata? = some { useLocal := true, parentChain := 258, currency := 3 }) ∧
      ofBytes [0, 0, 0, 0, 0] = .error (.truncated .fromChain) ∧
      ofBytes ([0, 0, 0, 0, 7] ++ cut) = .error (.unknownVersion 7) := by
  refine ⟨_, rfl, ?_, ?_, ?_, ?_⟩
  · exact (ofBytes_behind_metadata.1 _ (.inr (by decide))).1
  · have hread := (ofBytes_behind_metadata.1 ([0, 0, 0, 7] ++ List.replicate 20 0xAA
      ++ [0, 0, 0, 0, 0, 0, 0, 5] ++ [0, 0, 0, 9] ++ List.replicate 20 0xBB
      ++ [0, 0, 0, 0, 0, 0, 1, 0] ++ [2, 1] ++ [4]) (.inr (by decide))).2 1 0 0 1 2 0 0 3
    exact ⟨_, hread, rfl, rfl⟩
  · exact (ofBytes_behind_metadata.1 [] (.inl (by decide))).1
  · exact ofBytes_behind_metadata.2 7 _ (by decide) (by decide)

end Cheque

end ChainClient
