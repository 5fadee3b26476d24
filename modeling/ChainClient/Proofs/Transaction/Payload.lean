import ChainClient.Proofs.Hex
import ChainClient.Proofs.Outcome
import ChainClient.Proofs.Rlp
import ChainClient.Transaction.Signing

/-!
# `ChainClient.Proofs.Transaction.Payload` — what a signature says, and what it does not

A signature is over the hash of some bytes. Those bytes hold seven values of the transaction, and
nothing else of it: two transactions have the same bytes exactly when the seven values agree, so a
signature cannot be moved to another payment.

## Contents
- **Payloads.** `Payload.encode_eq_iff`: the bytes of a payload are those of no other payload.
- **Values.** `Transaction.Carries` is the reading of the seven values, field by field;
  `payload_eq_ok_iff` and `signingHash_eq_ok_iff` tie it to the program.
- **Faithfulness.** `signed_bytes_eq_iff`, for any two transactions that can be signed.
-/

namespace ChainClient

namespace Transaction

open Crypto

/-! ## Payloads -/

namespace Payload

/-- The items of a payload. -/
def items (p : Payload) : List Rlp :=
  [.number p.nonce.toNat, .number p.gasPrice.toNat, .number p.gasLimit.toNat, .bytes p.recipient,
    .number p.value.toNat, .bytes p.input, .number p.chain.toNat, .number 0, .number 0]

theorem encode_eq (p : Payload) : p.encode = (Rlp.list p.items).encode := rfl

/-- A payload whose byte strings are no longer than those that texts in memory spell. -/
def Fits (p : Payload) : Prop := p.recipient.length + p.input.length ≤ 2 ^ 63

theorem nonce_lt (p : Payload) : p.nonce.toNat < 256 ^ 32 :=
  Nat.lt_trans p.nonce.toNat_lt (by decide)

theorem gasLimit_lt (p : Payload) : p.gasLimit.toNat < 256 ^ 32 :=
  Nat.lt_trans p.gasLimit.toNat_lt (by decide)

/-- The items of a payload have headers: three words, two numbers of 64 bits, two zeros and two byte
    strings stay far below what a length can be. -/
theorem Fits.list_items {p : Payload} (h : p.Fits) : (Rlp.list p.items).Fits := by
  have hbound : 2 ^ 63 + 400 < Rlp.sizeBound := by decide
  have hsum : p.recipient.length + p.input.length ≤ 2 ^ 63 := h
  have hrecipient : p.recipient.length < Rlp.sizeBound := by omega
  have hinput : p.input.length < Rlp.sizeBound := by omega
  refine .list ?_ ?_
  · intro item hitem
    simp only [items, List.mem_cons, List.not_mem_nil, or_false] at hitem
    rcases hitem with rfl | rfl | rfl | rfl | rfl | rfl | rfl | rfl | rfl
    · exact Rlp.fits_number p.nonce_lt
    · exact Rlp.fits_number p.gasPrice.isLt
    · exact Rlp.fits_number p.gasLimit_lt
    · exact .bytes hrecipient
    · exact Rlp.fits_number p.value.isLt
    · exact .bytes hinput
    · exact Rlp.fits_number p.chain.isLt
    · exact Rlp.fits_number (by decide)
    · exact Rlp.fits_number (by decide)
  · have hnonce := Rlp.length_encode_number_le p.nonce_lt
    have hprice := Rlp.length_encode_number_le p.gasPrice.isLt
    have hlimit := Rlp.length_encode_number_le p.gasLimit_lt
    have hto := Rlp.length_encodeBytes_le hrecipient
    have hvalue := Rlp.length_encode_number_le p.value.isLt
    have hin := Rlp.length_encodeBytes_le hinput
    have hchain := Rlp.length_encode_number_le p.chain.isLt
    have hzero := @Rlp.length_encode_number_le 0 (by decide)
    simp only [items, Rlp.encodeItems, List.length_append, List.length_nil]
    rw [Rlp.encode, Rlp.encode]
    omega

theorem eq_of_items_eq {p q : Payload} (h : p.items = q.items) : p = q := by
  simp only [items, List.cons.injEq] at h
  obtain ⟨hnonce, hprice, hlimit, hrecipient, hvalue, hinput, hchain, _⟩ := h
  cases p
  cases q
  congr
  · exact UInt64.toNat_inj.mp (Rlp.number_injective hnonce)
  · exact BitVec.eq_of_toNat_eq (Rlp.number_injective hprice)
  · exact UInt64.toNat_inj.mp (Rlp.number_injective hlimit)
  · exact Rlp.bytes.inj hrecipient
  · exact BitVec.eq_of_toNat_eq (Rlp.number_injective hvalue)
  · exact Rlp.bytes.inj hinput
  · exact BitVec.eq_of_toNat_eq (Rlp.number_injective hchain)

/-- **Bytes of payloads.** The bytes of a payload are those of no other payload. -/
theorem encode_eq_iff {p q : Payload} (hp : p.Fits) (hq : q.Fits) :
    p.encode = q.encode ↔ p = q := by
  constructor
  · intro h
    rw [encode_eq, encode_eq] at h
    exact eq_of_items_eq (Rlp.list.inj (Rlp.encode_injective hp.list_items hq.list_items h))
  · rintro rfl
    rfl

end Payload

/-! ## Values -/

/-- **The values of a signature**, as the texts of a transaction spell them: numbers in decimal, the
    gas in the extra text, byte strings in hexadecimal, and the number of the chain with the base
    added and nothing lost. -/
structure Carries (tx : Transaction) (base : UInt64) (p : Payload) : Prop where
  /-- The nonce. -/
  nonce : readCountField "nonce" tx.nonce = .ok p.nonce
  /-- The price and the limit of gas. The kind of the offer is not signed. -/
  gas : ∃ kind, tx.gas = .ok ⟨kind, p.gasLimit, p.gasPrice⟩
  /-- The bytes of the recipient. -/
  recipient : p.recipient = Hex.lossy tx.recipient
  /-- The amount. -/
  value : readDecimalField "value" tx.value = .ok p.value
  /-- The bytes of the input. -/
  input : p.input = Hex.lossy tx.input
  /-- The number of the chain. -/
  chain : ∃ number, readDecimalField "chainId" tx.chain = .ok number ∧
    p.chain.toNat = number.toNat + base.toNat

theorem chainNumber_eq_ok_iff {tx : Transaction} {base : UInt64} {chain : Word} :
    tx.chainNumber base = .ok chain ↔
      ∃ number, readDecimalField "chainId" tx.chain = .ok number ∧
        chain.toNat = number.toNat + base.toNat := by
  unfold chainNumber
  rw [Outcome.bind_eq_ok_iff]
  refine exists_congr fun number => and_congr_right fun _ => ?_
  split
  · next hlt =>
    have hsum : (BitVec.ofNat 256 (number.toNat + base.toNat)).toNat =
        number.toNat + base.toNat := by
      rw [BitVec.toNat_ofNat]
      exact Nat.mod_eq_of_lt hlt
    constructor
    · intro h
      cases h
      exact hsum
    · intro h
      exact congrArg Except.ok (BitVec.eq_of_toNat_eq (hsum.trans h.symm))
  · next hge =>
    constructor
    · intro h
      cases h
    · intro h
      exact absurd (h ▸ chain.isLt) hge

/-- A payload is read exactly when the texts spell its values. -/
theorem payload_eq_ok_iff {tx : Transaction} {base : UInt64} {p : Payload} :
    tx.payload base = .ok p ↔ tx.Carries base p := by
  unfold payload
  constructor
  · intro h
    obtain ⟨chain, hchain, h⟩ := Outcome.bind_eq_ok_iff.mp h
    obtain ⟨value, hvalue, h⟩ := Outcome.bind_eq_ok_iff.mp h
    obtain ⟨nonce, hnonce, h⟩ := Outcome.bind_eq_ok_iff.mp h
    obtain ⟨gas, hgas, h⟩ := Outcome.bind_eq_ok_iff.mp h
    cases h
    exact ⟨hnonce, ⟨gas.kind, hgas⟩, rfl, hvalue, rfl, chainNumber_eq_ok_iff.mp hchain⟩
  · intro h
    obtain ⟨kind, hgas⟩ := h.gas
    rw [chainNumber_eq_ok_iff.mpr h.chain, h.value, h.nonce, hgas]
    cases p
    cases h.recipient
    cases h.input
    rfl

theorem signingHash_eq_ok_iff {tx : Transaction} {base : UInt64} {hash : Digest} :
    tx.signingHash base = .ok hash ↔
      ∃ p, tx.Carries base p ∧ hash = Keccak.keccak256 p.encode := by
  unfold signingHash
  rw [Outcome.bind_eq_ok_iff]
  refine exists_congr fun p => and_congr payload_eq_ok_iff ?_
  constructor
  · intro h
    cases h
    rfl
  · rintro rfl
    rfl

/-! ## Faithfulness -/

/-- The texts of the recipient and the input are no longer than texts in memory are. -/
structure TextsFit (tx : Transaction) : Prop where
  /-- The recipient. -/
  recipient : (Utf8.bytes tx.recipient).length < 2 ^ 63
  /-- The input. -/
  input : (Utf8.bytes tx.input).length < 2 ^ 63

theorem Carries.fits {tx : Transaction} {base : UInt64} {p : Payload} (h : tx.Carries base p)
    (hfit : tx.TextsFit) : p.Fits := by
  -- hexadecimal halves the texts, so that the two byte strings fit one length together
  have hrecipient := Hex.length_lossy_le tx.recipient
  have hinput := Hex.length_lossy_le tx.input
  have htexts := hfit.recipient
  have hinputs := hfit.input
  unfold Payload.Fits
  rw [h.recipient, h.input]
  omega

/-- The other nine fields of a transaction do not enter its payload. -/
theorem payload_of_unsigned_fields (tx : Transaction) (base : UInt64)
    (sender fromChain toChain : String) (useLocal : Bool) (expireHeight : Int64)
    (signature publicKey : String) (cosignatures cosignerKeys : List String) :
    { tx with sender, fromChain, toChain, useLocal, expireHeight, signature, publicKey,
              cosignatures, cosignerKeys }.payload base = tx.payload base :=
  rfl

/-- **A signature is for one payment.** When two transactions can be signed, the bytes that are
    hashed are the same exactly when the nonce, the price and the limit of gas, the bytes of the
    recipient, the amount, the bytes of the input and the number of the chain are the same; and no
    other field of a transaction has a part in them. -/
theorem signed_bytes_eq_iff {t₁ t₂ : Transaction} {b₁ b₂ : UInt64} {d₁ d₂ : Digest}
    (h₁ : t₁.signingHash b₁ = .ok d₁) (h₂ : t₂.signingHash b₂ = .ok d₂)
    (hfit₁ : t₁.TextsFit) (hfit₂ : t₂.TextsFit) :
    ∃ p₁ p₂ : Payload,
      (t₁.Carries b₁ p₁ ∧ d₁ = Keccak.keccak256 p₁.encode) ∧
      (t₂.Carries b₂ p₂ ∧ d₂ = Keccak.keccak256 p₂.encode) ∧
      (p₁.encode = p₂.encode ↔
        p₁.nonce = p₂.nonce ∧ p₁.gasPrice = p₂.gasPrice ∧ p₁.gasLimit = p₂.gasLimit ∧
          p₁.recipient = p₂.recipient ∧ p₁.value = p₂.value ∧ p₁.input = p₂.input ∧
          p₁.chain = p₂.chain) ∧
      ∀ (sender fromChain toChain : String) (useLocal : Bool) (expireHeight : Int64)
        (signature publicKey : String) (cosignatures cosignerKeys : List String),
        { t₁ with sender, fromChain, toChain, useLocal, expireHeight, signature, publicKey,
                  cosignatures, cosignerKeys }.payload b₁ = .ok p₁ := by
  obtain ⟨p₁, hp₁, hd₁⟩ := signingHash_eq_ok_iff.mp h₁
  obtain ⟨p₂, hp₂, hd₂⟩ := signingHash_eq_ok_iff.mp h₂
  refine ⟨p₁, p₂, ⟨hp₁, hd₁⟩, ⟨hp₂, hd₂⟩, ?_, ?_⟩
  · rw [Payload.encode_eq_iff (hp₁.fits hfit₁) (hp₂.fits hfit₂)]
    constructor
    · rintro rfl
      exact ⟨rfl, rfl, rfl, rfl, rfl, rfl, rfl⟩
    · rintro ⟨hnonce, hprice, hlimit, hrecipient, hvalue, hinput, hchain⟩
      cases p₁
      cases p₂
      congr
  · intro sender fromChain toChain useLocal expireHeight signature publicKey cosignatures
      cosignerKeys
    rw [payload_of_unsigned_fields]
    exact payload_eq_ok_iff.mpr hp₁

/-- Two payments of different amounts. -/
theorem signed_bytes_ne_of_amounts :
    ∃ p₁ p₂ : Payload,
      Carries { chain := "2", recipient := "0x0102", nonce := "5", value := "7" } 50000 p₁ ∧
      Carries { chain := "2", recipient := "0x0102", nonce := "5", value := "8" } 50000 p₂ ∧
      p₁.encode ≠ p₂.encode := by
  have h₁ : ({ chain := "2", recipient := "0x0102", nonce := "5", value := "7" } :
      Transaction).signingHash 50000 = .ok _ := rfl
  have h₂ : ({ chain := "2", recipient := "0x0102", nonce := "5", value := "8" } :
      Transaction).signingHash 50000 = .ok _ := rfl
  obtain ⟨p₁, p₂, ⟨hp₁, _⟩, ⟨hp₂, _⟩, hiff, _⟩ :=
    signed_bytes_eq_iff h₁ h₂ ⟨by decide, by decide⟩ ⟨by decide, by decide⟩
  refine ⟨p₁, p₂, hp₁, hp₂, ?_⟩
  intro hbytes
  have hseven : p₁.value = 7 := (Except.ok.inj hp₁.value).symm
  have height : p₂.value = 8 := (Except.ok.inj hp₂.value).symm
  have hvalue := (hiff.mp hbytes).2.2.2.2.1
  rw [hseven, height] at hvalue
  exact absurd hvalue (by decide)

end Transaction

end ChainClient
