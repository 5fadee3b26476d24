import ChainClient.Proofs.Hex
import ChainClient.Proofs.Signature
import ChainClient.Proofs.Transaction.Signing

/-!
# `ChainClient.Proofs.Transaction.Recovery` — the keys behind a signed transaction

A transaction carries the signatures and the keys of its signers as texts, side by side. When the
signers are wallets, a node that has only the signatures and the hash comes to the same keys.

## Contents
- **Texts.** `Transaction.RecoversTo` reads a signature from its text and recovers the key.
- **Wallets.** `recoversTo_of_sign`: the text of what a wallet signs recovers to its key.
- **Transactions.** `signInPlace_wallets`, for a wallet and any number of cosigners, and
  `attempts_recoversTo`, for any number of attempts.
- **Agreement.** `sign_verify_recover` puts this together with the signatures themselves.
-/

namespace ChainClient

open Crypto

namespace Transaction

/-! ## Texts -/

/-- The text of a signature recovers, on a hash, to the text of a public key. -/
def RecoversTo (hash : Digest) (signature publicKey : String) : Prop :=
  ∃ bytes sig key, Hex.decodeMarked signature = .ok bytes ∧ Signature.ofBytes bytes = .ok sig ∧
    Signature.recover hash sig = .ok key ∧ publicKey = Hex.marked (PublicKey.bytes key)

/-! ## Wallets -/

theorem sign_signer_eq_ok_iff {wallet : Wallet} {hash : Digest} {bytes : Bytes} :
    wallet.signer.sign hash = .ok bytes ↔
      ∃ sig, Signature.sign hash wallet.key = .ok sig ∧ sig.toBytes = bytes :=
  Outcome.mapError_eq_ok_iff.trans Outcome.map_eq_ok_iff

/-- If the secret number gives a signature, a wallet signs. -/
theorem exists_sign_signer {wallet : Wallet} {hash : Digest}
    (h : Signature.signRaw hash wallet.key ≠ none) :
    ∃ bytes, wallet.signer.sign hash = .ok bytes := by
  obtain ⟨sig, hsign, _⟩ := Signature.exists_sign_isBy h
  exact ⟨sig.toBytes, sign_signer_eq_ok_iff.mpr ⟨sig, hsign, rfl⟩⟩

/-- **Wallets.** What a wallet signs is read back from its text, and its key recovered. -/
theorem recoversTo_of_sign {wallet : Wallet} {hash : Digest} {bytes : Bytes}
    (h : wallet.signer.sign hash = .ok bytes) :
    RecoversTo hash (Hex.marked bytes) (Hex.marked wallet.signer.publicKey) := by
  obtain ⟨sig, hsign, rfl⟩ := sign_signer_eq_ok_iff.mp h
  refine ⟨sig.toBytes, sig, wallet.key.publicKey, ?_, sig.ofBytes_toBytes, ?_, rfl⟩
  · exact Hex.decodeMarked_eq_ok_iff.mpr (Hex.isMarked_marked sig.toBytes)
  · exact (Signature.isBy_of_sign hsign).recover_eq

/-! ## Transactions -/

/-- Wallets that can sign a hash do not fail. -/
theorem not_signingFails_of_wallets {tx : Transaction} {base : UInt64} {hash : Digest}
    {wallet : Wallet} {cosigners : List Wallet} (hhash : tx.signingHash base = .ok hash)
    (hsign : ∀ w ∈ wallet :: cosigners, Signature.signRaw hash w.key ≠ none) (e : ClientError) :
    ¬ tx.SigningFails base wallet.signer (cosigners.map Wallet.signer) e := by
  intro hfails
  cases hfails with
  | hash h =>
    rw [hhash] at h
    cases h
  | @signature hash' hhash' h =>
    obtain rfl := Except.ok.inj (hhash.symm.trans hhash')
    obtain ⟨before, failing, after, hsplit, _, hfailing⟩ := h
    have hmem : failing ∈ (wallet :: cosigners).map Wallet.signer := by
      rw [List.map_cons, hsplit]
      exact List.mem_append_right before List.mem_cons_self
    obtain ⟨w, hw, rfl⟩ := List.mem_map.mp hmem
    obtain ⟨bytes, hbytes⟩ := exists_sign_signer (hsign w hw)
    cases hbytes.symm.trans hfailing

/-- What was signed by wallets recovers to their keys. -/
theorem forall₂_recoversTo {hash : Digest} {wallets : List Wallet} {signatures : List Bytes}
    (h : List.Forall₂ (fun (s : Signer) signature => s.sign hash = .ok signature)
      (wallets.map Wallet.signer) signatures) :
    List.Forall₂ (RecoversTo hash) (signatures.map Hex.marked)
      ((wallets.map Wallet.signer).map fun s => Hex.marked s.publicKey) := by
  induction wallets generalizing signatures with
  | nil =>
    cases h
    exact .nil
  | cons w wallets ih =>
    cases h with
    | cons hfirst hrest => exact .cons (recoversTo_of_sign hfirst) (ih hrest)

/-- **Transactions.** What wallets add to a transaction recovers to their keys, on its hash. -/
theorem signInPlace_wallets {tx : Transaction} {base : UInt64} {hash : Digest} {wallet : Wallet}
    {cosigners : List Wallet} (hhash : tx.signingHash base = .ok hash)
    (hsign : ∀ w ∈ wallet :: cosigners, Signature.signRaw hash w.key ≠ none) :
    ∃ signed signatures keys,
      tx.signInPlace base wallet.signer (cosigners.map Wallet.signer) = (.ok (), signed) ∧
      signed.signingHash base = .ok hash ∧
      RecoversTo hash signed.signature signed.publicKey ∧
      signed.cosignatures = tx.cosignatures ++ signatures ∧
      signed.cosignerKeys = tx.cosignerKeys ++ keys ∧
      signatures.length = cosigners.length ∧ List.Forall₂ (RecoversTo hash) signatures keys := by
  obtain ⟨signed, hsigned, hrun⟩ :=
    signInPlace_of_not_fails (not_signingFails_of_wallets hhash hsign)
  -- the texts are not hashed, so the recovery may hash what was signed
  have hsame := hsigned.signingHash_eq base
  cases hsigned with
  | @intro hash' signature cosignatures hhash' hsignature hall =>
    obtain rfl := Except.ok.inj (hhash.symm.trans hhash')
    refine ⟨_, _, _, hrun, hsame.trans hhash, recoversTo_of_sign hsignature, rfl, rfl, ?_,
      forall₂_recoversTo hall⟩
    rw [List.length_map, ← hall.length_eq, List.length_map]

/-- **Any number of attempts.** Whatever pairs of texts are added by wallets, each recovers to its
    key, on the one hash of the transaction. -/
theorem attempts_recoversTo (base : UInt64) (tx : Transaction)
    (wallets : List (Wallet × List Wallet)) :
    ∃ added, Extends tx (attempts base tx
        (wallets.map fun w => (w.1.signer, w.2.map Wallet.signer))) added ∧
      ∀ pair ∈ added, ∃ hash, tx.signingHash base = .ok hash ∧
        RecoversTo hash pair.1 pair.2 := by
  obtain ⟨added, hextends, hpairs⟩ := cosigned_attempts base tx
    (wallets.map fun w => (w.1.signer, w.2.map Wallet.signer))
  refine ⟨added, hextends, ?_⟩
  intro pair hpair
  obtain ⟨hash, s, bytes, hhash, hs, hsign, rfl⟩ := hpairs pair hpair
  obtain ⟨attempt, hattempt, hs⟩ := List.mem_flatMap.mp hs
  obtain ⟨w, _, rfl⟩ := List.mem_map.mp hattempt
  obtain ⟨cosigner, _, rfl⟩ := List.mem_map.mp hs
  exact ⟨hash, hhash, recoversTo_of_sign hsign⟩

/-! ## Agreement -/

/-- **Signing, verifying and recovering agree.** Whenever the secret number of a key and a digest
    gives a signature, signing succeeds with one in the low form, which verifies under the public
    key of the signer and from which that key is recovered. So the signatures that wallets put on a
    transaction recover, on its hash, to the keys they put next to them. -/
theorem sign_verify_recover :
    (∀ (digest : Digest) (key : PrivateKey), Signature.signRaw digest key ≠ none →
      ∃ sig, Signature.sign digest key = .ok sig ∧ sig.IsBy digest key) ∧
    ∀ (tx : Transaction) (base : UInt64) (hash : Digest) (wallet : Wallet)
      (cosigners : List Wallet), tx.signingHash base = .ok hash →
      (∀ w ∈ wallet :: cosigners, Signature.signRaw hash w.key ≠ none) →
      ∃ signed signatures keys,
        tx.signInPlace base wallet.signer (cosigners.map Wallet.signer) = (.ok (), signed) ∧
        signed.signingHash base = .ok hash ∧
        RecoversTo hash signed.signature signed.publicKey ∧
        signed.cosignatures = tx.cosignatures ++ signatures ∧
        signed.cosignerKeys = tx.cosignerKeys ++ keys ∧
        signatures.length = cosigners.length ∧
        List.Forall₂ (RecoversTo hash) signatures keys := by
  refine ⟨fun digest key => Signature.exists_sign_isBy, ?_⟩
  intro tx base hash wallet cosigners hhash hsign
  exact signInPlace_wallets hhash hsign

/-- A payment of 7 on chain 2. -/
def payment : Transaction := { chain := "2", nonce := "5", value := "7" }

/-- The hash of the payment, on a network whose chains are numbered from 50000 on. -/
def paymentHash : Digest :=
  ⟨.ofNat 32 0x3008b397ffe6a955d460f83af210bebc6af55a8c0e960fabc4041d317af12f3b⟩

/-- The wallet that pays. -/
def payer : Wallet := ⟨⟨5, by decide⟩, by decide⟩

/-- The wallet that has to agree to the payment. -/
def approver : Wallet := ⟨⟨6, by decide⟩, by decide⟩

/-- Both wallets sign the payment, and their keys are recovered from it. -/
theorem sign_verify_recover_payment :
    payment.signingHash 50000 = .ok paymentHash ∧
    (∀ w ∈ [payer, approver], Signature.signRaw paymentHash w.key ≠ none) ∧
    (∃ sig, Signature.sign paymentHash payer.key = .ok sig ∧ sig.IsBy paymentHash payer.key) ∧
    ∃ signed, payment.signInPlace 50000 payer.signer ([approver].map Wallet.signer) =
        (.ok (), signed) ∧
      RecoversTo paymentHash signed.signature signed.publicKey ∧
      signed.cosignatures.length = 1 ∧
      List.Forall₂ (RecoversTo paymentHash) signed.cosignatures signed.cosignerKeys := by
  have hhash : payment.signingHash 50000 = .ok paymentHash := by decide +kernel
  -- the secret numbers are spelled out so that each is drawn only once
  have hpayer : Signature.signRaw paymentHash payer.key ≠ none :=
    Signature.signRaw_ne_none
      (k := 0x80c66ef5dd85eb13ca299d59adfa84492c9769e7cd6c349e5d87d5cfe4b314bc)
      (by decide +kernel) (by decide +kernel)
  have happrover : Signature.signRaw paymentHash approver.key ≠ none :=
    Signature.signRaw_ne_none
      (k := 0xc39d54ab438a4258a87cf8fef42c566ba76ec4480fd1b9d593e5b282baee2772)
      (by decide +kernel) (by decide +kernel)
  have hsign : ∀ w ∈ [payer, approver], Signature.signRaw paymentHash w.key ≠ none := by
    intro w hw
    rcases List.mem_pair.mp hw with rfl | rfl
    · exact hpayer
    · exact happrover
  obtain ⟨signed, signatures, keys, hrun, _, hfirst, hsignatures, hkeys, hlength, hrest⟩ :=
    sign_verify_recover.2 payment 50000 paymentHash payer [approver] hhash hsign
  have hsignatures : signed.cosignatures = signatures := hsignatures
  have hkeys : signed.cosignerKeys = keys := hkeys
  refine ⟨hhash, hsign, sign_verify_recover.1 paymentHash payer.key hpayer, signed, hrun, hfirst,
    ?_, ?_⟩
  · rw [hsignatures]
    exact hlength
  · rw [hsignatures, hkeys]
    exact hrest

end Transaction

end ChainClient
