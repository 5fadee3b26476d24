import ChainClient.Proofs.Hex
import ChainClient.Proofs.Transaction.Payload

/-!
# `ChainClient.Proofs.Transaction.Legible` — what a signature says of hexadecimal texts

The recipient, the input and the extra text of a transaction go through the lossy reader on their
way into the payload. So a signature covers the digits in front of the first pair that is not two
digits, and it is made whatever stands behind them.

## Contents
- **Reading.** `signingHash_of_lossy`: of the three texts, only the bytes that they spell are
  signed.
- **Legible transactions.** `Transaction.legible` cuts the texts to what is read of them, and
  `signingHash_legible` says that this is what is signed. `signingHash_of_no_digits` is a
  transaction of which nearly nothing is.
-/

namespace ChainClient

open Crypto

namespace Transaction

/-! ## Reading -/

theorem payload_of_lossy (tx : Transaction) (base : UInt64) {recipient input extra : String}
    (hrecipient : Hex.lossy recipient = Hex.lossy tx.recipient)
    (hinput : Hex.lossy input = Hex.lossy tx.input)
    (hextra : Hex.lossy extra = Hex.lossy tx.extra) :
    { tx with recipient, input, extra }.payload base = tx.payload base := by
  have hgas : Gas.ofExtra extra = Gas.ofExtra tx.extra := by
    rw [Gas.ofExtra, Gas.ofExtra, hextra]
  have hchain : { tx with recipient, input, extra }.chainNumber base = tx.chainNumber base := rfl
  simp only [payload, gas, hchain, hgas, hrecipient, hinput]

/-- **Bytes are signed, and not texts.** Texts that spell the same bytes to the lossy reader are
    signed alike. -/
theorem signingHash_of_lossy (tx : Transaction) (base : UInt64) {recipient input extra : String}
    (hrecipient : Hex.lossy recipient = Hex.lossy tx.recipient)
    (hinput : Hex.lossy input = Hex.lossy tx.input)
    (hextra : Hex.lossy extra = Hex.lossy tx.extra) :
    { tx with recipient, input, extra }.signingHash base = tx.signingHash base := by
  rw [signingHash, signingHash, payload_of_lossy tx base hrecipient hinput hextra]

/-- No recipient and no input keeps a transaction from being signed. -/
theorem exists_signingHash {tx : Transaction} {base : UInt64} {hash : Digest}
    (h : tx.signingHash base = .ok hash) (recipient input : String) :
    ∃ other, { tx with recipient, input }.signingHash base = .ok other := by
  obtain ⟨p, hp, -⟩ := signingHash_eq_ok_iff.mp h
  let changed : Payload :=
    { p with recipient := Hex.lossy recipient, input := Hex.lossy input }
  exact ⟨_, signingHash_eq_ok_iff.mpr
    ⟨changed, { hp with recipient := rfl, input := rfl }, rfl⟩⟩

/-! ## Legible transactions -/

/-- The transaction with its hexadecimal texts cut to the digits that are read of them. -/
def legible (tx : Transaction) : Transaction :=
  { tx with
    recipient := Hex.marked (Hex.lossy tx.recipient)
    input := Hex.marked (Hex.lossy tx.input)
    extra := Hex.marked (Hex.lossy tx.extra) }

/-- **What is signed of hexadecimal texts.** A transaction is signed as the legible one. Of each of
    the three texts that leaves the digits in front of the first pair that is not two digits; it
    leaves everything exactly if the text consists of digits, behind a mark or without one. No text
    of the recipient or the input is refused for what is left out. -/
theorem signingHash_legible (tx : Transaction) (base : UInt64) :
    tx.signingHash base = tx.legible.signingHash base ∧
    (∀ s ∈ [tx.recipient, tx.input, tx.extra], ∃ front behind,
      Hex.pairedBytes s = front ++ behind ∧ front.map Hex.smallChar = Hex.encode (Hex.lossy s) ∧
      (behind = [] ∨ ∃ b ∈ behind.take 2, Hex.isDigit b = false) ∧
      (behind = [] ↔ Hex.OnlyDigits s)) ∧
    ∀ hash, tx.signingHash base = .ok hash → ∀ recipient input : String,
      ∃ other, { tx with recipient, input }.signingHash base = .ok other := by
  have hsame : tx.legible.signingHash base = tx.signingHash base :=
    signingHash_of_lossy tx base (Hex.lossy_marked _) (Hex.lossy_marked _) (Hex.lossy_marked _)
  refine ⟨hsame.symm, ?_, ?_⟩
  · intro s _
    exact Hex.exists_front_of_lossy s
  · intro hash h recipient input
    exact exists_signingHash h recipient input

/-- A transaction with letters that are no digits, which is signed as one that creates a contract
    with an input of one byte and offers no gas. -/
theorem signingHash_of_no_digits :
    let tx : Transaction := { chain := "1", recipient := "0xzz", nonce := "0", value := "0",
                              input := "0x01zz", extra := "zz" }
    let blank : Transaction := { chain := "1", recipient := "", nonce := "0", value := "0",
                                 input := "0x01", extra := "" }
    ¬ Hex.OnlyDigits tx.recipient ∧ ¬ Hex.OnlyDigits tx.input ∧ ¬ Hex.OnlyDigits tx.extra ∧
      ∃ hash, tx.signingHash 100007 = .ok hash ∧ blank.signingHash 100007 = .ok hash := by
  intro tx blank
  have hblank : ({ chain := "1", recipient := "", nonce := "0", value := "0", input := "0x01",
                   extra := "" } : Transaction).signingHash 100007 = .ok _ := rfl
  refine ⟨by decide, by decide, by decide, _, ?_, hblank⟩
  rw [← hblank]
  exact signingHash_of_lossy blank 100007 (by decide) (by decide) (by decide)

end Transaction

end ChainClient
