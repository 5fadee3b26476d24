import ChainClient.Proofs.Signature

/-!
# `ChainClient.Proofs.Signature.LowForm` — one form for each signature

Whoever sees a signature can write down another one for the same digest and key: the order less the
second number solves the same equation. Only the low form of the two is accepted, so nobody can turn
a signature that verifies into a different one that does.

## Contents
- **Halves.** `groupOrder_odd`. `complement_low`: the numbers above half the order have their
  complement in the lower half. `complement_high`: those of the lower half have it above.
- **Twins.** `Signature.twin` is the other signature; `isLow_twin` says that it is high if the first
  one verifies.
- **One form.** `low_form_exact`, the arithmetic on bytes and what it is for.
-/

namespace ChainClient

open Crypto

namespace Signature

/-! ## Halves -/

/-- The order is odd, so that a number and its complement are never in one half. -/
theorem groupOrder_odd : Secp256k1.groupOrder = 2 * ((Secp256k1.groupOrder - 1) / 2) + 1 := by
  decide

/-- Above half the order, the complement is low. -/
theorem complement_low {s : FixedBytes 32} (hhigh : (Secp256k1.groupOrder - 1) / 2 < s.value)
    (hlt : s.value < Secp256k1.groupOrder) :
    1 ≤ (complement s).value ∧ (complement s).value ≤ (Secp256k1.groupOrder - 1) / 2 := by
  rw [value_complement_of_le (Nat.le_of_lt hlt)]
  have hodd := groupOrder_odd
  omega

/-- In the lower half, the complement is high. -/
theorem complement_high {s : FixedBytes 32} (hlow : s.value ≤ (Secp256k1.groupOrder - 1) / 2) :
    (Secp256k1.groupOrder - 1) / 2 < (complement s).value := by
  have hodd := groupOrder_odd
  rw [value_complement_of_le (by omega)]
  omega

/-! ## Twins -/

/-- The other signature that fits the same digest and key, with any number for its hint. -/
def twin (sig : Signature) (v : UInt8) : Signature := { sig with s := complement sig.s, v }

theorem verify_of_high {digest : Digest} {sig : Signature} {key : PublicKey}
    (h : sig.isLow = false) : verify digest sig key = .ok false := by
  rw [verify, h, if_neg Bool.false_ne_true]

/-- What verifies has its second number in the lower half. -/
theorem le_half_of_verify {digest : Digest} {sig : Signature} {key : PublicKey}
    (h : verify digest sig key = .ok true) : sig.s.value ≤ (Secp256k1.groupOrder - 1) / 2 := by
  cases hlow : sig.isLow with
  | false =>
    rw [verify_of_high hlow] at h
    cases h
  | true => exact halfOrder_eq ▸ (isLow_iff sig).mp hlow

/-- The twin of what verifies is in the high form. -/
theorem isLow_twin {digest : Digest} {sig : Signature} {key : PublicKey}
    (h : verify digest sig key = .ok true) (v : UInt8) : (sig.twin v).isLow = false := by
  have hhigh := complement_high (le_half_of_verify h)
  rw [← Bool.not_eq_true, isLow_iff, halfOrder_eq]
  exact Nat.not_le.mpr hhigh

/-! ## One form -/

/-- **One form for each signature.** The comparison of bytes is that of numbers, and the subtraction
    of bytes that of numbers, modulo `2 ^ 256`; above half the order it leads into the lower half,
    never to zero. So of a signature that verifies, the twin is high and is refused, whatever the
    number of its hint. -/
theorem low_form_exact :
    (∀ sig : Signature, sig.isLow = true ↔ sig.s.value ≤ (Secp256k1.groupOrder - 1) / 2) ∧
    (∀ s : FixedBytes 32, ((complement s).value : Int) =
      ((Secp256k1.groupOrder : Int) - (s.value : Int)) % 2 ^ 256) ∧
    (∀ s : FixedBytes 32, (Secp256k1.groupOrder - 1) / 2 < s.value →
      s.value < Secp256k1.groupOrder →
      1 ≤ (complement s).value ∧ (complement s).value ≤ (Secp256k1.groupOrder - 1) / 2) ∧
    ∀ (digest : Digest) (key : PublicKey) (sig : Signature), verify digest sig key = .ok true →
      ∀ v : UInt8, (sig.twin v).r = sig.r ∧
        (sig.twin v).s.value = Secp256k1.groupOrder - sig.s.value ∧ (sig.twin v).isLow = false ∧
        verify digest (sig.twin v) key = .ok false := by
  refine ⟨fun sig => halfOrder_eq ▸ isLow_iff sig, ?_, fun s => complement_low, ?_⟩
  · intro s
    have hs : s.value < 256 ^ 32 := Bytes.value_lt_of_length s.length_bytes
    have hpow : 256 ^ 32 = 2 ^ 256 := by decide
    rw [value_complement]
    omega
  · intro digest key sig h v
    have hle : sig.s.value ≤ Secp256k1.groupOrder := by
      have hhalf := le_half_of_verify h
      omega
    have hhigh := isLow_twin h v
    exact ⟨rfl, value_complement_of_le hle, hhigh, verify_of_high hhigh⟩

/-- The private key one, with the generator for its public key. -/
def unitKey : PrivateKey := ⟨⟨1, by decide⟩, by decide⟩

/-- The digest for which the secret number one gives the second number one under the key one. -/
def unitDigest : Digest :=
  ⟨.ofNat 32 (Secp256k1.groupOrder + 1 - Secp256k1.generatorX.val)⟩

/-- The signature with the generator for its point and one for its second number. -/
def unitSignature : Signature :=
  ofScalars (Modular.residue Secp256k1.generatorX.val) ⟨1, by decide⟩ ⟨false, false⟩

theorem verify_unitSignature : verify unitDigest unitSignature unitKey.publicKey = .ok true := by
  refine verify_of_isSignature ?_ (by decide)
  refine ⟨1, Secp256k1.generatorX.val, Secp256k1.generatorY.val, ?_, rfl, by decide, by decide,
    by decide, ?_⟩
  · rw [← Secp256k1.isLawful_curve.generator_eq]
    rfl
  · have hsum : (⟨1, by decide⟩ : KeyScalar) = digestScalar unitDigest +
        Modular.residue Secp256k1.generatorX.val * unitKey.scalar := by decide
    rw [mul_one, ← Modular.toZMod_mul, ← Modular.toZMod_add, ← hsum]

/-- The number before the order has the complement one, and the twin of a signature that verifies is
    refused with the hint of the other point. -/
theorem low_form_exact_of_unit :
    (∃ s : FixedBytes 32, s.value = Secp256k1.groupOrder - 1 ∧ 1 ≤ (complement s).value ∧
      (complement s).value ≤ (Secp256k1.groupOrder - 1) / 2) ∧
    verify unitDigest unitSignature unitKey.publicKey = .ok true ∧
    (unitSignature.twin 1).isLow = false ∧
    verify unitDigest (unitSignature.twin 1) unitKey.publicKey = .ok false := by
  obtain ⟨_, _, hhalf, htwin⟩ := low_form_exact
  have hvalue : (FixedBytes.ofNat 32 (Secp256k1.groupOrder - 1)).value =
      Secp256k1.groupOrder - 1 := by decide
  have hverify := verify_unitSignature
  obtain ⟨_, _, hhigh, hrefused⟩ := htwin unitDigest unitKey.publicKey unitSignature hverify 1
  refine ⟨⟨_, hvalue, hhalf _ ?_ ?_⟩, hverify, hhigh, hrefused⟩
  · rw [hvalue]
    decide
  · rw [hvalue]
    decide

end Signature

end ChainClient
