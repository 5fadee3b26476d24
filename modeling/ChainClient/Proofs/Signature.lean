import ChainClient.Proofs.Bytes.Arithmetic
import ChainClient.Proofs.Crypto.Secp256k1.Order
import ChainClient.Signature

/-!
# `ChainClient.Proofs.Signature` — signatures verify and give back their key

A signature is settled in the low form by a subtraction on bytes and a change of the hint. That the
two go together is what lets the key be recovered from it, and from the number of the hint with or
without 27 added.

## Contents
- **Low form.** `isLow_iff` and `value_complement` say of numbers what is compared and subtracted
  byte by byte.
- **Scalars.** `scalars_ofScalars` and `hint_ofScalars` read back what `ofScalars` writes, and
  `complement_ofNat` is the subtraction on bytes as a negation.
- **Signing.** `sign_eq_ofScalars`: the outcome of signing is a signature in the low form.
- **Agreement.** `Signature.IsBy` says that a signature verifies and gives back its key, and
  `exists_sign_isBy` that signing makes one.
- **Wire form.** `ofBytes_toBytes`.
-/

namespace ChainClient

open Crypto

namespace Signature

/-! ## Low form -/

theorem order_lt : Secp256k1.groupOrder < 256 ^ 32 := by decide

theorem halfOrder_lt : halfOrder < 256 ^ 32 := by decide

/-- **The low form**, by numbers. -/
theorem isLow_iff (sig : Signature) : sig.isLow = true ↔ sig.s.value ≤ halfOrder := by
  have hlen := sig.s.length_bytes.trans (FixedBytes.ofNat 32 halfOrder).length_bytes.symm
  have hhalf : Bytes.value (FixedBytes.ofNat 32 halfOrder).bytes = halfOrder :=
    Bytes.value_ofNat_of_lt halfOrder_lt
  rw [isLow, Bytes.compare_eq_compare_value hlen, hhalf]
  exact Nat.isLE_compare

/-- **The other form**, by numbers: the order less the number, modulo `2 ^ 256`. -/
theorem value_complement (s : FixedBytes 32) :
    (complement s).value = (Secp256k1.groupOrder + (2 ^ 256 - s.value)) % 2 ^ 256 := by
  have horder : (FixedBytes.ofNat 32 Secp256k1.groupOrder).value = Secp256k1.groupOrder :=
    Bytes.value_ofNat_of_lt order_lt
  have hpow : 256 ^ 32 = 2 ^ 256 := by decide
  rw [complement, FixedBytes.value_subtract, horder, hpow]

/-- Up to the order, nothing is borrowed in the end. -/
theorem value_complement_of_le {s : FixedBytes 32} (h : s.value ≤ Secp256k1.groupOrder) :
    (complement s).value = Secp256k1.groupOrder - s.value := by
  have horder : Secp256k1.groupOrder < 2 ^ 256 := by decide
  rw [value_complement]
  omega

/-! ## Scalars -/

theorem val_lt (a : KeyScalar) : a.val < Secp256k1.groupOrder := a.isLt

/-- A scalar fits 32 bytes. -/
theorem value_ofNat (a : KeyScalar) : (FixedBytes.ofNat 32 a.val).value = a.val :=
  Bytes.value_ofNat_of_lt (Nat.lt_trans (val_lt a) order_lt)

theorem ofNat?_val {a : KeyScalar} (h : a.val ≠ 0) : PrivateKey.ofNat? a.val = some ⟨a, h⟩ := by
  rw [PrivateKey.ofNat?, dif_pos (val_lt a), dif_pos h]

theorem scalars_ofScalars {r s : KeyScalar} {hint : Ecdsa.Hint} (hr : r.val ≠ 0) (hs : s.val ≠ 0)
    (v : UInt8) : { ofScalars r s hint with v }.scalars = .ok (r, s) := by
  unfold scalars
  simp only [ofScalars, value_ofNat, ofNat?_val hr, ofNat?_val hs]

/-- The number of a hint is one of four, so that 27 tells whether it was added. -/
theorem hint_ofScalars (r s : KeyScalar) (hint : Ecdsa.Hint) {v : UInt8}
    (hv : v = (ofScalars r s hint).v ∨ v = (ofScalars r s hint).v + 27) :
    Ecdsa.Hint.ofNat? ({ ofScalars r s hint with v }.recoveryId).toNat = some hint := by
  have hnumber : ({ ofScalars r s hint with v }.recoveryId).toNat = hint.toNat := by
    show (if 27 ≤ v then v - 27 else v).toNat = hint.toNat
    change v = UInt8.ofNat hint.toNat ∨ v = UInt8.ofNat hint.toNat + 27 at hv
    rcases hint with ⟨_ | _, _ | _⟩ <;> rcases hv with rfl | rfl <;> decide
  rw [hnumber, Ecdsa.Hint.ofNat?_toNat]

/-- The low form, for scalars. -/
theorem isLow_ofScalars (r s : KeyScalar) (hint : Ecdsa.Hint) :
    (ofScalars r s hint).isLow = !Ecdsa.isHigh Secp256k1.curve s := by
  have hhalf : halfOrder = Secp256k1.groupOrder / 2 := by decide
  unfold Ecdsa.isHigh
  rw [Bool.eq_iff_iff, isLow_iff, ofScalars, value_ofNat, hhalf, ← decide_not, decide_eq_true_iff]
  exact Nat.not_lt.symm

theorem neg_val {s : KeyScalar} (hs : s.val ≠ 0) : (-s).val = Secp256k1.groupOrder - s.val :=
  Modular.val_neg hs

/-- **The other form.** The subtraction is the negation of scalars. -/
theorem complement_ofNat {s : KeyScalar} (hs : s.val ≠ 0) :
    complement (.ofNat 32 s.val) = .ofNat 32 (-s).val := by
  have hle : (FixedBytes.ofNat 32 s.val).value ≤ Secp256k1.groupOrder := by
    rw [value_ofNat]
    exact Nat.le_of_lt (val_lt s)
  apply Bytes.eq_of_value_eq
  rw [value_complement_of_le hle, value_ofNat, value_ofNat, neg_val hs]

/-- Of a scalar and its negation, one is low. -/
theorem isHigh_neg {s : KeyScalar} (hs : s.val ≠ 0)
    (hhigh : Ecdsa.isHigh Secp256k1.curve s = true) :
    Ecdsa.isHigh Secp256k1.curve (-s) = false := by
  have hlarge : Secp256k1.groupOrder / 2 < s.val := of_decide_eq_true hhigh
  have hlt := val_lt s
  refine decide_eq_false ?_
  show ¬ Secp256k1.groupOrder / 2 < (-s).val
  rw [neg_val hs]
  omega

/-! ## Signing -/

/-- The public key of a private key, as a multiple of the generator. -/
theorem publicKey_eq (key : PrivateKey) :
    key.publicKey = Secp256k1.multiple (Modular.toZMod key.scalar) :=
  Ecdsa.scale_val_generator Secp256k1.isLawful_curve key.scalar

/-- **Settling.** Of a signature and its opposite, the low one is taken, with the hint that belongs
    to it. -/
theorem settle_of_isSignature {d z r s : KeyScalar} {hint : Ecdsa.Hint}
    (h : Ecdsa.IsSignature Secp256k1.multiple d z r s hint) :
    ∃ s' hint', settle (some (r, s, hint)) = .ok (ofScalars r s' hint') ∧
      Ecdsa.IsSignature Secp256k1.multiple d z r s' hint' ∧
      Ecdsa.isHigh Secp256k1.curve s' = false := by
  have hs : s.val ≠ 0 := by
    obtain ⟨_, _, _, hfrom⟩ := h
    exact hfrom.s_ne_zero
  unfold settle
  simp only [isLow_ofScalars]
  cases hhigh : Ecdsa.isHigh Secp256k1.curve s with
  | false => exact ⟨s, hint, rfl, h, hhigh⟩
  | true =>
    -- the opposite is a signature as well, from the point turned over
    refine ⟨-s, hint.flip, ?_, h.neg Secp256k1.isLawful_curve, isHigh_neg hs hhigh⟩
    rw [Bool.not_true, if_neg Bool.false_ne_true, ofScalars, complement_ofNat hs]
    rfl

/-- **Signing.** If the secret number gives a signature at all, the outcome is one in the low
    form. -/
theorem sign_eq_ofScalars {digest : Digest} {key : PrivateKey} (h : signRaw digest key ≠ none) :
    ∃ r s hint, sign digest key = .ok (ofScalars r s hint) ∧
      Ecdsa.IsSignature Secp256k1.multiple key.scalar (digestScalar digest) r s hint ∧
      Ecdsa.isHigh Secp256k1.curve s = false := by
  obtain ⟨⟨r, s, hint⟩, hraw⟩ := Option.ne_none_iff_exists'.mp h
  obtain ⟨k, _, hsign⟩ := Option.bind_eq_some_iff.mp hraw
  have hsignature := Ecdsa.isSignature_of_sign Secp256k1.isLawful_curve hsign
  obtain ⟨s', hint', hsettle, hsettled⟩ := settle_of_isSignature hsignature
  refine ⟨r, s', hint', ?_, hsettled⟩
  rw [sign, hraw]
  exact hsettle

/-- Whether a secret number gives a signature, calculated without the sums of the curve. -/
def givesSignature (digest : Digest) (key : PrivateKey) (k : KeyScalar) : Bool :=
  0 < k.val && (Secp256k1.Jacobian.multiple k.val).z.val != 0 &&
    (Ecdsa.sign Secp256k1.ladderCurve k key.scalar (digestScalar digest)).isSome

/-- That the secret number gives a signature is found by calculating. -/
theorem signRaw_ne_none {digest : Digest} {key : PrivateKey} {k : Nat}
    (hk : SecretNumber.find? Secp256k1.groupOrder key.bytes digest.bytes = some k)
    (h : givesSignature digest key (Modular.residue k) = true) : signRaw digest key ≠ none := by
  unfold givesSignature at h
  simp only [Bool.and_eq_true, decide_eq_true_eq, bne_iff_ne] at h
  obtain ⟨⟨hpos, hz⟩, hsome⟩ := h
  rw [Secp256k1.sign_ladderCurve hpos (Modular.toZMod_ne_zero hz)] at hsome
  rw [Option.ne_none_iff_isSome, signRaw, hk, Option.bind_eq_bind, Option.bind_some]
  exact hsome

/-! ## Agreement -/

variable {r s : KeyScalar} {hint : Ecdsa.Hint} {digest : Digest} {key : PrivateKey}

theorem verify_of_isSignature
    (h : Ecdsa.IsSignature Secp256k1.multiple key.scalar (digestScalar digest) r s hint)
    (hlow : Ecdsa.isHigh Secp256k1.curve s = false) :
    verify digest (ofScalars r s hint) key.publicKey = .ok true := by
  have hverify := Ecdsa.verify_of_isSignature Secp256k1.isLawful_curve h hlow
  rw [← publicKey_eq] at hverify
  obtain ⟨_, _, _, hfrom⟩ := h
  unfold verify
  rw [isLow_ofScalars, hlow, Bool.not_false, if_pos rfl,
    scalars_ofScalars hfrom.r_ne_zero hfrom.s_ne_zero]
  exact congrArg Except.ok hverify

theorem recover_of_isSignature
    (h : Ecdsa.IsSignature Secp256k1.multiple key.scalar (digestScalar digest) r s hint)
    (hlow : Ecdsa.isHigh Secp256k1.curve s = false) {v : UInt8}
    (hv : v = (ofScalars r s hint).v ∨ v = (ofScalars r s hint).v + 27) :
    recover digest { ofScalars r s hint with v } = .ok key.publicKey := by
  have hrecover :=
    Ecdsa.recover_of_isSignature Secp256k1.isLawful_curve h hlow key.scalar_ne_zero
  obtain ⟨_, _, _, hfrom⟩ := h
  unfold recover
  rw [scalars_ofScalars hfrom.r_ne_zero hfrom.s_ne_zero]
  simp only [hint_ofScalars r s hint hv, hrecover]
  rw [publicKey_eq]

/-- **Agreement.** The second number of the signature is low and not zero, the signature verifies
    under the public key of a private key, and that public key is recovered from it, with or without
    27 added to the number of the hint. -/
structure IsBy (sig : Signature) (digest : Digest) (key : PrivateKey) : Prop where
  one_le : 1 ≤ sig.s.value
  le_half : sig.s.value ≤ (Secp256k1.groupOrder - 1) / 2
  verify_eq : verify digest sig key.publicKey = .ok true
  recover_eq : recover digest sig = .ok key.publicKey
  recover_eq_of_added : recover digest { sig with v := sig.v + 27 } = .ok key.publicKey

/-- If the secret number gives a signature at all, the outcome of signing is one by the key. -/
theorem exists_sign_isBy {digest : Digest} {key : PrivateKey} (h : signRaw digest key ≠ none) :
    ∃ sig, sign digest key = .ok sig ∧ sig.IsBy digest key := by
  obtain ⟨r, s, hint, hsign, hsignature, hlow⟩ := sign_eq_ofScalars h
  have hs : s.val ≠ 0 := by
    obtain ⟨_, _, _, hfrom⟩ := hsignature
    exact hfrom.s_ne_zero
  have hisLow : (ofScalars r s hint).isLow = true := by rw [isLow_ofScalars, hlow, Bool.not_false]
  refine ⟨ofScalars r s hint, hsign, ?_⟩
  exact
    { one_le := Nat.pos_of_ne_zero (by rwa [ofScalars, value_ofNat])
      le_half := halfOrder_eq ▸ (isLow_iff _).mp hisLow
      verify_eq := verify_of_isSignature hsignature hlow
      recover_eq := recover_of_isSignature hsignature hlow (.inl rfl)
      recover_eq_of_added := recover_of_isSignature hsignature hlow (.inr rfl) }

/-- Whatever is the outcome of signing is one by the key. -/
theorem isBy_of_sign {digest : Digest} {key : PrivateKey} {sig : Signature}
    (h : sign digest key = .ok sig) : sig.IsBy digest key := by
  have hraw : signRaw digest key ≠ none := by
    intro hnone
    rw [sign, hnone] at h
    cases h
  obtain ⟨sig', hsign, hby⟩ := exists_sign_isBy hraw
  obtain rfl := Except.ok.inj (hsign.symm.trans h)
  exact hby

/-! ## Wire form -/

theorem fit_bytes (bs : FixedBytes 32) : FixedBytes.fit 32 bs.bytes = bs := by
  rcases bs with ⟨bs, h⟩
  simp only [FixedBytes.fit, Bytes.fit_of_length h]

/-- **Wire form.** A signature is read back from its bytes. -/
theorem ofBytes_toBytes (sig : Signature) : ofBytes sig.toBytes = .ok sig := by
  have hr := sig.r.length_bytes
  have hs := sig.s.length_bytes
  have hlen : sig.toBytes.length = 65 := by
    simp only [toBytes, List.length_append, List.length_singleton, hr, hs]
  have hfront : sig.toBytes.take 32 = sig.r.bytes := by
    rw [toBytes, List.append_assoc, List.take_left' hr]
  have hmiddle : (sig.toBytes.drop 32).take 32 = sig.s.bytes := by
    rw [toBytes, List.append_assoc, List.drop_left' hr, List.take_left' hs]
  have hlast : sig.toBytes.getD 64 0 = sig.v := by
    have hsplit : (sig.r.bytes ++ sig.s.bytes).length = 64 := by
      rw [List.length_append, hr, hs]
    rw [List.getD_eq_getElem?_getD, toBytes, List.getElem?_append_right (by omega), hsplit]
    rfl
  rw [ofBytes, if_pos hlen, hfront, hmiddle, hlast, fit_bytes, fit_bytes]

end Signature

end ChainClient
