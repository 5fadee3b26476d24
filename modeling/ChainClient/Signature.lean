import ChainClient.Address
import ChainClient.Word
import ChainClient.Crypto.Ecdsa
import ChainClient.Crypto.Keccak
import ChainClient.Crypto.Secp256k1
import ChainClient.Crypto.SecretNumber

/-!
# `ChainClient.Signature` — account keys and recoverable signatures

A signature travels as 65 bytes `r`, `s` and `v`, where `v` numbers the recovery hint; 27 may have
been added to it. Of the two forms `s` and `order - s` only the low one is made and accepted.

## Contents
- **Keys.** `PrivateKey` is a scalar that is not zero; `PublicKey` a point of the curve, with its
  address.
- **Wire form.** `Signature.toBytes` and `Signature.ofBytes`.
- **Low form.** `Signature.isLow`, and `complement`, which turns one form into the other.
- **Scheme.** `sign`, `verify` and `recover` on digests, with `CryptoError` for what goes wrong.
-/

namespace ChainClient

open Crypto

/-! ## Errors -/

/-- What can go wrong with signatures. -/
inductive CryptoError where
  /-- No signature could be made. -/
  | signingFailed (reason : String)
  /-- The bytes are no signature. -/
  | invalidSignature (reason : String)
  /-- The recovery hint is out of range. -/
  | invalidRecoveryId (id : UInt8)
  /-- No public key is behind the signature. -/
  | recoveryFailed (reason : String)
  deriving DecidableEq, Repr

/-- The wording of an error. -/
def CryptoError.message : CryptoError → String
  | .signingFailed reason => "signing failed: " ++ reason
  | .invalidSignature reason => "invalid signature: " ++ reason
  | .invalidRecoveryId id => "invalid recovery id: " ++ id.toNat.repr
  | .recoveryFailed reason => "public key recovery failed: " ++ reason

/-- What every failure of the arithmetic is called. -/
def signatureFailure : String := "signature error"

/-! ## Keys -/

/-- A residue modulo the order of the curve's generator. -/
abbrev KeyScalar := Secp256k1.curve.Scalar

/-- A private key. -/
structure PrivateKey where
  /-- The key as a scalar. -/
  scalar : KeyScalar
  /-- It is not zero. -/
  scalar_ne_zero : scalar.val ≠ 0
  deriving DecidableEq

/-- A public key. -/
abbrev PublicKey := Secp256k1.Point

namespace PrivateKey

/-- The private key spelled by a number between zero and the order. -/
def ofNat? (n : Nat) : Option PrivateKey :=
  if h : n < Secp256k1.groupOrder then
    if h0 : n ≠ 0 then some ⟨⟨n, h⟩, h0⟩ else none
  else none

/-- The 32 bytes of a private key. -/
def bytes (key : PrivateKey) : Bytes := Bytes.ofNat 32 key.scalar.val

/-- The public key of a private key. -/
def publicKey (key : PrivateKey) : PublicKey :=
  Secp256k1.Point.scale key.scalar.val Secp256k1.Point.generator

end PrivateKey

namespace PublicKey

/-- The 65 bytes of a public key: 4 and both coordinates. -/
def bytes (key : PublicKey) : Bytes := Secp256k1.Point.encode key

/-- The address of a public key: the last 20 bytes of the hash of its coordinates. -/
def address (key : PublicKey) : Address :=
  .fit ((Keccak.keccak256 ((bytes key).drop 1)).bytes.drop 12)

end PublicKey

/-! ## Wire form -/

/-- A recoverable signature. -/
structure Signature where
  /-- The first number. -/
  r : FixedBytes 32
  /-- The second number. -/
  s : FixedBytes 32
  /-- The number of the recovery hint, with 27 added or not. -/
  v : UInt8
  deriving DecidableEq

namespace Signature

/-- The number of the recovery hint. -/
def recoveryId (sig : Signature) : UInt8 := if 27 ≤ sig.v then sig.v - 27 else sig.v

/-- The 65 bytes of a signature. -/
def toBytes (sig : Signature) : Bytes := sig.r.bytes ++ sig.s.bytes ++ [sig.v]

/-- The signature spelled by 65 bytes. -/
def ofBytes (bs : Bytes) : Except CryptoError Signature :=
  if bs.length = 65 then
    .ok ⟨.fit 32 (bs.take 32), .fit 32 ((bs.drop 32).take 32), bs.getD 64 0⟩
  else .error (.invalidSignature ("expected 65 bytes, got " ++ bs.length.repr))

/-! ## Low form -/

/-- The greatest number of the low form: half the order, rounded down. -/
def halfOrder : Nat := 0x7FFFFFFFFFFFFFFFFFFFFFFFFFFFFFFF5D576E7357A4501DDFE92F46681B20A0

/-- Half the order is what its name says. -/
theorem halfOrder_eq : halfOrder = (Secp256k1.groupOrder - 1) / 2 := by decide

/-- Whether the second number is in the low form: its bytes come no later than those of half the
    order, the first byte that differs deciding. -/
def isLow (sig : Signature) : Bool :=
  (compare sig.s.bytes (FixedBytes.ofNat 32 halfOrder).bytes).isLE

/-- The order less a number, byte by byte. -/
def complement (s : FixedBytes 32) : FixedBytes 32 :=
  (FixedBytes.ofNat 32 Secp256k1.groupOrder).subtract s

/-- The scalars of a signature, if both are below the order and neither is zero. -/
def scalars (sig : Signature) : Except CryptoError (KeyScalar × KeyScalar) :=
  match PrivateKey.ofNat? sig.r.value, PrivateKey.ofNat? sig.s.value with
  | some r, some s => .ok (r.scalar, s.scalar)
  | _, _ => .error (.invalidSignature signatureFailure)

/-- The signature with two scalars and a hint. -/
def ofScalars (r s : KeyScalar) (hint : Ecdsa.Hint) : Signature :=
  ⟨.ofNat 32 r.val, .ofNat 32 s.val, UInt8.ofNat hint.toNat⟩

/-! ## Scheme -/

/-- The scalar of a digest: its number modulo the order. -/
def digestScalar (digest : Digest) : KeyScalar := Modular.residue digest.octets.value

/-- The signature of a digest before its form is settled. -/
def signRaw (digest : Digest) (key : PrivateKey) : Option (KeyScalar × KeyScalar × Ecdsa.Hint) := do
  let k ← SecretNumber.find? Secp256k1.groupOrder key.bytes digest.bytes
  Ecdsa.sign Secp256k1.curve (Modular.residue k) key.scalar (digestScalar digest)

/-- A signature settled in the low form, if one could be made. Passing to that form turns the point
    of the signature over, so the hint changes with it. -/
def settle : Option (KeyScalar × KeyScalar × Ecdsa.Hint) → Except CryptoError Signature
  | none => .error (.signingFailed signatureFailure)
  | some (r, s, hint) =>
    let sig := ofScalars r s hint
    if sig.isLow then .ok sig
    else .ok { sig with s := complement sig.s, v := UInt8.ofNat hint.flip.toNat }

/-- The signature of a digest. -/
def sign (digest : Digest) (key : PrivateKey) : Except CryptoError Signature :=
  settle (signRaw digest key)

/-- Whether a signature of a digest is by the holder of a public key. The high form never is. -/
def verify (digest : Digest) (sig : Signature) (key : PublicKey) : Except CryptoError Bool :=
  if sig.isLow then
    match sig.scalars with
    | .ok (r, s) => .ok (Ecdsa.verify Secp256k1.curve key (digestScalar digest) r s)
    | .error e => .error e
  else .ok false

/-- The public key behind a signature of a digest. -/
def recover (digest : Digest) (sig : Signature) : Except CryptoError PublicKey :=
  match sig.scalars with
  | .error e => .error e
  | .ok (r, s) =>
    match Ecdsa.Hint.ofNat? sig.recoveryId.toNat with
    | none => .error (.invalidRecoveryId sig.recoveryId)
    | some hint =>
      match Ecdsa.recover Secp256k1.curve (digestScalar digest) r s hint with
      | some key => .ok key
      | none => .error (.recoveryFailed signatureFailure)

end Signature

end ChainClient
