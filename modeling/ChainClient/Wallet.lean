import ChainClient.Crypto.Keccak
import ChainClient.Error

/-!
# `ChainClient.Wallet` — signers, and the wallets that sign with a key

Operations that need signatures take a signer. What is behind it is open: a wallet holds a key, a
device may refuse.

## Contents
- **Signers.** A `Signer` signs digests, or fails, and knows its public key.
- **Wallets.** `Wallet.ofBytes` and `Wallet.ofHex` make a wallet; `Wallet.signer` signs with its
  key.
-/

namespace ChainClient

open Crypto

/-- Something that signs digests. -/
structure Signer where
  /-- The 65 bytes of its signature of a digest. -/
  sign : Digest → Except ClientError Bytes
  /-- The 65 bytes of its public key. -/
  publicKey : Bytes

/-- A wallet: a private key in memory. -/
structure Wallet where
  /-- The key. -/
  key : PrivateKey

namespace Wallet

/-- The public key of a wallet. -/
def publicKey (wallet : Wallet) : PublicKey := wallet.key.publicKey

/-- The address of a wallet. -/
def address (wallet : Wallet) : Address := PublicKey.address wallet.publicKey

/-- The wallet whose private key has the given bytes. -/
def ofBytes (bs : FixedBytes 32) : Except ClientError Wallet :=
  match PrivateKey.ofNat? bs.value with
  | some key => .ok ⟨key⟩
  | none => .error (.invalidPrivateKey signatureFailure)

/-- A text without a leading `0x`; a capital mark stays. -/
def dropSmallMark : List Char → List Char
  | '0' :: 'x' :: rest => rest
  | cs => cs

/-- The wallet whose private key a text of 64 digits spells, with or without `0x`. The bytes of a
    key of another length are wiped before they are counted, so that the message always names
    none. -/
def ofHex (s : String) : Except ClientError Wallet :=
  match Hex.decode (Utf8.encode (dropSmallMark s.toList)) with
  | .error fault => .error (.invalidHex fault.message)
  | .ok bs =>
    match FixedBytes.ofBytes? 32 bs with
    | some bs => ofBytes bs
    | none => .error (.invalidPrivateKey "Expected 32 bytes, got 0")

/-- The signature of a digest. -/
def sign (wallet : Wallet) (digest : Digest) : Except ClientError Bytes :=
  ((Signature.sign digest wallet.key).map Signature.toBytes).mapError fun cause =>
    .signingFailed cause.message

/-- The wallet as a signer. -/
def signer (wallet : Wallet) : Signer := ⟨wallet.sign, PublicKey.bytes wallet.publicKey⟩

/-- The signature of the hash of a message. -/
def signMessage (wallet : Wallet) (message : Bytes) : Except ClientError Bytes :=
  wallet.sign (Keccak.keccak256 message)

/-- The text of a wallet, which does not show the key. -/
def debugText (wallet : Wallet) : String :=
  "Wallet \x7b address: " ++ wallet.address.debugText ++ ", .. \x7d"

end Wallet

end ChainClient
