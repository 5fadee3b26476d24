import ChainClient.Rlp
import ChainClient.Text.Lowercase
import ChainClient.Transaction.Basic
import ChainClient.Wallet

/-!
# `ChainClient.Transaction.Signing` — what is signed, and signing it

Seven values of a transaction enter its signature. Signing changes the transaction in place, one
field after the other, and computes every signature before it does.

## Contents
- **Payload.** `Transaction.Payload` holds the seven values; `Transaction.payload` reads them from
  the texts and `Transaction.signingHash` hashes them.
- **Joined text.** `Transaction.joinedText` is what early nodes hashed instead.
- **Signing.** `Transaction.signing` is the attempt, step by step; `Transaction.signInPlace` returns
  its outcome and the transaction after it, `Transaction.sign` the signed transaction.
-/

namespace ChainClient

open Crypto

/-! ## Reading numbers -/

/-- The word in a decimal field. Hexadecimal is refused, as nodes read the field in decimal. -/
def readDecimalField (field text : String) : Except ClientError Word :=
  if Hex.hasMark text.toList then .error (.invalidNumber field text)
  else
    match Word.parse text with
    | .ok w => .ok w
    | .error _ => .error (.invalidNumber field text)

/-- The number of 64 bits in a decimal field. -/
def readCountField (field text : String) : Except ClientError UInt64 :=
  match Numeral.readUnsigned? (bitBound 64) text.toList with
  | some n => .ok (UInt64.ofNat n)
  | none => .error (.invalidNumber field text)

namespace Transaction

/-! ## Payload -/

/-- The values that enter a signature. -/
structure Payload where
  /-- The nonce. -/
  nonce : UInt64
  /-- The price of gas. -/
  gasPrice : Word
  /-- The limit of gas. -/
  gasLimit : UInt64
  /-- The bytes of the recipient. -/
  recipient : Bytes
  /-- The amount. -/
  value : Word
  /-- The input. -/
  input : Bytes
  /-- The number of the chain, with the base of chain numbers added. -/
  chain : Word
  deriving DecidableEq, Repr

/-- The bytes that are hashed: a list of the values, and two zeros. -/
def Payload.encode (payload : Payload) : Bytes :=
  Rlp.encode (.list [.number payload.nonce.toNat, .number payload.gasPrice.toNat,
    .number payload.gasLimit.toNat, .bytes payload.recipient, .number payload.value.toNat,
    .bytes payload.input, .number payload.chain.toNat, .number 0, .number 0])

/-- The number of the chain of a transaction, with the base of chain numbers added. -/
def chainNumber (tx : Transaction) (base : UInt64) : Except ClientError Word := do
  let chain ← readDecimalField "chainId" tx.chain
  if chain.toNat + base.toNat < Word.bound then
    return BitVec.ofNat 256 (chain.toNat + base.toNat)
  else throw (.invalidNumber "chainId" tx.chain)

/-- The values that enter the signature of a transaction. -/
def payload (tx : Transaction) (base : UInt64) : Except ClientError Payload := do
  let chain ← tx.chainNumber base
  let value ← readDecimalField "value" tx.value
  let nonce ← readCountField "nonce" tx.nonce
  let gas ← tx.gas
  return { nonce, gasPrice := gas.price, gasLimit := gas.limit,
           recipient := Hex.lossy tx.recipient, value, input := Hex.lossy tx.input, chain }

/-- The hash that is signed. -/
def signingHash (tx : Transaction) (base : UInt64) : Except ClientError Digest := do
  let payload ← tx.payload base
  return Keccak.keccak256 payload.encode

/-! ## Joined text -/

/-- A hexadecimal text without its mark, in small letters. -/
def smallDigits (s : String) : List Char := Text.lowercase (Hex.dropMark s.toList)

/-- The fields of a transaction joined with dashes. -/
def joinedText (tx : Transaction) : List Char :=
  ['-'].intercalate [
    tx.chain.toList, smallDigits tx.sender, smallDigits tx.recipient, tx.nonce.toList,
    [if tx.useLocal then '1' else '0'], tx.value.toList, smallDigits tx.input, smallDigits tx.extra]

/-- The hash of the joined text. -/
def joinedHash (tx : Transaction) : Digest := Keccak.keccak256 (Utf8.encode tx.joinedText)

/-! ## Signing -/

/-- The texts of the signatures of a hash and of the public keys, one pair a signer. -/
def signEach (hash : Digest) : List Signer → Except ClientError (List (String × String))
  | [] => .ok []
  | signer :: signers => do
    let signature ← signer.sign hash
    let rest ← signEach hash signers
    return (Hex.marked signature, Hex.marked signer.publicKey) :: rest

/-- A computation on a transaction that may fail. What it set before it failed stays set. -/
abbrev SigningM := ExceptT ClientError (StateM Transaction)

/-- The outcome of a computation on a transaction, and the transaction after it. -/
def runOn {α : Type} (tx : Transaction) (steps : SigningM α) : Except ClientError α × Transaction :=
  Id.run (steps.run.run tx)

/-- Adds the signature and the public key of a cosigner behind those that are there. -/
def addCosigner (pair : String × String) : SigningM Unit := do
  modify fun tx => { tx with cosignatures := tx.cosignatures ++ [pair.1] }
  modify fun tx => { tx with cosignerKeys := tx.cosignerKeys ++ [pair.2] }

/-- Sets the signature of a signer, and adds those of cosigners. -/
def signing (base : UInt64) (signer : Signer) (cosigners : List Signer) : SigningM Unit := do
  let hash ← (← get).signingHash base
  let signature ← signer.sign hash
  let cosigned ← signEach hash cosigners
  modify fun tx => { tx with signature := Hex.marked signature }
  modify fun tx => { tx with publicKey := Hex.marked signer.publicKey }
  cosigned.forM addCosigner

/-- The outcome of signing a transaction, and the transaction after it. -/
def signInPlace (tx : Transaction) (base : UInt64) (signer : Signer) (cosigners : List Signer) :
    Except ClientError Unit × Transaction :=
  tx.runOn (signing base signer cosigners)

/-- The signed transaction. -/
def sign (tx : Transaction) (base : UInt64) (signer : Signer) (cosigners : List Signer) :
    Except ClientError Transaction :=
  match tx.signInPlace base signer cosigners with
  | (.ok (), signed) => .ok signed
  | (.error e, _) => .error e

end Transaction

end ChainClient
