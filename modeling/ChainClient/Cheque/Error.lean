import ChainClient.Hex

/-!
# `ChainClient.Cheque.Error` — what can go wrong with cheques

## Contents
- **Parts.** `ChequePart` lists the parts of the binary form, which can end inside any of them.
- **Causes.** One constructor of `ChequeError` a cause.
- **Wording.** `ChequePart.name` and `ChequeError.message`.
-/

namespace ChainClient

/-- A part of the binary form of a cheque. -/
inductive ChequePart where
  /-- The chain the cheque comes from, or the zeros that announce older metadata. -/
  | fromChain
  /-- The version of older metadata. -/
  | version
  /-- Older metadata. -/
  | metadata
  /-- The address the cheque comes from. -/
  | fromAddress
  /-- The nonce of that address. -/
  | nonce
  /-- The chain the cheque goes to. -/
  | toChain
  /-- The address the cheque goes to. -/
  | toAddress
  /-- The last height at which it can be cashed. -/
  | expireHeight
  /-- The number of bytes of the amount. -/
  | amountLength
  /-- The amount. -/
  | amount
  deriving DecidableEq, Repr

/-- The name of a part. -/
def ChequePart.name : ChequePart → String
  | .fromChain => "FromChain"
  | .version => "version"
  | .metadata => "legacy metadata"
  | .fromAddress => "FromAddress"
  | .nonce => "Nonce"
  | .toChain => "ToChain"
  | .toAddress => "ToAddress"
  | .expireHeight => "ExpireHeight"
  | .amountLength => "AmountLen"
  | .amount => "Amount"

/-- An error of a cheque in text or binary form. -/
inductive ChequeError where
  /-- A field, or the whole cheque, is not marked hexadecimal. -/
  | invalidHex (field : String) (fault : Hex.Error)
  /-- A field is not a number in its range. -/
  | invalidNumber (field text : String)
  /-- The bytes end inside a part. -/
  | truncated (part : ChequePart)
  /-- The version of older metadata is not known. -/
  | unknownVersion (version : UInt8)
  /-- The chain the cheque comes from has a number that is kept for another use. -/
  | reservedChain (chain : UInt32)
  /-- The amount has that many bytes, and no leading zero among them. -/
  | amountTooLong (length : Nat)
  deriving DecidableEq, Repr

/-- The wording of an error. -/
def ChequeError.message : ChequeError → String
  | .invalidHex field fault => "invalid hex in " ++ field ++ ": " ++ fault.message
  | .invalidNumber field text => "invalid number in " ++ field ++ ": " ++ Text.quoted text
  | .truncated part => "cheque truncated in " ++ part.name
  | .unknownVersion version => "unknown cheque version " ++ Hex.marked [version]
  | .reservedChain chain => "from chain " ++ chain.toNat.repr ++ " is reserved"
  | .amountTooLong length => "amount of " ++ length.repr ++ " bytes exceeds 256 bits"

end ChainClient
