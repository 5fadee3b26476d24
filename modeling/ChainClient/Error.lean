import ChainClient.Abi.Error
import ChainClient.Cheque.Error
import ChainClient.Digest
import ChainClient.Signature

/-!
# `ChainClient.Error` — what can go wrong in a client

## Contents
- **Basic values.** `PrimitiveError` gathers the errors of addresses, digests, hexadecimal and
  words.
- **Clients.** `ClientError` gathers those of everything a client does.
- **Wording.** `PrimitiveError.message` and `ClientError.message`.
-/

namespace ChainClient

/-- An error in reading a basic value. -/
inductive PrimitiveError where
  /-- An error of an address. -/
  | address (cause : Address.Error)
  /-- An error of a digest. -/
  | digest (cause : Digest.Error)
  /-- An error of hexadecimal text. -/
  | hex (cause : Hex.Error)
  /-- An error of a number. -/
  | number (cause : Word.ParseError)
  deriving DecidableEq, Repr

/-- The wording of an error. -/
def PrimitiveError.message : PrimitiveError → String
  | .address cause => "address error: " ++ cause.message
  | .digest cause => "hash error: " ++ cause.message
  | .hex cause => "hex error: " ++ cause.message
  | .number cause => "integer error: " ++ cause.message

/-- An error of a client. -/
inductive ClientError where
  /-- A request had no answer. -/
  | transport (reason : String)
  /-- The node answered a request with an error. -/
  | rpc (method reason : String)
  /-- A text or byte string is no private key. -/
  | invalidPrivateKey (reason : String)
  /-- Nothing could be signed. -/
  | signingFailed (reason : String)
  /-- An error of contract types, values or descriptions. -/
  | abi (cause : AbiError)
  /-- An error of a cheque. -/
  | cheque (cause : ChequeError)
  /-- A field is not a number in its range. -/
  | invalidNumber (field text : String)
  /-- A text is not hexadecimal. -/
  | invalidHex (reason : String)
  /-- A JSON text or value does not hold what it should. -/
  | serialization
  /-- A configuration cannot be read or written. -/
  | config
  /-- An error of a basic value. -/
  | primitive (cause : PrimitiveError)
  deriving DecidableEq, Repr

/-- The wording of an error. -/
def ClientError.message : ClientError → String
  | .transport reason => "Transport error: " ++ reason
  | .rpc method reason => "RPC error from " ++ method ++ ": " ++ reason
  | .invalidPrivateKey reason => "Invalid private key: " ++ reason
  | .signingFailed reason => "Signing failed: " ++ reason
  | .abi cause => "ABI error: " ++ cause.message
  | .cheque cause => "Cheque error: " ++ cause.message
  | .invalidNumber field text => "Invalid number in " ++ field ++ ": " ++ Text.quoted text
  | .invalidHex reason => "Invalid hex: " ++ reason
  | .serialization => "Serialization error"
  | .config => "Configuration error"
  | .primitive cause => "Primitive error: " ++ cause.message

end ChainClient
