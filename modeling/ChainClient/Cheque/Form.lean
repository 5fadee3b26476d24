import ChainClient.Cheque.Binary
import ChainClient.Json.Reader

/-!
# `ChainClient.Cheque.Form` — cheques in the form exchanged with a node

In this form every field is a text: numbers in decimal, addresses as marked hexadecimal. `encode`
reads the fields and writes the bytes of the cheque; `decode` does the reverse and fills each field
with the one text that its value has.

## Contents
- **Forms.** `ChequeForm`, and `ChequeForm.ofCheque`, which fills one in.
- **Bytes.** `ChequeForm.cheque` reads the fields; `encode` and `decode` pass to and from
  hexadecimal.
- **JSON.** `toJson` and `read`.
-/

namespace ChainClient

/-- A cheque whose fields are texts. -/
structure ChequeForm where
  /-- The chain on which it is presented. -/
  chain : String := ""
  /-- The chain it comes from. -/
  fromChain : String := ""
  /-- The address it comes from. -/
  sender : String := ""
  /-- The nonce of that address. -/
  nonce : String := ""
  /-- The chain it goes to. -/
  toChain : String := ""
  /-- The address it goes to. -/
  recipient : String := ""
  /-- The last height at which it can be cashed. -/
  expireHeight : String := ""
  /-- The amount. -/
  value : String := ""
  deriving DecidableEq, Repr

namespace ChequeForm

/-- The form of a cheque, presented on the chain it comes from. -/
def ofCheque (cheque : Cheque) : ChequeForm where
  chain := cheque.fromChain.toNat.repr
  fromChain := cheque.fromChain.toNat.repr
  sender := cheque.fromAddress.text
  nonce := cheque.nonce.toNat.repr
  toChain := cheque.toChain.toNat.repr
  recipient := cheque.toAddress.text
  expireHeight := cheque.expireHeight.toNat.repr
  value := cheque.amount.text

/-! ## Bytes -/

/-- The number below `bound` in a field. -/
def readCount (bound : Nat) (field text : String) : Except ChequeError Nat :=
  match Numeral.readUnsigned? bound text.toList with
  | some n => .ok n
  | none => .error (.invalidNumber field text)

/-- The address in a field: the last 20 of its bytes, or fewer behind zeros. -/
def readAddress (field text : String) : Except ChequeError Address :=
  match Hex.decodeMarked text with
  | .ok bs => .ok (.fit bs)
  | .error fault => .error (.invalidHex field fault)

/-- The amount in a field. -/
def readAmount (field text : String) : Except ChequeError Word :=
  match Word.parse text with
  | .ok w => .ok w
  | .error _ => .error (.invalidNumber field text)

/-- The cheque that the fields of a form describe. The first field that does not read is
    reported. -/
def cheque (form : ChequeForm) : Except ChequeError Cheque := do
  let fromChain ← readCount (bitBound 32) "fromChainId" form.fromChain
  let fromAddress ← readAddress "from" form.sender
  let nonce ← readCount (bitBound 64) "nonce" form.nonce
  let toChain ← readCount (bitBound 32) "toChainId" form.toChain
  let toAddress ← readAddress "to" form.recipient
  let expireHeight ← readCount (bitBound 64) "expireheight" form.expireHeight
  let amount ← readAmount "value" form.value
  return { fromChain := UInt32.ofNat fromChain, fromAddress, nonce := UInt64.ofNat nonce,
           toChain := UInt32.ofNat toChain, toAddress, expireHeight := UInt64.ofNat expireHeight,
           amount }

/-- The marked hexadecimal of the cheque that a form describes. -/
def encode (form : ChequeForm) : Except ChequeError String := do
  let cheque ← form.cheque
  return Hex.marked (← cheque.toBytes)

/-- The form of the cheque whose marked hexadecimal is given. -/
def decode (s : String) : Except ChequeError ChequeForm :=
  match Hex.decodeMarked s with
  | .error fault => .error (.invalidHex "cheque" fault)
  | .ok bs => (Cheque.ofBytes bs).map ofCheque

/-! ## JSON -/

/-- A form as JSON. -/
def toJson (form : ChequeForm) : Json :=
  .object [("chainId", .string form.chain), ("fromChainId", .string form.fromChain),
    ("from", .string form.sender), ("nonce", .string form.nonce),
    ("toChainId", .string form.toChain), ("to", .string form.recipient),
    ("expireheight", .string form.expireHeight), ("value", .string form.value)]

/-- The names of the fields in JSON, in their order. -/
def fieldNames : List String :=
  ["chainId", "fromChainId", "from", "nonce", "toChainId", "to", "expireheight", "value"]

/-- Reads a form, with all its fields. -/
def read : JsonReader ChequeForm := fun place source => do
  let fields ← JsonReader.fields fieldNames place source
  let chain ← fields.required "chainId" JsonReader.string
  let fromChain ← fields.required "fromChainId" JsonReader.string
  let sender ← fields.required "from" JsonReader.string
  let nonce ← fields.required "nonce" JsonReader.string
  let toChain ← fields.required "toChainId" JsonReader.string
  let recipient ← fields.required "to" JsonReader.string
  let expireHeight ← fields.required "expireheight" JsonReader.string
  let value ← fields.required "value" JsonReader.string
  return { chain, fromChain, sender, nonce, toChain, recipient, expireHeight, value }

end ChequeForm

end ChainClient
