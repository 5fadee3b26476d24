import ChainClient.Gas

/-!
# `ChainClient.Transaction.Basic` — transactions in the form that a node accepts

All fields but three are texts; numbers are written in decimal, bytes in hexadecimal. Nothing is
checked when a field is set: a text that does not read is reported when the transaction is signed.

## Contents
- **Fields.** `Transaction`; `Transaction.onChain` is an empty transaction on a chain.
- **Setting fields.** `sentBy`, `sentTo`, `numbered`, `worth`, `calling` and `offering` set a field
  to the text of a typed value; `Transaction.gas` reads the offer of gas back.
- **JSON.** `Transaction.toJson` leaves out what is empty; `Transaction.read` puts it back.
-/

namespace ChainClient

/-- A transaction. -/
structure Transaction where
  /-- The chain it runs on. -/
  chain : String := ""
  /-- The chain it comes from, if it crosses chains. -/
  fromChain : String := ""
  /-- The chain it goes to, if it crosses chains. -/
  toChain : String := ""
  /-- The sender. -/
  sender : String := ""
  /-- The recipient; empty for a new contract. -/
  recipient : String := ""
  /-- The number of transactions that the sender sent before. -/
  nonce : String := ""
  /-- The amount that is sent. -/
  value : String := ""
  /-- The signature of the sender. -/
  signature : String := ""
  /-- The public key of the sender. -/
  publicKey : String := ""
  /-- The input of the contract that is called. -/
  input : String := ""
  /-- Whether the execution is paid for in the currency of the chain. -/
  useLocal : Bool := false
  /-- The offer of gas. -/
  extra : String := ""
  /-- The last height at which it is valid; zero for no limit. -/
  expireHeight : Int64 := 0
  /-- The public keys of the cosigners. -/
  cosignerKeys : List String := []
  /-- The signatures of the cosigners. -/
  cosignatures : List String := []
  deriving DecidableEq, Repr

namespace Transaction

/-! ## Setting fields -/

/-- The transaction on a chain that sends nothing. -/
def onChain (chain : String) : Transaction := { chain, value := "0" }

/-- The transaction with a sender. -/
def sentBy (tx : Transaction) (sender : Address) : Transaction := { tx with sender := sender.text }

/-- The transaction with a recipient. -/
def sentTo (tx : Transaction) (recipient : Address) : Transaction :=
  { tx with recipient := recipient.text }

/-- The transaction with a nonce. -/
def numbered (tx : Transaction) (nonce : UInt64) : Transaction :=
  { tx with nonce := nonce.toNat.repr }

/-- The transaction with an amount. -/
def worth (tx : Transaction) (value : Word) : Transaction := { tx with value := value.text }

/-- The transaction with an input. -/
def calling (tx : Transaction) (input : Bytes) : Transaction :=
  { tx with input := Hex.marked input }

/-- The transaction with an offer of gas. -/
def offering (tx : Transaction) (gas : Gas) : Transaction := { tx with extra := gas.extra }

/-- The offer of gas of a transaction. -/
def gas (tx : Transaction) : Except ClientError Gas := Gas.ofExtra tx.extra

/-! ## JSON -/

/-- A member with a text, left out if the text is empty. -/
def textMember (key text : String) : List (String × Json) :=
  if text = "" then [] else [(key, .string text)]

/-- A member with a list of texts, left out if the list is empty. -/
def textsMember (key : String) (texts : List String) : List (String × Json) :=
  if texts = [] then [] else [(key, .array (texts.map .string))]

/-- A member with an integer, left out if it is zero. -/
def intMember (key : String) (i : Int64) : List (String × Json) :=
  if i = 0 then [] else [(key, .ofInt i.toInt)]

/-- A transaction as JSON. -/
def toJson (tx : Transaction) : Json :=
  .object (
    [("chainId", .string tx.chain)]
    ++ textMember "fromChainId" tx.fromChain
    ++ textMember "toChainId" tx.toChain
    ++ [("from", .string tx.sender), ("to", .string tx.recipient), ("nonce", .string tx.nonce),
        ("value", .string tx.value)]
    ++ textMember "sig" tx.signature
    ++ textMember "pub" tx.publicKey
    ++ [("input", .string tx.input), ("useLocal", .bool tx.useLocal), ("extra", .string tx.extra)]
    ++ intMember "expireHeight" tx.expireHeight
    ++ textsMember "multipubs" tx.cosignerKeys
    ++ textsMember "multisigs" tx.cosignatures)

/-- The names of the fields in JSON, in their order. -/
def fieldNames : List String :=
  ["chainId", "fromChainId", "toChainId", "from", "to", "nonce", "value", "sig", "pub", "input",
    "useLocal", "extra", "expireHeight", "multipubs", "multisigs"]

/-- Reads a transaction. -/
def read : JsonReader Transaction := fun place source => do
  let fields ← JsonReader.fields fieldNames place source
  let text := JsonReader.string
  let chain ← fields.required "chainId" text
  let fromChain ← fields.orElse "fromChainId" "" text
  let toChain ← fields.orElse "toChainId" "" text
  let sender ← fields.required "from" text
  let recipient ← fields.required "to" text
  let nonce ← fields.required "nonce" text
  let value ← fields.required "value" text
  let signature ← fields.orElse "sig" "" text
  let publicKey ← fields.orElse "pub" "" text
  let input ← fields.orElse "input" "" text
  let useLocal ← fields.orElse "useLocal" false JsonReader.bool
  let extra ← fields.orElse "extra" "" text
  let expireHeight ← fields.orElse "expireHeight" 0 JsonReader.int64
  let cosignerKeys ← fields.orElse "multipubs" [] (JsonReader.list text)
  let cosignatures ← fields.orElse "multisigs" [] (JsonReader.list text)
  return { chain, fromChain, toChain, sender, recipient, nonce, value, signature, publicKey, input,
           useLocal, extra, expireHeight, cosignerKeys, cosignatures }

/-- The transaction that a JSON text spells. -/
def ofJsonText (bs : Bytes) : Except ClientError Transaction :=
  match JsonReader.ofText read bs with
  | some tx => .ok tx
  | none => .error .serialization

end Transaction

end ChainClient
