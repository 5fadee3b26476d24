import ChainClient.Json.Reader

/-!
# `ChainClient.Node.Receipt` — what a node answers to transactions

## Contents
- **Submissions.** `Submission` holds the hash of a transaction that was accepted.
- **Receipts.** `Receipt` is the result of running a transaction, which it repeats as a
  `ReceiptTransaction`.
- **JSON.** A `read` for each of them, and a `toJson` for all but submissions.
-/

namespace ChainClient

/-! ## Submissions -/

/-- The hash of a transaction that a node accepted. -/
structure Submission where
  /-- The hash. -/
  hash : String := ""
  deriving DecidableEq, Repr

/-- Reads the hash of an accepted transaction. -/
def Submission.read : JsonReader Submission := fun place source => do
  let fields ← JsonReader.fields ["TXhash"] place source
  return ⟨← fields.orElse "TXhash" "" JsonReader.string⟩

/-! ## Receipts -/

/-- A transaction as a receipt repeats it. -/
structure ReceiptTransaction where
  /-- The chain. -/
  chain : UInt32 := 0
  /-- The sender. -/
  sender : String := ""
  /-- The recipient. -/
  recipient : String := ""
  /-- The nonce. -/
  nonce : UInt64 := 0
  /-- The amount. -/
  value : Word := 0
  /-- The input. -/
  input : String := ""
  /-- The hash. -/
  hash : String := ""
  /-- Whether the execution was paid for in the currency of the chain. -/
  useLocal : Bool := false
  /-- The offer of gas. -/
  extra : String := ""
  /-- The time. -/
  timestamp : UInt64 := 0
  deriving DecidableEq, Repr

namespace ReceiptTransaction

/-- A repeated transaction as JSON. -/
def toJson (tx : ReceiptTransaction) : Json :=
  .object [("chainid", .ofNat tx.chain.toNat), ("from", .string tx.sender),
    ("to", .string tx.recipient), ("nonce", .ofNat tx.nonce.toNat),
    ("value", .ofNat tx.value.toNat), ("input", .string tx.input),
    ("hash", .string tx.hash), ("uselocal", .bool tx.useLocal), ("extra", .string tx.extra),
    ("timestamp", .ofNat tx.timestamp.toNat)]

/-- The names of the fields in JSON, in their order. -/
def fieldNames : List String :=
  ["chainid", "from", "to", "nonce", "value", "input", "hash", "uselocal", "extra", "timestamp"]

/-- Reads a repeated transaction. -/
def read : JsonReader ReceiptTransaction := fun place source => do
  let fields ← JsonReader.fields fieldNames place source
  let chain ← fields.orElse "chainid" 0 JsonReader.uint32
  let sender ← fields.orElse "from" "" JsonReader.string
  let recipient ← fields.orElse "to" "" JsonReader.string
  let nonce ← fields.orElse "nonce" 0 JsonReader.uint64
  let value ← fields.orElse "value" 0 JsonReader.word
  let input ← fields.orElse "input" "" JsonReader.string
  let hash ← fields.orElse "hash" "" JsonReader.string
  let useLocal ← fields.orElse "uselocal" false JsonReader.bool
  let extra ← fields.orElse "extra" "" JsonReader.string
  let timestamp ← fields.orElse "timestamp" 0 JsonReader.uint64
  return { chain, sender, recipient, nonce, value, input, hash, useLocal, extra, timestamp }

end ReceiptTransaction

/-- The result of running a transaction. -/
structure Receipt where
  /-- The transaction. -/
  transaction : ReceiptTransaction := {}
  /-- The root of the state afterwards. -/
  root : String := ""
  /-- One for success. -/
  status : Int64 := 0
  /-- The logs, as the node wrote them. -/
  logs : Json := .null
  /-- The hash of the transaction. -/
  transactionHash : String := ""
  /-- The address of a new contract. -/
  contractAddress : String := ""
  /-- The output of a contract. -/
  out : String := ""
  /-- The fee that was paid. -/
  gasFee : String := ""
  /-- The gas that was used. -/
  gasUsed : UInt64 := 0
  /-- The height of the block that holds the transaction. -/
  blockHeight : UInt64 := 0
  /-- The error that ended the execution. -/
  error : String := ""

namespace Receipt

/-- Whether the execution succeeded. -/
def isSuccess (receipt : Receipt) : Bool := receipt.status == 1

/-- A receipt as JSON. -/
def toJson (receipt : Receipt) : Json :=
  .object [("tx", receipt.transaction.toJson), ("root", .string receipt.root),
    ("status", .ofInt receipt.status.toInt), ("logs", receipt.logs),
    ("transactionHash", .string receipt.transactionHash),
    ("contractAddress", .string receipt.contractAddress), ("out", .string receipt.out),
    ("gasFee", .string receipt.gasFee), ("gasUsed", .ofNat receipt.gasUsed.toNat),
    ("blockHeight", .ofNat receipt.blockHeight.toNat), ("errorMsg", .string receipt.error)]

/-- The names of the fields in JSON, in their order. -/
def fieldNames : List String :=
  ["tx", "root", "status", "logs", "transactionHash", "contractAddress", "out", "gasFee", "gasUsed",
    "blockHeight", "errorMsg"]

/-- Reads a receipt. -/
def read : JsonReader Receipt := fun place source => do
  let fields ← JsonReader.fields fieldNames place source
  let transaction ← fields.orElse "tx" {} ReceiptTransaction.read
  let root ← fields.orElse "root" "" JsonReader.string
  let status ← fields.orElse "status" 0 JsonReader.int64
  let logs ← fields.orElse "logs" .null JsonReader.value
  let transactionHash ← fields.orElse "transactionHash" "" JsonReader.string
  let contractAddress ← fields.orElse "contractAddress" "" JsonReader.string
  let out ← fields.orElse "out" "" JsonReader.string
  let gasFee ← fields.orElse "gasFee" "" JsonReader.string
  let gasUsed ← fields.orElse "gasUsed" 0 JsonReader.uint64
  let blockHeight ← fields.orElse "blockHeight" 0 JsonReader.uint64
  let error ← fields.orElse "errorMsg" "" JsonReader.string
  return { transaction, root, status, logs, transactionHash, contractAddress, out, gasFee, gasUsed,
           blockHeight, error }

end Receipt

end ChainClient
