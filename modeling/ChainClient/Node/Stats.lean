import ChainClient.Json.Reader

/-!
# `ChainClient.Node.Stats` — the statistics of a chain

## Contents
- **Statistics.** `ChainStats`.
- **JSON.** `ChainStats.toJson` and `ChainStats.read`.
-/

namespace ChainClient

/-- The statistics of a chain. -/
structure ChainStats where
  /-- The chain. -/
  chain : UInt32 := 0
  /-- The height. -/
  currentHeight : UInt64 := 0
  /-- The duration of the epoch. -/
  epochDuration : UInt64 := 0
  /-- The number of blocks in an epoch. -/
  epochLength : UInt64 := 0
  /-- The limit of gas. -/
  gasLimit : UInt64 := 0
  /-- The price of gas. -/
  gasPrice : String := ""
  /-- The duration of the epoch before. -/
  lastEpochDuration : UInt64 := 0
  /-- How many seconds the chain has lived. -/
  lives : UInt64 := 0
  /-- Transactions in a second. -/
  rate : UInt64 := 0
  /-- The same for the epoch before. -/
  lastEpochRate : UInt64 := 0
  /-- The number of blocks in the recent window. -/
  window : UInt64 := 0
  /-- Transactions in a second of the window. -/
  windowRate : UInt64 := 0
  /-- The duration of the window. -/
  windowDuration : UInt64 := 0
  /-- The number of transactions. -/
  transactions : UInt64 := 0
  /-- The number of accounts. -/
  accounts : UInt64 := 0
  /-- The members of the committee. -/
  committee : List String := []
  deriving DecidableEq, Repr

namespace ChainStats

/-- Statistics as JSON. -/
def toJson (stats : ChainStats) : Json :=
  .object [("chainId", .ofNat stats.chain.toNat),
    ("currentheight", .ofNat stats.currentHeight.toNat),
    ("epochduration", .ofNat stats.epochDuration.toNat),
    ("epochlength", .ofNat stats.epochLength.toNat),
    ("gaslimit", .ofNat stats.gasLimit.toNat), ("gasprice", .string stats.gasPrice),
    ("lastepochduration", .ofNat stats.lastEpochDuration.toNat),
    ("lives", .ofNat stats.lives.toNat), ("tps", .ofNat stats.rate.toNat),
    ("tpsLastEpoch", .ofNat stats.lastEpochRate.toNat),
    ("n", .ofNat stats.window.toNat), ("tpsLastN", .ofNat stats.windowRate.toNat),
    ("lastNduration", .ofNat stats.windowDuration.toNat),
    ("txcount", .ofNat stats.transactions.toNat),
    ("accountcount", .ofNat stats.accounts.toNat),
    ("currentcomm", .array (stats.committee.map .string))]

/-- The names of the fields in JSON, in their order. -/
def fieldNames : List String :=
  ["chainId", "currentheight", "epochduration", "epochlength", "gaslimit", "gasprice",
    "lastepochduration", "lives", "tps", "tpsLastEpoch", "n", "tpsLastN", "lastNduration",
    "txcount", "accountcount", "currentcomm"]

/-- Reads statistics. -/
def read : JsonReader ChainStats := fun place source => do
  let fields ← JsonReader.fields fieldNames place source
  let count (name : String) := fields.orElse name 0 JsonReader.uint64
  let chain ← fields.orElse "chainId" 0 JsonReader.uint32
  let currentHeight ← count "currentheight"
  let epochDuration ← count "epochduration"
  let epochLength ← count "epochlength"
  let gasLimit ← count "gaslimit"
  let gasPrice ← fields.orElse "gasprice" "" JsonReader.string
  let lastEpochDuration ← count "lastepochduration"
  let lives ← count "lives"
  let rate ← count "tps"
  let lastEpochRate ← count "tpsLastEpoch"
  let window ← count "n"
  let windowRate ← count "tpsLastN"
  let windowDuration ← count "lastNduration"
  let transactions ← count "txcount"
  let accounts ← count "accountcount"
  let committee ← fields.orElse "currentcomm" [] (JsonReader.list JsonReader.string)
  return { chain, currentHeight, epochDuration, epochLength, gasLimit, gasPrice, lastEpochDuration,
           lives, rate, lastEpochRate, window, windowRate, windowDuration, transactions, accounts,
           committee }

end ChainStats

end ChainClient
