import ChainClient.Json.Reader

/-!
# `ChainClient.Node.Account` — the state of an account, as a node tells it

## Contents
- **Accounts.** `Account`; only the address has to be there.
- **JSON.** `Account.toJson` and `Account.read`.
-/

namespace ChainClient

/-- The state of an account. -/
structure Account where
  /-- The address. -/
  address : String
  /-- The nonce of the next transaction. -/
  nonce : UInt64 := 0
  /-- The balance in the base currency. -/
  balance : Word := 0
  /-- The balance in the currency of the chain. -/
  localCurrency : Word := 0
  /-- The root of the storage of a contract. -/
  storageRoot : Json := .null
  /-- The hash of the code of a contract. -/
  codeHash : Json := .null
  /-- The root of the storage of a system contract. -/
  longStorageRoot : Json := .null

namespace Account

/-- An account as JSON. -/
def toJson (account : Account) : Json :=
  .object [("address", .string account.address), ("nonce", .ofNat account.nonce.toNat),
    ("balance", .ofNat account.balance.toNat),
    ("localCurrency", .ofNat account.localCurrency.toNat),
    ("storageRoot", account.storageRoot), ("codeHash", account.codeHash),
    ("longStorageRoot", account.longStorageRoot)]

/-- The names of the fields in JSON, in their order. -/
def fieldNames : List String :=
  ["address", "nonce", "balance", "localCurrency", "storageRoot", "codeHash", "longStorageRoot"]

/-- Reads an account. -/
def read : JsonReader Account := fun place source => do
  let fields ← JsonReader.fields fieldNames place source
  let address ← fields.required "address" JsonReader.string
  let nonce ← fields.orElse "nonce" 0 JsonReader.uint64
  let balance ← fields.orElse "balance" 0 JsonReader.word
  let localCurrency ← fields.orElse "localCurrency" 0 JsonReader.word
  let storageRoot ← fields.orElse "storageRoot" .null JsonReader.value
  let codeHash ← fields.orElse "codeHash" .null JsonReader.value
  let longStorageRoot ← fields.orElse "longStorageRoot" .null JsonReader.value
  return { address, nonce, balance, localCurrency, storageRoot, codeHash, longStorageRoot }

end Account

end ChainClient
