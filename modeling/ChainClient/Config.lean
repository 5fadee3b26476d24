import ChainClient.Gas
import ChainClient.Toml.Document

/-!
# `ChainClient.Config` — the configuration of a client

## Contents
- **Settings.** `Config`, whose defaults are those of a client that was told nothing.
- **Gas.** `Config.gas` is the usual offer of gas.
- **TOML.** `Config.ofToml` reads a document, where missing keys keep their defaults and other keys
  do not count; `Config.load` does so for a file; `Config.toToml` writes one.
-/

namespace ChainClient

/-- The configuration of a client. -/
structure Config where
  /-- Where the node listens. -/
  url : String := "http://127.0.0.1:8089"
  /-- How many seconds a request may take. -/
  timeout : UInt64 := 30
  /-- What is added to the number of a chain in signatures. -/
  chainBase : UInt64 := 100007
  /-- The chain that is meant where none is named. -/
  defaultChain : String := "1"
  /-- The limit of the usual offer of gas. -/
  gasLimit : UInt64 := 25000
  /-- The price of the usual offer of gas. -/
  gasPrice : String := "400000000"
  deriving DecidableEq, Repr

namespace Config

/-- The usual offer of gas. -/
def gas (config : Config) : Except ClientError Gas :=
  match Word.parse config.gasPrice with
  | .ok price => .ok ⟨0, config.gasLimit, price⟩
  | .error _ => .error (.invalidNumber "gas_price" config.gasPrice)

/-! ## TOML -/

/-- The string of a key, or a default. -/
def readString (entries : Toml.Entries) (key fallback : String) : Option String :=
  match Toml.find? key entries with
  | none => some fallback
  | some (.string s) => some s
  | some _ => none

/-- The count of a key, or a default. -/
def readCount (entries : Toml.Entries) (key : String) (fallback : UInt64) : Option UInt64 :=
  match Toml.find? key entries with
  | none => some fallback
  | some (.integer i) => if 0 ≤ i then some (UInt64.ofNat i.toNat) else none
  | some _ => none

/-- The configuration in the entries of a document. -/
def ofEntries (entries : Toml.Entries) : Option Config := do
  let usual : Config := {}
  let url ← readString entries "rpc_url" usual.url
  let timeout ← readCount entries "timeout_secs" usual.timeout
  let chainBase ← readCount entries "base_chain_id" usual.chainBase
  let defaultChain ← readString entries "default_chain_id" usual.defaultChain
  let gasLimit ← readCount entries "gas_limit" usual.gasLimit
  let gasPrice ← readString entries "gas_price" usual.gasPrice
  return { url, timeout, chainBase, defaultChain, gasLimit, gasPrice }

/-- The configuration in a document. -/
def ofToml (document : String) : Except ClientError Config :=
  match (Toml.parse document).bind ofEntries with
  | some config => .ok config
  | none => .error .config

/-- The configuration in a file, which may be missing. -/
def load (content? : Option String) : Except ClientError Config :=
  match content? with
  | some content => ofToml content
  | none => .error .config

/-- The line of a string. -/
def stringLine (key value : String) : List Char :=
  Toml.pairText key (Toml.quote value.toList)

/-- The line of a count. Integers have 64 bits and a sign. -/
def countLine (key : String) (value : UInt64) : Except ClientError (List Char) :=
  if value.toNat < bitBound 63 then .ok (Toml.pairText key value.toNat.repr.toList)
  else .error .config

/-- A document with all settings. -/
def toToml (config : Config) : Except ClientError String := do
  let url := stringLine "rpc_url" config.url
  let timeout ← countLine "timeout_secs" config.timeout
  let chainBase ← countLine "base_chain_id" config.chainBase
  let defaultChain := stringLine "default_chain_id" config.defaultChain
  let gasLimit ← countLine "gas_limit" config.gasLimit
  let gasPrice := stringLine "gas_price" config.gasPrice
  return String.ofList (url ++ timeout ++ chainBase ++ defaultChain ++ gasLimit ++ gasPrice)

end Config

end ChainClient
