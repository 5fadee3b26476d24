import ChainClient.Contract

/-!
# `ChainClient.Contract.Erc20` — the ERC-20 token interface

## Contents
- **Interface.** `Contract.erc20` has the nine functions and two events of the standard.
-/

namespace ChainClient.Contract

open Abi

/-- A parameter for an address. -/
def addressParam (name : String) : Param := ⟨name, .address, false⟩

/-- A parameter for an amount. -/
def amountParam (name : String) : Param := ⟨name, .uint 256, false⟩

/-- A function with one result that has no name. -/
def functionWith (name : String) (inputs : List Param) (output : AbiType) (constant : Bool) :
    Function :=
  ⟨name, inputs, [⟨"", output, false⟩], constant⟩

/-- The functions of a token. -/
def erc20Functions : List Function := [
  functionWith "name" [] .string true,
  functionWith "symbol" [] .string true,
  functionWith "decimals" [] (.uint 8) true,
  functionWith "totalSupply" [] (.uint 256) true,
  functionWith "balanceOf" [addressParam "owner"] (.uint 256) true,
  functionWith "transfer" [addressParam "to", amountParam "value"] .bool false,
  functionWith "approve" [addressParam "spender", amountParam "value"] .bool false,
  functionWith "allowance" [addressParam "owner", addressParam "spender"] (.uint 256) true,
  functionWith "transferFrom" [addressParam "from", addressParam "to", amountParam "value"] .bool
    false]

/-- The events of a token. -/
def erc20Events : List Event := [
  ⟨"Transfer", [⟨"from", .address, true⟩, ⟨"to", .address, true⟩, amountParam "value"], false⟩,
  ⟨"Approval", [⟨"owner", .address, true⟩, ⟨"spender", .address, true⟩, amountParam "value"],
    false⟩]

/-- The contract of a token. -/
def erc20 : Contract where
  interface := {
    functions := .ofList (erc20Functions.map fun f => (f.name, f))
    events := .ofList (erc20Events.map fun e => (e.name, e)) }

end ChainClient.Contract
