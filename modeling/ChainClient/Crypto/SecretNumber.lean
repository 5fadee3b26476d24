import ChainClient.Crypto.Sha256

/-!
# `ChainClient.Crypto.SecretNumber` — secret numbers derived from key and message (RFC 6979)

The secret number of a signature is drawn from a generator seeded with the key and the digest, so no
source of chance is needed and equal inputs give equal signatures.

## Contents
- **Generator.** `Generator` holds the key and the value of the keyed hash; `seed`, `draw`,
  `reject`.
- **Number.** `find?` draws until the number lies between zero and the order.
-/

namespace ChainClient.Crypto.SecretNumber

open Sha256 (hmac)

/-- The state of the generator. -/
structure Generator where
  /-- The key of the keyed hash. -/
  key : Bytes
  /-- The last value drawn. -/
  last : Bytes

/-- The generator before anything is drawn, for a private key and a digest of 32 bytes each. -/
def seed (privateKey digest : Bytes) : Generator :=
  let v₀ := List.replicate 32 0x01
  let k₁ := hmac (List.replicate 32 0x00) (v₀ ++ [0x00] ++ privateKey ++ digest)
  let v₁ := hmac k₁ v₀
  let k₂ := hmac k₁ (v₁ ++ [0x01] ++ privateKey ++ digest)
  ⟨k₂, hmac k₂ v₁⟩

/-- The generator after drawing its next value. -/
def draw (g : Generator) : Generator := { g with last := hmac g.key g.last }

/-- The generator after its last value has been turned down. -/
def reject (g : Generator) : Generator :=
  let key := hmac g.key (g.last ++ [0x00])
  ⟨key, hmac key g.last⟩

/-- The first of the next `attempts` values that is a number between zero and `order`. -/
def next? (order : Nat) : (attempts : Nat) → Generator → Option Nat
  | 0, _ => none
  | attempts + 1, g =>
    let drawn := draw g
    let k := Bytes.value drawn.last
    if 0 < k ∧ k < order then some k else next? order attempts (reject drawn)

/-- The secret number for a private key and a digest. A value is turned down with the chance that
    256 random bits reach the order, so a hundred attempts are as good as any number. -/
def find? (order : Nat) (privateKey digest : Bytes) : Option Nat :=
  next? order 100 (seed privateKey digest)

end ChainClient.Crypto.SecretNumber
