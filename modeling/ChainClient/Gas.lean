import ChainClient.Error
import ChainClient.Json.Reader

/-!
# `ChainClient.Gas` — what a transaction offers for its execution

The offer travels in the `extra` text of a transaction: hexadecimal of the bytes of its JSON.

## Contents
- **Offers.** `Gas`, with the usual offer `Gas.standard` and the empty one, `Gas.zero`.
- **JSON.** `Gas.toJson` and `Gas.read`.
- **Extra texts.** `Gas.extra` writes one; `Gas.ofExtra` reads one, and takes an empty one for no
  offer.
-/

namespace ChainClient

/-- An offer of gas. -/
structure Gas where
  /-- The kind of offer. -/
  kind : UInt8
  /-- The most gas that may be used. -/
  limit : UInt64
  /-- The price of a unit of gas. -/
  price : Word
  deriving DecidableEq, Repr

namespace Gas

/-- The usual offer. -/
def standard : Gas := ⟨0, 25000, 400000000⟩

/-- The offer of nothing. -/
def zero : Gas := ⟨0, 0, 0⟩

/-! ## JSON -/

/-- An offer as JSON. -/
def toJson (gas : Gas) : Json :=
  .object [("type", .ofNat gas.kind.toNat), ("gas", .ofNat gas.limit.toNat),
    ("gasPrice", .ofNat gas.price.toNat)]

/-- Reads an offer, with all its fields. -/
def read : JsonReader Gas := fun place source => do
  let fields ← JsonReader.fields ["type", "gas", "gasPrice"] place source
  let kind ← fields.required "type" JsonReader.uint8
  let limit ← fields.required "gas" JsonReader.uint64
  let price ← fields.required "gasPrice" JsonReader.word
  return ⟨kind, limit, price⟩

/-- The offer that a JSON text spells. -/
def ofJsonText (bs : Bytes) : Except ClientError Gas :=
  match JsonReader.ofText read bs with
  | some gas => .ok gas
  | none => .error .serialization

/-! ## Extra texts -/

/-- The extra text of an offer. -/
def extra (gas : Gas) : String := Hex.marked (Utf8.bytes gas.toJson.render)

/-- The offer in an extra text, of which only the hexadecimal front counts. -/
def ofExtra (s : String) : Except ClientError Gas :=
  if Hex.lossy s = [] then .ok zero else ofJsonText (Hex.lossy s)

end Gas

end ChainClient
