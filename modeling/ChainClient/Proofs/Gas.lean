import ChainClient.Gas
import ChainClient.Proofs.Hex
import ChainClient.Proofs.Json.Record

/-!
# `ChainClient.Proofs.Gas` — offers of gas, written and read back

An offer goes through two texts: it is written as JSON, and the bytes of that as hexadecimal. Prices
have up to 78 digits, which no reader of the JSON may round.

## Contents
- **JSON.** `read_toJson`: an offer is read from the tree of its JSON; `ofText_render`: and from
  its text.
- **Extra texts.** `ofExtra_extra`: an offer is read back from its extra text.
-/

namespace ChainClient

namespace Gas

open Outcome (bind_of_eq_some)

/-! ## JSON -/

theorem writable_toJson (gas : Gas) : gas.toJson.Writable := by
  refine .object fun member hmember => ?_
  simp only [List.mem_cons, List.not_mem_nil, or_false] at hmember
  rcases hmember with rfl | rfl | rfl
  all_goals exact Json.writable_ofNat _

/-- The fields that the reader finds in an offer. -/
def fields (gas : Gas) : JsonReader.Fields := JsonReader.fieldsOf .field gas.toJson

theorem fields_toJson (gas : Gas) :
    JsonReader.fields ["type", "gas", "gasPrice"] .text (JsonReader.sourceOf gas.toJson) =
      some gas.fields :=
  rfl

/-- **JSON.** An offer is read from the tree of its JSON. -/
theorem read_toJson (gas : Gas) : read .text (JsonReader.sourceOf gas.toJson) = some gas := by
  have hkind : gas.fields.required "type" JsonReader.uint8 = some gas.kind :=
    JsonReader.uint8_repr gas.kind _
  have hlimit : gas.fields.required "gas" JsonReader.uint64 = some gas.limit :=
    JsonReader.uint64_repr gas.limit _
  have hprice : gas.fields.required "gasPrice" JsonReader.word = some gas.price :=
    JsonReader.word_repr gas.price rfl
  rw [read, bind_of_eq_some gas.fields_toJson, bind_of_eq_some hkind, bind_of_eq_some hlimit,
    bind_of_eq_some hprice]
  rfl

/-- **An offer is read back** from the text of its JSON. -/
theorem ofText_render (gas : Gas) :
    JsonReader.ofText read (Utf8.bytes gas.toJson.render) = some gas := by
  rw [Json.ofText_render gas.writable_toJson, read_toJson]

/-! ## Extra texts -/

/-- **An offer is read back** from its extra text. -/
theorem ofExtra_extra (gas : Gas) : ofExtra gas.extra = .ok gas := by
  rw [ofExtra, extra, Hex.lossy_marked, if_neg gas.writable_toJson.bytes_render_ne_nil, ofJsonText,
    ofText_render]

end Gas

end ChainClient
