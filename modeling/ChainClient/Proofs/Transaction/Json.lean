import ChainClient.Proofs.Json.Record
import ChainClient.Transaction.Basic

/-!
# `ChainClient.Proofs.Transaction.Json` — transactions, written and read back

A transaction is written without its empty fields. The reader fills in what was left out, and the
defaults of the reader are the very values that the writer leaves out.

## Contents
- **Slots.** `Transaction.slots` lists the fields with what is written of them, and `toJson_eq` says
  that this is the JSON of a transaction.
- **Reading.** One law for each kind of field, among them `orElse_textSlot`, `orElse_textsSlot` and
  `orElse_intSlot` for those that may have been left out. `read_toJson` reads them all, and
  `ofText_render` does so from a text.
-/

namespace ChainClient

namespace Transaction

open JsonReader (recordOf written)
open Outcome (bind_of_eq_some)

/-! ## Slots -/

/-- What is written of a text. -/
def textSlot (text : String) : Option Json := if text = "" then none else some (.string text)

/-- What is written of a list of texts. -/
def textsSlot (texts : List String) : Option Json :=
  if texts = [] then none else some (.array (texts.map .string))

/-- What is written of an integer. -/
def intSlot (i : Int64) : Option Json := if i = 0 then none else some (.ofInt i.toInt)

/-- The fields of a transaction, with what is written of them. -/
def slots (tx : Transaction) : List (String × Option Json) :=
  [("chainId", some (.string tx.chain)), ("fromChainId", textSlot tx.fromChain),
    ("toChainId", textSlot tx.toChain), ("from", some (.string tx.sender)),
    ("to", some (.string tx.recipient)), ("nonce", some (.string tx.nonce)),
    ("value", some (.string tx.value)), ("sig", textSlot tx.signature),
    ("pub", textSlot tx.publicKey), ("input", some (.string tx.input)),
    ("useLocal", some (.bool tx.useLocal)), ("extra", some (.string tx.extra)),
    ("expireHeight", intSlot tx.expireHeight), ("multipubs", textsSlot tx.cosignerKeys),
    ("multisigs", textsSlot tx.cosignatures)]

theorem written_textSlot (key text : String) (slots : List (String × Option Json)) :
    written ((key, textSlot text) :: slots) = textMember key text ++ written slots := by
  unfold textSlot textMember
  split <;> rfl

theorem written_textsSlot (key : String) (texts : List String)
    (slots : List (String × Option Json)) :
    written ((key, textsSlot texts) :: slots) = textsMember key texts ++ written slots := by
  unfold textsSlot textsMember
  split <;> rfl

theorem written_intSlot (key : String) (i : Int64) (slots : List (String × Option Json)) :
    written ((key, intSlot i) :: slots) = intMember key i ++ written slots := by
  unfold intSlot intMember
  split <;> rfl

theorem written_some (key : String) (json : Json) (slots : List (String × Option Json)) :
    written ((key, some json) :: slots) = (key, json) :: written slots := rfl

theorem toJson_eq (tx : Transaction) : tx.toJson = recordOf tx.slots := by
  simp only [recordOf, slots, written_textSlot, written_textsSlot, written_intSlot, written_some,
    toJson, List.append_assoc, List.cons_append, List.nil_append]
  rw [show written [] = [] from rfl, List.append_nil]

theorem nodup_slots (tx : Transaction) : (tx.slots.map Prod.fst).Nodup := by
  show fieldNames.Nodup
  decide

theorem writable_toJson (tx : Transaction) : tx.toJson.Writable := by
  rw [toJson_eq]
  refine JsonReader.writable_recordOf fun slot hslot json hjson => ?_
  have htext {text : String} (h : textSlot text = some json) : json.Writable := by
    unfold textSlot at h
    split at h
    · cases h
    · cases h
      exact .string text
  have htexts {texts : List String} (h : textsSlot texts = some json) : json.Writable := by
    unfold textsSlot at h
    split at h
    · cases h
    · cases h
      exact Json.writable_strings texts
  have hint {i : Int64} (h : intSlot i = some json) : json.Writable := by
    unfold intSlot at h
    split at h
    · cases h
    · cases h
      exact Json.writable_ofInt _
  simp only [slots, List.mem_cons, List.not_mem_nil, or_false] at hslot
  rcases hslot with rfl | rfl | rfl | rfl | rfl | rfl | rfl | rfl | rfl | rfl | rfl | rfl | rfl |
    rfl | rfl
  all_goals first
    | exact htext hjson
    | exact htexts hjson
    | exact hint hjson
    | exact Option.some.inj hjson ▸ .string _
    | exact Option.some.inj hjson ▸ .bool _

/-! ## Reading -/

/-- The fields that the reader finds in the JSON of a transaction. -/
def fields (tx : Transaction) : JsonReader.Fields :=
  JsonReader.fieldsOf .field (recordOf tx.slots)

theorem fields_toJson (tx : Transaction) :
    JsonReader.fields fieldNames .text (JsonReader.sourceOf tx.toJson) = some tx.fields := by
  rw [toJson_eq]
  exact JsonReader.fields_recordOf rfl tx.nodup_slots

section

variable {tx : Transaction} {name text : String}

theorem required_text (h : (name, some (.string text)) ∈ tx.slots) :
    tx.fields.required name JsonReader.string = some text :=
  JsonReader.required_of_mem tx.nodup_slots h rfl

theorem orElse_text (h : (name, some (.string text)) ∈ tx.slots) :
    tx.fields.orElse name "" JsonReader.string = some text :=
  JsonReader.orElse_of_mem tx.nodup_slots h "" rfl

theorem orElse_bool {b : Bool} (h : (name, some (.bool b)) ∈ tx.slots) :
    tx.fields.orElse name false JsonReader.bool = some b :=
  JsonReader.orElse_of_mem tx.nodup_slots h false rfl

theorem orElse_textSlot (h : (name, textSlot text) ∈ tx.slots) :
    tx.fields.orElse name "" JsonReader.string = some text := by
  unfold textSlot at h
  split at h
  · next hempty =>
    rw [hempty]
    exact JsonReader.orElse_of_mem_none tx.nodup_slots h ""
  · exact orElse_text h

theorem orElse_textsSlot {texts : List String} (h : (name, textsSlot texts) ∈ tx.slots) :
    tx.fields.orElse name [] (JsonReader.list JsonReader.string) = some texts := by
  unfold textsSlot at h
  split at h
  · next hempty =>
    rw [hempty]
    exact JsonReader.orElse_of_mem_none tx.nodup_slots h []
  · exact JsonReader.orElse_of_mem tx.nodup_slots h [] (JsonReader.list_string texts rfl)

theorem orElse_intSlot {i : Int64} (h : (name, intSlot i) ∈ tx.slots) :
    tx.fields.orElse name 0 JsonReader.int64 = some i := by
  unfold intSlot at h
  split at h
  · next hzero =>
    rw [hzero]
    exact JsonReader.orElse_of_mem_none tx.nodup_slots h 0
  · exact JsonReader.orElse_of_mem tx.nodup_slots h 0 (JsonReader.int64_ofInt i _)

end

/-- **Transactions are read back** from the trees of their JSON. -/
theorem read_toJson (tx : Transaction) :
    read .text (JsonReader.sourceOf tx.toJson) = some tx := by
  have hchain : tx.fields.required "chainId" JsonReader.string = some tx.chain :=
    required_text (by simp [slots])
  have hfrom : tx.fields.orElse "fromChainId" "" JsonReader.string = some tx.fromChain :=
    orElse_textSlot (by simp [slots])
  have hto : tx.fields.orElse "toChainId" "" JsonReader.string = some tx.toChain :=
    orElse_textSlot (by simp [slots])
  have hsender : tx.fields.required "from" JsonReader.string = some tx.sender :=
    required_text (by simp [slots])
  have hrecipient : tx.fields.required "to" JsonReader.string = some tx.recipient :=
    required_text (by simp [slots])
  have hnonce : tx.fields.required "nonce" JsonReader.string = some tx.nonce :=
    required_text (by simp [slots])
  have hvalue : tx.fields.required "value" JsonReader.string = some tx.value :=
    required_text (by simp [slots])
  have hsignature : tx.fields.orElse "sig" "" JsonReader.string = some tx.signature :=
    orElse_textSlot (by simp [slots])
  have hkey : tx.fields.orElse "pub" "" JsonReader.string = some tx.publicKey :=
    orElse_textSlot (by simp [slots])
  have hinput : tx.fields.orElse "input" "" JsonReader.string = some tx.input :=
    orElse_text (by simp [slots])
  have hlocal : tx.fields.orElse "useLocal" false JsonReader.bool = some tx.useLocal :=
    orElse_bool (by simp [slots])
  have hextra : tx.fields.orElse "extra" "" JsonReader.string = some tx.extra :=
    orElse_text (by simp [slots])
  have hheight : tx.fields.orElse "expireHeight" 0 JsonReader.int64 = some tx.expireHeight :=
    orElse_intSlot (by simp [slots])
  have hkeys : tx.fields.orElse "multipubs" [] (JsonReader.list JsonReader.string) =
      some tx.cosignerKeys := orElse_textsSlot (by simp [slots])
  have hsignatures : tx.fields.orElse "multisigs" [] (JsonReader.list JsonReader.string) =
      some tx.cosignatures := orElse_textsSlot (by simp [slots])
  rw [read, bind_of_eq_some tx.fields_toJson, bind_of_eq_some hchain, bind_of_eq_some hfrom,
    bind_of_eq_some hto, bind_of_eq_some hsender, bind_of_eq_some hrecipient,
    bind_of_eq_some hnonce, bind_of_eq_some hvalue, bind_of_eq_some hsignature,
    bind_of_eq_some hkey, bind_of_eq_some hinput, bind_of_eq_some hlocal, bind_of_eq_some hextra,
    bind_of_eq_some hheight, bind_of_eq_some hkeys, bind_of_eq_some hsignatures]
  rfl

/-- **Transactions are read back** from the texts that they are written as. -/
theorem ofText_render (tx : Transaction) :
    JsonReader.ofText read (Utf8.bytes tx.toJson.render) = some tx := by
  rw [Json.ofText_render tx.writable_toJson, read_toJson]

end Transaction

end ChainClient
