import ChainClient.Proofs.Abi.Interface
import ChainClient.Proofs.NameMap

/-!
# `ChainClient.Proofs.Abi.Description` — what a description says, and the interface read from it

Entries are read one after the other into an interface. What one entry says does not depend on the
others, and what the interface holds of them is said here without the reader: of each name the last
function and event, the last constructor, and whether there is a fallback.

## Contents
- **Parameters.** `ParamEntry.Describes` and `ParamEntry.Fails` say which type an entry has and what
  is wrong with one that has none; the readers go by them (`ofEntries_eq_ok_iff_describes` and
  `Param.ofEntries_eq_error_iff`).
- **Entries.** `Entry.Describes` and `Entry.Fails` do so for entries, `item_eq_ok_iff` and
  `item_eq_error_iff` for their reader.
- **Interfaces.** `addEntry_eq` takes a step of the run apart into the reading of an entry and
  `Interface.add`. `Indexes` says what an interface holds of entries: `Indexes.add` is the step,
  `Indexes.foldl_add` the run, and `Indexes.unique` says that it leaves nothing open.
- **Descriptions.** `indexes_of_ofEntries` and the lemmas around it are about whole descriptions,
  and `ofEntries_indexes` has them together.
-/

namespace ChainClient.Abi

/-! ## Parameters -/

namespace ParamEntry

/-- **The type that an entry describes**, whose fields have to be described as well. -/
inductive Describes : ParamEntry → AbiType → Prop where
  | intro {name typeName : String} {indexed : Bool} {fields : List (ParamEntry × AbiType)}
      {type : AbiType} (hfields : ∀ field ∈ fields, Describes field.1 field.2)
      (htype : AbiType.parseWith (fields.map Prod.snd) typeName = .ok type) :
      Describes ⟨name, typeName, fields.map Prod.fst, indexed⟩ type

/-- Whether an entry describes a type. -/
def IsReadable (entry : ParamEntry) : Prop := ∃ type, entry.Describes type

/-- **What is wrong with an entry**: what is wrong with the first of its fields with which anything
    is, or else with the name of its type. -/
inductive Fails : ParamEntry → AbiError → Prop where
  | field {name typeName : String} {indexed : Bool} {front rest : List ParamEntry}
      {bad : ParamEntry} {e : AbiError} (hfront : ∀ field ∈ front, field.IsReadable)
      (hbad : Fails bad e) : Fails ⟨name, typeName, front ++ bad :: rest, indexed⟩ e
  | type {name typeName : String} {indexed : Bool} {fields : List (ParamEntry × AbiType)}
      {e : AbiError} (hfields : ∀ field ∈ fields, field.1.Describes field.2)
      (htype : AbiType.parseWith (fields.map Prod.snd) typeName = .error e) :
      Fails ⟨name, typeName, fields.map Prod.fst, indexed⟩ e

/-- What is wrong with the first of several entries with which anything is. -/
def FirstFails (entries : List ParamEntry) (e : AbiError) : Prop :=
  ∃ front bad rest, entries = front ++ bad :: rest ∧ (∀ entry ∈ front, entry.IsReadable) ∧
    bad.Fails e

/-- A parameter with the name, the type and the mark that an entry describes. -/
structure DescribesParam (entry : ParamEntry) (param : Param) : Prop where
  name : param.name = entry.name
  type : entry.Describes param.type
  indexed : param.indexed = entry.indexed

end ParamEntry

namespace Param

open ParamEntry (FirstFails DescribesParam)

theorem ofEntries_eq_mapM (entries : List ParamEntry) :
    ofEntries entries = entries.mapM ofEntry := by
  induction entries with
  | nil => rfl
  | cons entry entries ih =>
    rw [ofEntries, List.mapM_cons, ih]
    cases ofEntry entry with
    | error e => rfl
    | ok param =>
      simp only [bind, Except.bind]
      cases entries.mapM ofEntry with
      | error e => rfl
      | ok params => rfl

/-- The fields are read first, and then the name of the type. -/
theorem ofEntry_eq_bind (name typeName : String) (components : List ParamEntry) (indexed : Bool) :
    ofEntry ⟨name, typeName, components, indexed⟩ = ofEntries components >>= fun fields =>
      (AbiType.parseWith (types fields) typeName).map fun type => { name, type, indexed } := by
  rw [ofEntry]
  cases ofEntries components with
  | error e => rfl
  | ok fields =>
    simp only [bind, Except.bind, types]
    cases AbiType.parseWith (fields.map Param.type) typeName with
    | error e => rfl
    | ok type => rfl

/-! What an entry describes is read from it. -/

theorem ofEntries_of_forall {fields : List (ParamEntry × AbiType)}
    (h : ∀ field ∈ fields, ofEntry field.1 = .ok ⟨field.1.name, field.2, field.1.indexed⟩) :
    ∃ params, ofEntries (fields.map Prod.fst) = .ok params ∧
      types params = fields.map Prod.snd := by
  refine ⟨fields.map fun field => ⟨field.1.name, field.2, field.1.indexed⟩, ?_, ?_⟩
  · rw [ofEntries_eq_mapM, Outcome.mapM_eq_ok_iff, List.forall₂_map_left_iff,
      List.forall₂_map_right_iff, List.forall₂_same]
    exact h
  · rw [types, List.map_map]
    rfl

theorem ofEntry_of_describes {entry : ParamEntry} {type : AbiType} (h : entry.Describes type) :
    ofEntry entry = .ok ⟨entry.name, type, entry.indexed⟩ := by
  induction h with
  | intro _ htype ih =>
    obtain ⟨params, hparams, htypes⟩ := ofEntries_of_forall ih
    rw [ofEntry_eq_bind, hparams]
    show (AbiType.parseWith (types params) _).map _ = _
    rw [htypes, htype]
    rfl

theorem ofEntry_of_fails {entry : ParamEntry} {e : AbiError} (h : entry.Fails e) :
    ofEntry entry = .error e := by
  induction h with
  | @field _ _ _ front rest bad e hfront _ ih =>
    have hfields : ofEntries (front ++ bad :: rest) = .error e := by
      rw [ofEntries_eq_mapM, Outcome.mapM_eq_error_iff]
      refine ⟨front, bad, rest, rfl, fun field hfield => ?_, ih⟩
      obtain ⟨type, htype⟩ := hfront field hfield
      exact ⟨_, ofEntry_of_describes htype⟩
    rw [ofEntry_eq_bind, hfields]
    rfl
  | type hfields htype =>
    obtain ⟨params, hparams, htypes⟩ :=
      ofEntries_of_forall fun field hfield => ofEntry_of_describes (hfields field hfield)
    rw [ofEntry_eq_bind, hparams]
    show (AbiType.parseWith (types params) _).map _ = _
    rw [htypes, htype]
    rfl

/-! What is read from an entry it describes. An entry holds entries, so each two statements go down
the entries together. -/

theorem exists_pairs {entries : List ParamEntry} {params : List Param}
    (h : List.Forall₂ DescribesParam entries params) :
    ∃ pairs : List (ParamEntry × AbiType), pairs.map Prod.fst = entries ∧
      pairs.map Prod.snd = types params ∧ ∀ pair ∈ pairs, pair.1.Describes pair.2 := by
  induction h with
  | nil => exact ⟨[], rfl, rfl, List.forall_mem_nil _⟩
  | @cons entry param entries params hparam _ ih =>
    obtain ⟨pairs, rfl, htypes, hpairs⟩ := ih
    refine ⟨(entry, param.type) :: pairs, rfl, ?_, List.forall_mem_cons.mpr ⟨hparam.type, hpairs⟩⟩
    rw [List.map_cons, htypes]
    rfl

mutual

theorem describes_of_ofEntry {param : Param} :
    (entry : ParamEntry) → ofEntry entry = .ok param → entry.DescribesParam param
  | ⟨_, _, components, _⟩, h => by
    obtain ⟨fields, hfields, type, htype, rfl⟩ := ofEntry_eq_ok_iff.mp h
    obtain ⟨pairs, rfl, htypes, hpairs⟩ := exists_pairs (describes_of_ofEntries components hfields)
    exact ⟨rfl, .intro hpairs (htypes ▸ htype), rfl⟩

theorem describes_of_ofEntries {params : List Param} :
    (entries : List ParamEntry) → ofEntries entries = .ok params →
      List.Forall₂ DescribesParam entries params
  | [], h => by
    cases h
    exact .nil
  | entry :: entries, h => by
    obtain ⟨param, hparam, rest, hrest, rfl⟩ := ofEntries_cons_eq_ok_iff.mp h
    exact .cons (describes_of_ofEntry entry hparam) (describes_of_ofEntries entries hrest)

end

mutual

theorem fails_of_ofEntry {e : AbiError} :
    (entry : ParamEntry) → ofEntry entry = .error e → entry.Fails e
  | ⟨name, typeName, components, indexed⟩, h => by
    rw [ofEntry_eq_bind] at h
    rcases Outcome.bind_eq_error_iff.mp h with hcomponents | ⟨fields, hfields, htype⟩
    · obtain ⟨front, bad, rest, rfl, hfront, hbad⟩ := firstFails_of_ofEntries components hcomponents
      exact .field hfront hbad
    · obtain ⟨pairs, rfl, htypes, hpairs⟩ :=
        exists_pairs (describes_of_ofEntries components hfields)
      exact .type hpairs (htypes ▸ Outcome.map_eq_error_iff.mp htype)

theorem firstFails_of_ofEntries {e : AbiError} :
    (entries : List ParamEntry) → ofEntries entries = .error e → FirstFails entries e
  | [], h => nomatch h
  | entry :: entries, h => by
    rw [ofEntries] at h
    split at h
    · next hentry =>
      cases h
      exact ⟨[], entry, entries, rfl, List.forall_mem_nil _, fails_of_ofEntry entry hentry⟩
    · next param hparam =>
      split at h
      · next hentries =>
        cases h
        obtain ⟨front, bad, rest, rfl, hfront, hbad⟩ := firstFails_of_ofEntries entries hentries
        have hreadable : entry.IsReadable := ⟨_, (describes_of_ofEntry entry hparam).type⟩
        exact ⟨entry :: front, bad, rest, rfl, List.forall_mem_cons.mpr ⟨hreadable, hfront⟩, hbad⟩
      · cases h

end

/-- **Parameters.** An entry is read as what it describes. -/
theorem ofEntry_eq_ok_iff_describes {entry : ParamEntry} {param : Param} :
    ofEntry entry = .ok param ↔ entry.DescribesParam param := by
  refine ⟨describes_of_ofEntry entry, ?_⟩
  rintro ⟨hname, htype, hindexed⟩
  rw [ofEntry_of_describes htype, ← hname, ← hindexed]

theorem ofEntries_eq_ok_iff_describes {entries : List ParamEntry} {params : List Param} :
    ofEntries entries = .ok params ↔ List.Forall₂ DescribesParam entries params := by
  rw [ofEntries_eq_mapM, Outcome.mapM_eq_ok_iff]
  constructor
  · exact List.Forall₂.imp fun _ _ => ofEntry_eq_ok_iff_describes.mp
  · exact List.Forall₂.imp fun _ _ => ofEntry_eq_ok_iff_describes.mpr

/-- They are read if each of them describes a type. -/
theorem exists_ofEntries_iff {entries : List ParamEntry} :
    (∃ params, ofEntries entries = .ok params) ↔ ∀ entry ∈ entries, entry.IsReadable := by
  rw [ofEntries_eq_mapM, Outcome.exists_mapM_eq_ok_iff]
  refine forall₂_congr fun entry _ => ⟨?_, ?_⟩
  · rintro ⟨param, hparam⟩
    exact ⟨_, (describes_of_ofEntry entry hparam).type⟩
  · rintro ⟨type, htype⟩
    exact ⟨_, ofEntry_of_describes htype⟩

/-- **Their errors** are those of the first one that is wrong. -/
theorem ofEntries_eq_error_iff {entries : List ParamEntry} {e : AbiError} :
    ofEntries entries = .error e ↔ FirstFails entries e := by
  refine ⟨firstFails_of_ofEntries entries, ?_⟩
  rintro ⟨front, bad, rest, rfl, hfront, hbad⟩
  rw [ofEntries_eq_mapM, Outcome.mapM_eq_error_iff]
  refine ⟨front, bad, rest, rfl, fun entry hentry => ?_, ofEntry_of_fails hbad⟩
  obtain ⟨type, htype⟩ := hfront entry hentry
  exact ⟨_, ofEntry_of_describes htype⟩

end Param

/-! ## Entries -/

/-- What an entry adds to an interface. -/
inductive Item where
  | function (f : Function)
  | constructor (f : Function)
  | event (e : Event)
  | fallback

namespace Entry

/-- The kinds of entries. -/
def kinds : List String := ["function", "constructor", "event", "fallback", "receive"]

/-- The kinds of entries whose results count. -/
def HasOutputs (entry : Entry) : Prop := entry.kind = "function" ∨ entry.kind = "constructor"

/-- The kinds of entries that say that calls without a function are taken. -/
def IsFallback (entry : Entry) : Prop := entry.kind = "fallback" ∨ entry.kind = "receive"

/-- **The entries in which nothing is wrong**: the kind is known, and so is the type of each
    parameter that counts. -/
structure IsReadable (entry : Entry) : Prop where
  kind : entry.kind ∈ kinds
  inputs : ∀ input ∈ entry.inputs, input.IsReadable
  outputs : entry.HasOutputs → ∀ output ∈ entry.outputs, output.IsReadable

/-- **What is wrong with an entry**: what is wrong with the parameters that it takes, or else with
    its kind, or else with the parameters that it returns, if they count. -/
inductive Fails (entry : Entry) : AbiError → Prop where
  | input {e : AbiError} (h : ParamEntry.FirstFails entry.inputs e) : Fails entry e
  | kind (hinputs : ∀ input ∈ entry.inputs, input.IsReadable) (hkind : entry.kind ∉ kinds) :
      Fails entry (.unknownEntry entry.kind)
  | output {e : AbiError} (hinputs : ∀ input ∈ entry.inputs, input.IsReadable)
      (hkind : entry.HasOutputs) (h : ParamEntry.FirstFails entry.outputs e) : Fails entry e

/-- The function that an entry describes, under a name. -/
structure DescribesFunction (entry : Entry) (name : String) (f : Function) : Prop where
  name : f.name = name
  inputs : List.Forall₂ ParamEntry.DescribesParam entry.inputs f.inputs
  outputs : List.Forall₂ ParamEntry.DescribesParam entry.outputs f.outputs
  constant : f.constant = Interface.isConstant entry

/-- The event that an entry describes. -/
structure DescribesEvent (entry : Entry) (e : Event) : Prop where
  name : e.name = entry.name
  inputs : List.Forall₂ ParamEntry.DescribesParam entry.inputs e.inputs
  anonymous : e.anonymous = entry.anonymous

/-- **What an entry describes**, by its kind. -/
inductive Describes (entry : Entry) : Item → Prop where
  | function {f : Function} (hkind : entry.kind = "function")
      (h : entry.DescribesFunction entry.name f) : Describes entry (.function f)
  | constructor {f : Function} (hkind : entry.kind = "constructor")
      (h : entry.DescribesFunction "" f) : Describes entry (.constructor f)
  | event {e : Event} (hkind : entry.kind = "event") (h : entry.DescribesEvent e) :
      Describes entry (.event e)
  | fallback (hkind : entry.IsFallback) (hinputs : ∀ input ∈ entry.inputs, input.IsReadable) :
      Describes entry .fallback

/-- What an entry adds, read apart from the interface. -/
def item (entry : Entry) : Except AbiError Item := do
  let inputs ← Param.ofEntries entry.inputs
  if entry.kind = "function" then
    (Interface.functionOf entry.name entry inputs).map .function
  else if entry.kind = "constructor" then
    (Interface.functionOf "" entry inputs).map .constructor
  else if entry.kind = "event" then
    return .event { name := entry.name, inputs, anonymous := entry.anonymous }
  else if entry.kind = "fallback" ∨ entry.kind = "receive" then
    return .fallback
  else throw (.unknownEntry entry.kind)

end Entry

namespace Interface

theorem functionOf_eq_map (name : String) (entry : Entry) (inputs : List Param) :
    functionOf name entry inputs = (Param.ofEntries entry.outputs).map fun outputs =>
      { name, inputs, outputs, constant := isConstant entry } := by
  rw [functionOf]
  cases Param.ofEntries entry.outputs with
  | error e => rfl
  | ok outputs => rfl

/-- A function is read as the one that is described. -/
theorem describesFunction_iff {entry : Entry} {name : String} {f : Function} :
    entry.DescribesFunction name f ↔ ∃ inputs, Param.ofEntries entry.inputs = .ok inputs ∧
      functionOf name entry inputs = .ok f := by
  constructor
  · rintro ⟨rfl, hinputs, houtputs, hconstant⟩
    refine ⟨f.inputs, Param.ofEntries_eq_ok_iff_describes.mpr hinputs, ?_⟩
    rw [functionOf_eq_map, Param.ofEntries_eq_ok_iff_describes.mpr houtputs, ← hconstant]
    rfl
  · rintro ⟨inputs, hinputs, hf⟩
    rw [functionOf_eq_map] at hf
    obtain ⟨outputs, houtputs, rfl⟩ := Outcome.map_eq_ok_iff.mp hf
    exact ⟨rfl, Param.ofEntries_eq_ok_iff_describes.mp hinputs,
      Param.ofEntries_eq_ok_iff_describes.mp houtputs, rfl⟩

end Interface

namespace Entry

theorem DescribesFunction.unique {entry : Entry} {name : String} {f g : Function}
    (hf : entry.DescribesFunction name f) (hg : entry.DescribesFunction name g) : f = g := by
  obtain ⟨inputs, hinputs, hread⟩ := Interface.describesFunction_iff.mp hf
  obtain ⟨others, hothers, hread'⟩ := Interface.describesFunction_iff.mp hg
  rw [hinputs] at hothers
  cases hothers
  rw [hread] at hread'
  exact Except.ok.inj hread'

theorem DescribesEvent.unique {entry : Entry} {e e' : Event} (h : entry.DescribesEvent e)
    (h' : entry.DescribesEvent e') : e = e' := by
  have hinputs := Param.ofEntries_eq_ok_iff_describes.mpr h.inputs
  rw [Param.ofEntries_eq_ok_iff_describes.mpr h'.inputs, Except.ok.injEq] at hinputs
  obtain ⟨name, inputs, anonymous⟩ := e
  obtain ⟨name', inputs', anonymous'⟩ := e'
  obtain rfl : name = name' := h.name.trans h'.name.symm
  obtain rfl : inputs' = inputs := hinputs
  obtain rfl : anonymous = anonymous' := h.anonymous.trans h'.anonymous.symm
  rfl

/-- **Entries.** An entry is read as what it describes. -/
theorem item_eq_ok_iff {entry : Entry} {item : Item} :
    entry.item = .ok item ↔ entry.Describes item := by
  constructor
  · intro h
    obtain ⟨inputs, hinputs, hrest⟩ := Outcome.bind_eq_ok_iff.mp h
    split at hrest
    · next hkind =>
      obtain ⟨f, hf, rfl⟩ := Outcome.map_eq_ok_iff.mp hrest
      exact .function hkind (Interface.describesFunction_iff.mpr ⟨inputs, hinputs, hf⟩)
    split at hrest
    · next hkind =>
      obtain ⟨f, hf, rfl⟩ := Outcome.map_eq_ok_iff.mp hrest
      exact .constructor hkind (Interface.describesFunction_iff.mpr ⟨inputs, hinputs, hf⟩)
    split at hrest
    · next hkind =>
      cases hrest
      exact .event hkind ⟨rfl, Param.ofEntries_eq_ok_iff_describes.mp hinputs, rfl⟩
    split at hrest
    · next hkind =>
      cases hrest
      exact .fallback hkind (Param.exists_ofEntries_iff.mp ⟨inputs, hinputs⟩)
    · cases hrest
  · intro h
    cases h with
    | function hkind h =>
      obtain ⟨inputs, hinputs, hf⟩ := Interface.describesFunction_iff.mp h
      refine Outcome.bind_eq_ok_iff.mpr ⟨inputs, hinputs, ?_⟩
      rw [if_pos hkind, hf]
      rfl
    | constructor hkind h =>
      obtain ⟨inputs, hinputs, hf⟩ := Interface.describesFunction_iff.mp h
      refine Outcome.bind_eq_ok_iff.mpr ⟨inputs, hinputs, ?_⟩
      rw [if_neg (by rw [hkind]; decide), if_pos hkind, hf]
      rfl
    | @event e hkind h =>
      obtain ⟨name, inputs, anonymous⟩ := e
      obtain ⟨rfl, hinputs, rfl⟩ := h
      refine Outcome.bind_eq_ok_iff.mpr
        ⟨inputs, Param.ofEntries_eq_ok_iff_describes.mpr hinputs, ?_⟩
      rw [if_neg (by rw [hkind]; decide), if_neg (by rw [hkind]; decide), if_pos hkind]
      rfl
    | fallback hkind hinputs =>
      obtain ⟨inputs, hinputs⟩ := Param.exists_ofEntries_iff.mpr hinputs
      refine Outcome.bind_eq_ok_iff.mpr ⟨inputs, hinputs, ?_⟩
      have hother : ∀ kind, kind ≠ "fallback" → kind ≠ "receive" → entry.kind ≠ kind := by
        rintro _ hfallback hreceive rfl
        exact hkind.elim hfallback hreceive
      rw [if_neg (hother _ (by decide) (by decide)), if_neg (hother _ (by decide) (by decide)),
        if_neg (hother _ (by decide) (by decide)), if_pos (show _ ∨ _ from hkind)]
      rfl

/-- **Their errors.** Reading an entry fails as the entry does. -/
theorem item_eq_error_iff {entry : Entry} {e : AbiError} :
    entry.item = .error e ↔ entry.Fails e := by
  constructor
  · intro h
    rcases Outcome.bind_eq_error_iff.mp h with hinputs | ⟨inputs, hinputs, hrest⟩
    · exact .input (Param.ofEntries_eq_error_iff.mp hinputs)
    have hreadable := Param.exists_ofEntries_iff.mp ⟨inputs, hinputs⟩
    split at hrest
    · next hkind =>
      rw [Outcome.map_eq_error_iff, Interface.functionOf_eq_map, Outcome.map_eq_error_iff] at hrest
      exact .output hreadable (.inl hkind) (Param.ofEntries_eq_error_iff.mp hrest)
    next hfunction =>
    split at hrest
    · next hkind =>
      rw [Outcome.map_eq_error_iff, Interface.functionOf_eq_map, Outcome.map_eq_error_iff] at hrest
      exact .output hreadable (.inr hkind) (Param.ofEntries_eq_error_iff.mp hrest)
    next hconstructor =>
    split at hrest
    · cases hrest
    next hevent =>
    split at hrest
    · cases hrest
    next hfallback =>
    cases hrest
    refine .kind hreadable ?_
    simp only [kinds, List.mem_cons, List.not_mem_nil, or_false]
    rintro (hkind | hkind | hkind | hkind)
    · exact hfunction hkind
    · exact hconstructor hkind
    · exact hevent hkind
    · exact hfallback hkind
  · intro h
    cases h with
    | input h => exact Outcome.bind_eq_error_iff.mpr (.inl (Param.ofEntries_eq_error_iff.mpr h))
    | kind hreadable hkind =>
      obtain ⟨inputs, hinputs⟩ := Param.exists_ofEntries_iff.mpr hreadable
      refine Outcome.bind_eq_error_iff.mpr (.inr ⟨inputs, hinputs, ?_⟩)
      have hother : ∀ kind ∈ kinds, entry.kind ≠ kind := by
        rintro _ hmem rfl
        exact hkind hmem
      rw [if_neg (hother _ (by decide)), if_neg (hother _ (by decide)),
        if_neg (hother _ (by decide)),
        if_neg (not_or.mpr ⟨hother _ (by decide), hother _ (by decide)⟩)]
      rfl
    | output hreadable hkind h =>
      obtain ⟨inputs, hinputs⟩ := Param.exists_ofEntries_iff.mpr hreadable
      refine Outcome.bind_eq_error_iff.mpr (.inr ⟨inputs, hinputs, ?_⟩)
      have hfails (name : String) : Interface.functionOf name entry inputs = .error e := by
        rw [Interface.functionOf_eq_map, Param.ofEntries_eq_error_iff.mpr h]
        rfl
      rcases hkind with hkind | hkind
      · rw [if_pos hkind, hfails]
        rfl
      · rw [if_neg (by rw [hkind]; decide), if_pos hkind, hfails]
        rfl

theorem readable_of_forall₂ {entries : List ParamEntry} {params : List Param}
    (h : List.Forall₂ ParamEntry.DescribesParam entries params) :
    ∀ entry ∈ entries, entry.IsReadable :=
  Param.exists_ofEntries_iff.mp ⟨params, Param.ofEntries_eq_ok_iff_describes.mpr h⟩

/-- **The entries that are read** are those in which nothing is wrong. -/
theorem exists_item_iff {entry : Entry} :
    (∃ item, entry.item = .ok item) ↔ entry.IsReadable := by
  constructor
  · rintro ⟨item, h⟩
    -- the results of events and of entries without a name do not count
    have hkinds {kind : String} (hkind : entry.kind = kind) (hmem : kind ∈ kinds) :
        entry.kind ∈ kinds := hkind ▸ hmem
    have hnone {kind : String} (hkind : entry.kind = kind) (hfunction : kind ≠ "function")
        (hconstructor : kind ≠ "constructor") : ¬ entry.HasOutputs :=
      fun h => h.elim (hkind ▸ hfunction) (hkind ▸ hconstructor)
    cases item_eq_ok_iff.mp h with
    | function hkind hf =>
      exact ⟨hkinds hkind (by decide), readable_of_forall₂ hf.inputs, fun _ =>
        readable_of_forall₂ hf.outputs⟩
    | constructor hkind hf =>
      exact ⟨hkinds hkind (by decide), readable_of_forall₂ hf.inputs, fun _ =>
        readable_of_forall₂ hf.outputs⟩
    | event hkind he =>
      exact ⟨hkinds hkind (by decide), readable_of_forall₂ he.inputs, fun hhas =>
        absurd hhas (hnone hkind (by decide) (by decide))⟩
    | fallback hkind hinputs =>
      refine ⟨?_, hinputs, fun hhas => ?_⟩
      · exact hkind.elim (hkinds · (by decide)) (hkinds · (by decide))
      · exact absurd hhas (hkind.elim (hnone · (by decide) (by decide))
          (hnone · (by decide) (by decide)))
  · rintro ⟨hkind, hinputs, houtputs⟩
    cases h : entry.item with
    | ok item => exact ⟨item, rfl⟩
    | error e =>
      have hunreadable : ∀ params, (∀ param ∈ params, ParamEntry.IsReadable param) →
          ¬ ParamEntry.FirstFails params e := by
        intro params hparams hfails
        obtain ⟨read, hread⟩ := Param.exists_ofEntries_iff.mpr hparams
        rw [Param.ofEntries_eq_error_iff.mpr hfails] at hread
        cases hread
      cases item_eq_error_iff.mp h with
      | input h => exact absurd h (hunreadable _ hinputs)
      | kind _ hunknown => exact absurd hkind hunknown
      | output _ hhas h => exact absurd h (hunreadable _ (houtputs hhas))

end Entry

/-! ## Interfaces -/

namespace Interface

/-- The interface with one more item. -/
def add (interface : Interface) : Item → Interface
  | .function f => { interface with functions := interface.functions.insert f.name f }
  | .constructor f => { interface with constructor? := some f }
  | .event e => { interface with events := interface.events.insert e.name e }
  | .fallback => { interface with fallback := true }

/-- **A step of the run**: an entry is read, and what it adds is put into the interface. -/
theorem addEntry_eq (interface : Interface) (entry : Entry) :
    interface.addEntry entry = entry.item.map interface.add := by
  rw [addEntry, Entry.item]
  cases Param.ofEntries entry.inputs with
  | error e => rfl
  | ok inputs =>
    simp only [bind, Except.bind, functionOf_eq_map]
    split
    · cases Param.ofEntries entry.outputs with
      | error e => rfl
      | ok outputs => rfl
    split
    · cases Param.ofEntries entry.outputs with
      | error e => rfl
      | ok outputs => rfl
    split
    · rfl
    split
    · rfl
    · rfl

theorem ofEntries_eq_map (entries : List Entry) : ofEntries entries =
    (entries.mapM Entry.item).map fun items => items.foldl add {} :=
  Outcome.foldlM_eq_map_mapM addEntry_eq entries {}

end Interface

namespace Entry

/-- Whether an entry is of a kind and has a name. -/
def isNamed (kind name : String) (entry : Entry) : Bool :=
  entry.kind = kind ∧ entry.name = name

/-- Whether an entry is a constructor. -/
def isConstructor (entry : Entry) : Bool := entry.kind = "constructor"

theorem isNamed_iff {kind name : String} {entry : Entry} :
    entry.isNamed kind name = true ↔ entry.kind = kind ∧ entry.name = name :=
  decide_eq_true_iff

theorem isConstructor_iff {entry : Entry} :
    entry.isConstructor = true ↔ entry.kind = "constructor" :=
  decide_eq_true_iff

end Entry

/-- **What a map holds of the entries of a kind**: a value for each of their names, which the last
    entry of that name describes. -/
structure IndexesKind {α : Type} (kind : String) (describes : Entry → α → Prop) (map : NameMap α)
    (entries : List Entry) : Prop where
  sorted : map.Sorted
  names (name : String) :
    name ∈ map.map Prod.fst ↔ ∃ entry ∈ entries, entry.isNamed kind name = true
  values (name : String) (value : α) : map.find? name = some value ↔
    ∃ entry, (entries.filter (·.isNamed kind name)).getLast? = some entry ∧ describes entry value

/-- **What an interface holds of entries.** -/
structure Indexes (interface : Interface) (entries : List Entry) : Prop where
  functions : IndexesKind "function" (fun entry f => entry.DescribesFunction entry.name f)
    interface.functions entries
  events : IndexesKind "event" Entry.DescribesEvent interface.events entries
  constructor? (f : Function) : interface.constructor? = some f ↔
    ∃ entry, (entries.filter Entry.isConstructor).getLast? = some entry ∧
      entry.DescribesFunction "" f
  fallback : interface.fallback = true ↔ ∃ entry ∈ entries, entry.IsFallback

/-- The last of the entries that pass a test, when one more entry comes. -/
theorem getLast?_filter_concat {α : Type} (p : α → Bool) (as : List α) (a : α) :
    ((as ++ [a]).filter p).getLast? = if p a = true then some a else (as.filter p).getLast? := by
  rw [List.filter_append]
  split
  · next h => rw [List.filter_cons_of_pos h, List.filter_nil, List.getLast?_concat]
  · next h => rw [List.filter_cons_of_neg h, List.filter_nil, List.append_nil]

theorem exists_mem_concat_iff {α : Type} {p : α → Prop} {as : List α} {a : α} :
    (∃ x ∈ as ++ [a], p x) ↔ (∃ x ∈ as, p x) ∨ p a := by
  simp only [List.mem_append, List.mem_singleton, or_and_right, exists_or, exists_eq_left]

namespace IndexesKind

variable {α : Type} {kind : String} {describes : Entry → α → Prop} {map : NameMap α}
  {entries : List Entry} {entry : Entry}

/-- An entry of another kind changes nothing. -/
theorem skip (h : IndexesKind kind describes map entries) (hkind : entry.kind ≠ kind) :
    IndexesKind kind describes map (entries ++ [entry]) := by
  have hnot (name : String) : ¬ entry.isNamed kind name = true := fun hnamed =>
    hkind (Entry.isNamed_iff.mp hnamed).1
  refine ⟨h.sorted, fun name => ?_, fun name value => ?_⟩
  · rw [h.names, exists_mem_concat_iff, or_iff_left (hnot name)]
  · rw [h.values, getLast?_filter_concat, if_neg (hnot name)]

/-- An entry of the kind takes the place of one of its name. -/
theorem insert (h : IndexesKind kind describes map entries) (hkind : entry.kind = kind) {value : α}
    (hvalue : ∀ other, describes entry other ↔ value = other) :
    IndexesKind kind describes (map.insert entry.name value) (entries ++ [entry]) := by
  have hnamed (name : String) : entry.isNamed kind name = true ↔ name = entry.name :=
    Entry.isNamed_iff.trans ((and_iff_right hkind).trans eq_comm)
  refine ⟨NameMap.sorted_insert h.sorted _ _, fun name => ?_, fun name other => ?_⟩
  · rw [NameMap.mem_names_insert, h.names, exists_mem_concat_iff, hnamed, or_comm]
  · rw [NameMap.find?_insert, getLast?_filter_concat]
    by_cases hname : name = entry.name
    · rw [if_pos hname, if_pos ((hnamed name).mpr hname)]
      simp only [Option.some.injEq, exists_eq_left', hvalue]
    · rw [if_neg hname, if_neg (mt (hnamed name).mp hname)]
      exact h.values name other

theorem nil : IndexesKind kind describes [] [] where
  sorted := .nil
  names name := by simp
  values _ _ := ⟨fun h => (nomatch h), fun ⟨_, h, _⟩ => (nomatch h)⟩

/-- What is said of a map leaves nothing open, and does not go beyond the order of the entries of
    each name. -/
theorem unique (h : IndexesKind kind describes map entries) {other : NameMap α}
    {others : List Entry} (hother : IndexesKind kind describes other others)
    (horder : ∀ name, entries.filter (·.isNamed kind name) = others.filter (·.isNamed kind name)) :
    map = other := by
  refine NameMap.eq_of_find? h.sorted hother.sorted fun name => Option.ext fun value => ?_
  rw [h.values, hother.values, horder]

end IndexesKind

namespace Indexes

variable {interface : Interface} {entries : List Entry} {entry : Entry}

theorem nil : Indexes {} [] where
  functions := .nil
  events := .nil
  constructor? _ := ⟨fun h => (nomatch h), fun ⟨_, h, _⟩ => (nomatch h)⟩
  fallback := ⟨fun h => (nomatch h), fun ⟨_, h, _⟩ => (nomatch h)⟩

/-- An entry of another kind leaves the constructor as it is. -/
theorem skipConstructor (h : Indexes interface entries) (hkind : entry.kind ≠ "constructor")
    (f : Function) : interface.constructor? = some f ↔
      ∃ last, ((entries ++ [entry]).filter Entry.isConstructor).getLast? = some last ∧
        last.DescribesFunction "" f := by
  rw [h.constructor?, getLast?_filter_concat, if_neg (mt Entry.isConstructor_iff.mp hkind)]

/-- An entry of another kind says nothing of a fallback. -/
theorem skipFallback (h : Indexes interface entries) (hkind : ¬ entry.IsFallback) :
    interface.fallback = true ↔ ∃ other ∈ entries ++ [entry], other.IsFallback := by
  rw [h.fallback, exists_mem_concat_iff, or_iff_left hkind]

/-- **One more entry.** -/
theorem add (h : Indexes interface entries) {item : Item} (hitem : entry.Describes item) :
    Indexes (interface.add item) (entries ++ [entry]) := by
  have hnot {kind : String} (hkind : entry.kind = kind) (hfallback : kind ≠ "fallback")
      (hreceive : kind ≠ "receive") : ¬ entry.IsFallback :=
    fun h => h.elim (hkind ▸ hfallback) (hkind ▸ hreceive)
  cases hitem with
  | @function f hkind hf =>
    refine ⟨?_, h.events.skip (by rw [hkind]; decide),
      h.skipConstructor (by rw [hkind]; decide),
      h.skipFallback (hnot hkind (by decide) (by decide))⟩
    have hinsert := h.functions.insert hkind fun g =>
      ⟨fun hg => hf.unique hg, fun hg => hg ▸ hf⟩
    rwa [← hf.name] at hinsert
  | @constructor f hkind hf =>
    refine ⟨h.functions.skip (by rw [hkind]; decide), h.events.skip (by rw [hkind]; decide),
      fun g => ?_, h.skipFallback (hnot hkind (by decide) (by decide))⟩
    rw [getLast?_filter_concat, if_pos (Entry.isConstructor_iff.mpr hkind)]
    constructor
    · intro hg
      cases hg
      exact ⟨entry, rfl, hf⟩
    · rintro ⟨last, hlast, hg⟩
      cases hlast
      exact congrArg some (hf.unique hg)
  | @event e hkind he =>
    refine ⟨h.functions.skip (by rw [hkind]; decide), ?_, h.skipConstructor (by rw [hkind]; decide),
      h.skipFallback (hnot hkind (by decide) (by decide))⟩
    have hinsert := h.events.insert hkind fun e' =>
      ⟨fun he' => he.unique he', fun he' => he' ▸ he⟩
    rwa [← he.name] at hinsert
  | fallback hkind _ =>
    have hother {kind : String} (hfallback : kind ≠ "fallback") (hreceive : kind ≠ "receive") :
        entry.kind ≠ kind := fun heq => hnot heq hfallback hreceive hkind
    refine ⟨h.functions.skip (hother (by decide) (by decide)),
      h.events.skip (hother (by decide) (by decide)),
      h.skipConstructor (hother (by decide) (by decide)), ?_⟩
    exact ⟨fun _ => ⟨entry, List.mem_append_right entries List.mem_cons_self, hkind⟩, fun _ => rfl⟩

/-- **A run** over more entries. -/
theorem foldl_add {rest : List Entry} {items : List Item}
    (hitems : List.Forall₂ Entry.Describes rest items) (h : Indexes interface entries) :
    Indexes (items.foldl Interface.add interface) (entries ++ rest) := by
  induction hitems generalizing interface entries with
  | nil =>
    rw [List.append_nil]
    exact h
  | cons hitem _ ih =>
    rw [List.append_cons]
    exact ih (h.add hitem)

/-- What is said of an interface leaves nothing open, and does not go beyond the order of functions
    of one name, of events of one name and of constructors. -/
theorem unique (h : Indexes interface entries) {other : Interface} {others : List Entry}
    (hother : Indexes other others) (hmem : ∀ entry, entry ∈ entries ↔ entry ∈ others)
    (hfunctions : ∀ name, entries.filter (·.isNamed "function" name) =
      others.filter (·.isNamed "function" name))
    (hevents : ∀ name, entries.filter (·.isNamed "event" name) =
      others.filter (·.isNamed "event" name))
    (hconstructors : entries.filter Entry.isConstructor = others.filter Entry.isConstructor) :
    interface = other := by
  have hfunctionsSame := h.functions.unique hother.functions hfunctions
  have heventsSame := h.events.unique hother.events hevents
  have hconstructor? : interface.constructor? = other.constructor? := by
    refine Option.ext fun f => ?_
    rw [h.constructor?, hother.constructor?, hconstructors]
  have hfallback : interface.fallback = other.fallback := by
    rw [Bool.eq_iff_iff, h.fallback, hother.fallback]
    simp only [hmem]
  obtain ⟨constructor?, functions, events, fallback⟩ := interface
  obtain ⟨constructor?', functions', events', fallback'⟩ := other
  exact Interface.mk.injEq .. ▸ ⟨hconstructor?, hfunctionsSame, heventsSame, hfallback⟩

end Indexes

/-! ## Descriptions -/

namespace Interface

/-- **A description is read** if nothing is wrong with any of its entries. -/
theorem exists_ofEntries_iff {entries : List Entry} :
    (∃ interface, ofEntries entries = .ok interface) ↔ ∀ entry ∈ entries, entry.IsReadable := by
  constructor
  · rintro ⟨interface, h⟩ entry hentry
    rw [ofEntries_eq_map] at h
    obtain ⟨items, hitems, -⟩ := Outcome.map_eq_ok_iff.mp h
    exact Entry.exists_item_iff.mp (Outcome.exists_mapM_eq_ok_iff.mp ⟨items, hitems⟩ entry hentry)
  · intro h
    obtain ⟨items, hitems⟩ := Outcome.exists_mapM_eq_ok_iff.mpr fun entry hentry =>
      Entry.exists_item_iff.mpr (h entry hentry)
    rw [ofEntries_eq_map, hitems]
    exact ⟨_, rfl⟩

/-- **It is refused** for what is wrong with the first entry with which anything is. -/
theorem ofEntries_eq_error_iff {entries : List Entry} {e : AbiError} :
    ofEntries entries = .error e ↔ ∃ front bad rest, entries = front ++ bad :: rest ∧
      (∀ entry ∈ front, entry.IsReadable) ∧ bad.Fails e := by
  simp only [ofEntries_eq_map, Outcome.map_eq_error_iff, Outcome.mapM_eq_error_iff,
    Entry.exists_item_iff, Entry.item_eq_error_iff]

/-- **What is read** holds of the entries what it should. -/
theorem indexes_of_ofEntries {entries : List Entry} {interface : Interface}
    (h : ofEntries entries = .ok interface) : Indexes interface entries := by
  rw [ofEntries_eq_map] at h
  obtain ⟨items, hitems, rfl⟩ := Outcome.map_eq_ok_iff.mp h
  have hdescribes := (Outcome.mapM_eq_ok_iff.mp hitems).imp fun _ _ => Entry.item_eq_ok_iff.mp
  exact Indexes.nil.foldl_add hdescribes

/-- **Order.** Entries may change places, but functions of one name, events of one name and
    constructors not among themselves. -/
theorem ofEntries_of_perm {entries others : List Entry} {interface : Interface}
    (h : ofEntries entries = .ok interface) (hperm : entries.Perm others)
    (hfunctions : ∀ name, entries.filter (·.isNamed "function" name) =
      others.filter (·.isNamed "function" name))
    (hevents : ∀ name, entries.filter (·.isNamed "event" name) =
      others.filter (·.isNamed "event" name))
    (hconstructors : entries.filter Entry.isConstructor = others.filter Entry.isConstructor) :
    ofEntries others = .ok interface := by
  have hreadable := exists_ofEntries_iff.mp ⟨interface, h⟩
  obtain ⟨other, hother⟩ := exists_ofEntries_iff.mpr fun entry hentry =>
    hreadable entry (hperm.mem_iff.mpr hentry)
  rw [(indexes_of_ofEntries h).unique (indexes_of_ofEntries hother) (fun _ => hperm.mem_iff)
    hfunctions hevents hconstructors]
  exact hother

/-- Functions and events stand under their own names. -/
theorem name_of_ofEntries {entries : List Entry} {interface : Interface}
    (h : ofEntries entries = .ok interface) (name : String) :
    (∀ f, interface.functions.find? name = some f → f.name = name) ∧
      ∀ e, interface.events.find? name = some e → e.name = name := by
  have hindexes := indexes_of_ofEntries h
  have hname {kind : String} {entry : Entry}
      (hlast : (entries.filter (·.isNamed kind name)).getLast? = some entry) : entry.name = name :=
    (Entry.isNamed_iff.mp (List.of_mem_filter (List.mem_of_getLast? hlast))).2
  refine ⟨fun f hf => ?_, fun e he => ?_⟩
  · obtain ⟨entry, hlast, hdescribes⟩ := (hindexes.functions.values name f).mp hf
    exact hdescribes.name.trans (hname hlast)
  · obtain ⟨entry, hlast, hdescribes⟩ := (hindexes.events.values name e).mp he
    exact hdescribes.name.trans (hname hlast)

end Interface

/-- An entry without a kind is a function. -/
theorem Entry.kind_of_read {place : JsonReader.Place} {source : JsonSource}
    {record : JsonReader.Fields} {entry : Entry}
    (hfields : JsonReader.fields Entry.fieldNames place source = some record)
    (hnone : record.find? "type" = none) (h : Entry.read place source = some entry) :
    entry.kind = "function" := by
  rw [Entry.read, Outcome.bind_of_eq_some hfields] at h
  obtain ⟨kind, hkind, h⟩ := Option.bind_eq_some_iff.mp h
  rw [JsonReader.Fields.orElse, hnone] at hkind
  cases hkind
  obtain ⟨name, -, h⟩ := Option.bind_eq_some_iff.mp h
  obtain ⟨inputs, -, h⟩ := Option.bind_eq_some_iff.mp h
  obtain ⟨outputs, -, h⟩ := Option.bind_eq_some_iff.mp h
  obtain ⟨constant, -, h⟩ := Option.bind_eq_some_iff.mp h
  obtain ⟨mutability?, -, h⟩ := Option.bind_eq_some_iff.mp h
  obtain ⟨anonymous, -, h⟩ := Option.bind_eq_some_iff.mp h
  cases h
  rfl

/-- **Descriptions.** They are read just if every entry is of a known kind and every type in it that
    counts is one, and otherwise refused for the first entry that is not so. The interface holds of
    each name the last function and the last event, under that name, the last constructor without a
    name, and whether there is a fallback. Only the order of functions of one name, of events of one
    name and of constructors matters. An entry without a kind is a function. -/
theorem ofEntries_indexes :
    (∀ entries : List Entry, (∃ interface, Interface.ofEntries entries = .ok interface) ↔
      ∀ entry ∈ entries, entry.IsReadable) ∧
    (∀ (entries : List Entry) (e : AbiError), Interface.ofEntries entries = .error e ↔
      ∃ front bad rest, entries = front ++ bad :: rest ∧ (∀ entry ∈ front, entry.IsReadable) ∧
        bad.Fails e) ∧
    (∀ (entries : List Entry) (interface : Interface), Interface.ofEntries entries = .ok interface →
      Indexes interface entries ∧ ∀ name,
        (∀ f, interface.functions.find? name = some f → f.name = name) ∧
        ∀ e, interface.events.find? name = some e → e.name = name) ∧
    (∀ (entries others : List Entry) (interface : Interface),
      Interface.ofEntries entries = .ok interface → entries.Perm others →
        (∀ name, entries.filter (·.isNamed "function" name) =
          others.filter (·.isNamed "function" name)) →
        (∀ name, entries.filter (·.isNamed "event" name) =
          others.filter (·.isNamed "event" name)) →
        entries.filter Entry.isConstructor = others.filter Entry.isConstructor →
          Interface.ofEntries others = .ok interface) ∧
    (∀ (description : String) (entries : List Entry), Entry.readAll description = some entries →
      Interface.ofJson description = Interface.ofEntries entries) ∧
    (∀ (place : JsonReader.Place) (source : JsonSource) (record : JsonReader.Fields)
      (entry : Entry), JsonReader.fields Entry.fieldNames place source = some record →
        record.find? "type" = none → Entry.read place source = some entry →
          entry.kind = "function") := by
  refine ⟨fun _ => Interface.exists_ofEntries_iff, fun _ _ => Interface.ofEntries_eq_error_iff,
    fun _ _ h => ⟨Interface.indexes_of_ofEntries h, Interface.name_of_ofEntries h⟩,
    fun _ _ _ => Interface.ofEntries_of_perm, fun description entries h => ?_,
    fun _ _ _ _ => Entry.kind_of_read⟩
  rw [Interface.ofJson, h]

/-- A function in the place of another one of its name, and a way to take other calls. -/
theorem ofEntries_indexes_of_overload :
    let entries : List Entry := [pairEntry, { name := "f" }, { kind := "receive" }]
    let interface : Interface := { functions := [("f", ⟨"f", [], [], false⟩)], fallback := true }
    (∀ entry ∈ entries, entry.IsReadable) ∧ Indexes interface entries ∧
    Interface.ofEntries [{ kind := "receive" }, pairEntry, { name := "f" }] = .ok interface ∧
    Interface.ofEntries (entries ++ [{ kind := "error" }]) = .error (.unknownEntry "error") ∧
    Interface.ofJson pairDescription.render = Interface.ofEntries [pairEntry] ∧
    ∃ entry, Entry.read ⟨some 1, false⟩ (.object [(some "name", .string (some "f"))]) = some entry ∧
      entry.kind = "function" := by
  intro entries interface
  obtain ⟨hreadable, herror, hindexes, hperm, hjson, hkind⟩ := ofEntries_indexes
  have hread : Interface.ofEntries entries = .ok interface := by
    simp only [entries, Interface.ofEntries, List.foldlM_cons, Interface.addEntry,
      ofEntries_pairEntry]
    rfl
  have hall := (hreadable entries).mp ⟨interface, hread⟩
  refine ⟨hall, (hindexes _ _ hread).1, ?_, ?_, hjson _ _ readAll_pairDescription, ?_⟩
  · refine hperm entries _ interface hread ?_ (fun _ => rfl) (fun _ => rfl) rfl
    exact @List.perm_append_comm _ [pairEntry, { name := "f" }] [{ kind := "receive" }]
  · exact (herror _ _).mpr ⟨entries, _, [], rfl, hall, .kind (List.forall_mem_nil _) (by decide)⟩
  · have hnamed : Entry.read ⟨some 1, false⟩ (.object [(some "name", .string (some "f"))]) =
        some { name := "f" } := rfl
    exact ⟨_, hnamed, hkind _ _ _ _ rfl rfl hnamed⟩

end ChainClient.Abi
