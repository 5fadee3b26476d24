import ChainClient.Proofs.Abi.Description
import ChainClient.Proofs.Abi.Suffix

/-!
# `ChainClient.Proofs.Abi.Inline` — descriptions with their tuples written out

A description may give the fields of a tuple apart, and the fields of those fields, to any depth.
Written out in parentheses instead, each parameter has the same type, so functions have the same
signatures and calls go to the same selectors.

## Contents
- **Texts.** `ParamEntry.inlineText` writes the fields of the tuples out; `ParamEntry.inlined` and
  `Entry.inlined` are the entries that say the same without fields apart.
- **Parameters.** `parseWithChars_iff_inlineChars` goes over one level, `parse_inlineText` down to
  any depth.
- **Interfaces.** `ofEntries_inlined`: an interface is the same either way.
- **Both ways.** `inlined_types_and_signatures`.
-/

namespace ChainClient.Abi

open AbiType (parens)

/-! ## Texts -/

mutual

/-- The name of a parameter's type, with the fields of tuples written out in parentheses. -/
def ParamEntry.inlineChars : ParamEntry → List Char
  | ⟨_, typeName, components, _⟩ =>
    match AbiType.afterHead? "tuple" (Text.trim typeName.toList) with
    | some suffix => parens (inlineCharsOf components) ++ suffix
    | none => typeName.toList

/-- The names of several parameters' types. -/
def ParamEntry.inlineCharsOf : List ParamEntry → List (List Char)
  | [] => []
  | entry :: entries => entry.inlineChars :: inlineCharsOf entries

end

namespace ParamEntry

/-- The name of a parameter's type, with the fields of tuples written out in parentheses. -/
def inlineText (entry : ParamEntry) : String := String.ofList entry.inlineChars

/-- The parameter described without fields apart. -/
def inlined (entry : ParamEntry) : ParamEntry :=
  { entry with type := entry.inlineText, components := [] }

end ParamEntry

/-- The entry with its parameters described without fields apart. -/
def Entry.inlined (entry : Entry) : Entry :=
  { entry with
    inputs := entry.inputs.map ParamEntry.inlined
    outputs := entry.outputs.map ParamEntry.inlined }

/-! ## Parameters -/

namespace Param

/-- Fields whose types are known can be written out: **the name is read as the same type, or is
    refused as well**. -/
theorem parseWithChars_iff_inlineChars {name typeName : String} {components : List ParamEntry}
    {indexed : Bool} {fields : List AbiType}
    (hfields : List.Forall₂ (fun text type => AbiType.parseChars text = .ok type)
      (ParamEntry.inlineCharsOf components) fields) {type : AbiType} :
    AbiType.parseWithChars fields typeName.toList = .ok type ↔
      AbiType.parseChars (ParamEntry.inlineChars ⟨name, typeName, components, indexed⟩) =
        .ok type := by
  rw [ParamEntry.inlineChars]
  split
  · next suffix hsuffix =>
    rw [← AbiType.parseWithChars_tuple_iff_parens hfields,
      ← AbiType.afterHead?_eq_some_iff.mp hsuffix, AbiType.parseWithChars_trim]
  · next hnone => rw [AbiType.parseWithChars_of_head hnone]

-- an entry of a tuple holds entries, so the two statements go down the entries together
mutual

theorem parseChars_inlineChars {param : Param} :
    (entry : ParamEntry) → ofEntry entry = .ok param →
      AbiType.parseChars entry.inlineChars = .ok param.type
  | ⟨_, _, components, _⟩, h => by
    obtain ⟨fields, hfields, type, htype, rfl⟩ := ofEntry_eq_ok_iff.mp h
    exact (parseWithChars_iff_inlineChars (forall₂_inlineCharsOf components hfields)).mp htype

theorem forall₂_inlineCharsOf {params : List Param} :
    (entries : List ParamEntry) → ofEntries entries = .ok params →
      List.Forall₂ (fun text type => AbiType.parseChars text = .ok type)
        (ParamEntry.inlineCharsOf entries) (types params)
  | [], h => by
    cases h
    exact .nil
  | entry :: entries, h => by
    obtain ⟨param, hparam, rest, hrest, rfl⟩ := ofEntries_cons_eq_ok_iff.mp h
    exact .cons (parseChars_inlineChars entry hparam) (forall₂_inlineCharsOf entries hrest)

end

theorem parse_inlineText {entry : ParamEntry} {param : Param} (h : ofEntry entry = .ok param) :
    AbiType.parse entry.inlineText = .ok param.type := by
  rw [AbiType.parse, ParamEntry.inlineText, String.toList_ofList]
  exact parseChars_inlineChars entry h

/-- Where a name is written out, no fields are looked for. -/
theorem parseWith_inlineText (components : List AbiType) (entry : ParamEntry) :
    AbiType.parseWith components entry.inlineText = AbiType.parse entry.inlineText := by
  rw [AbiType.parseWith, AbiType.parse, ParamEntry.inlineText, String.toList_ofList]
  obtain ⟨name, typeName, fields, indexed⟩ := entry
  refine AbiType.parseWithChars_of_head ?_
  rw [ParamEntry.inlineChars]
  split
  · rw [(AbiType.isFront_parens _).trim_append]
    rfl
  · assumption

/-- Where the fields can be read, an entry and the one without fields apart are read alike. -/
theorem ofEntry_iff_inlined {entry : ParamEntry} {fields : List Param}
    (hfields : ofEntries entry.components = .ok fields) {param : Param} :
    ofEntry entry = .ok param ↔ ofEntry entry.inlined = .ok param := by
  obtain ⟨name, typeName, components, indexed⟩ := entry
  have hsame (type : AbiType) : AbiType.parseWith (types fields) typeName = .ok type ↔
      AbiType.parseWith (types []) (ParamEntry.inlineText ⟨name, typeName, components, indexed⟩) =
        .ok type := by
    rw [parseWith_inlineText, AbiType.parse, ParamEntry.inlineText, String.toList_ofList]
    exact parseWithChars_iff_inlineChars (forall₂_inlineCharsOf components hfields)
  rw [ofEntry_eq_ok_iff, ParamEntry.inlined, ofEntry_eq_ok_iff]
  constructor
  · rintro ⟨others, hothers, type, htype, rfl⟩
    rw [hfields] at hothers
    cases hothers
    exact ⟨[], rfl, type, (hsame type).mp htype, rfl⟩
  · rintro ⟨others, hothers, type, htype, rfl⟩
    cases hothers
    exact ⟨fields, hfields, type, (hsame type).mpr htype, rfl⟩

theorem ofEntry_inlined {entry : ParamEntry} {param : Param} (h : ofEntry entry = .ok param) :
    ofEntry entry.inlined = .ok param := by
  obtain ⟨name, typeName, components, indexed⟩ := entry
  obtain ⟨fields, hfields, -⟩ := ofEntry_eq_ok_iff.mp h
  exact (ofEntry_iff_inlined hfields).mp h

theorem ofEntries_map_inlined {entries : List ParamEntry} {params : List Param}
    (h : ofEntries entries = .ok params) :
    ofEntries (entries.map ParamEntry.inlined) = .ok params := by
  induction entries generalizing params with
  | nil => exact h
  | cons entry entries ih =>
    obtain ⟨param, hparam, rest, hrest, rfl⟩ := ofEntries_cons_eq_ok_iff.mp h
    exact ofEntries_cons_eq_ok_iff.mpr ⟨param, ofEntry_inlined hparam, rest, ih hrest, rfl⟩

end Param

/-! ## Interfaces -/

namespace Interface

theorem functionOf_inlined {name : String} {entry : Entry} {inputs : List Param} {f : Function}
    (h : functionOf name entry inputs = .ok f) : functionOf name entry.inlined inputs = .ok f := by
  rw [functionOf_eq_map] at h ⊢
  obtain ⟨outputs, houtputs, rfl⟩ := Outcome.map_eq_ok_iff.mp h
  exact Outcome.map_eq_ok_iff.mpr ⟨outputs, Param.ofEntries_map_inlined houtputs, rfl⟩

/-- An entry adds the same either way. -/
theorem describes_inlined {entry : Entry} {item : Item} (h : entry.Describes item) :
    entry.inlined.Describes item := by
  have hparams {entries : List ParamEntry} {params : List Param}
      (h : List.Forall₂ ParamEntry.DescribesParam entries params) :
      List.Forall₂ ParamEntry.DescribesParam (entries.map ParamEntry.inlined) params :=
    Param.ofEntries_eq_ok_iff_describes.mp
      (Param.ofEntries_map_inlined (Param.ofEntries_eq_ok_iff_describes.mpr h))
  cases h with
  | function hkind h =>
    exact .function hkind ⟨h.name, hparams h.inputs, hparams h.outputs, h.constant⟩
  | constructor hkind h =>
    exact .constructor hkind ⟨h.name, hparams h.inputs, hparams h.outputs, h.constant⟩
  | event hkind h => exact .event hkind ⟨h.name, hparams h.inputs, h.anonymous⟩
  | fallback hkind hinputs =>
    obtain ⟨params, hread⟩ := Param.exists_ofEntries_iff.mpr hinputs
    exact .fallback hkind (Param.exists_ofEntries_iff.mp ⟨_, Param.ofEntries_map_inlined hread⟩)

/-- **A description** is read as the same interface either way. -/
theorem ofEntries_inlined {entries : List Entry} {interface : Interface}
    (h : ofEntries entries = .ok interface) :
    ofEntries (entries.map Entry.inlined) = .ok interface := by
  rw [ofEntries_eq_map] at h ⊢
  obtain ⟨items, hitems, rfl⟩ := Outcome.map_eq_ok_iff.mp h
  refine Outcome.map_eq_ok_iff.mpr ⟨items, Outcome.mapM_eq_ok_iff.mpr ?_, rfl⟩
  rw [List.forall₂_map_left_iff]
  refine (Outcome.mapM_eq_ok_iff.mp hitems).imp fun entry item hitem => ?_
  exact Entry.item_eq_ok_iff.mpr (describes_inlined (Entry.item_eq_ok_iff.mp hitem))

end Interface

/-! ## Both ways -/

/-- The names of types that contracts know are read as these types. -/
theorem forall₂_chars {types : List AbiType} (h : ∀ type ∈ types, type.WellFormed) :
    List.Forall₂ (fun text type => AbiType.parseChars text = .ok type) (types.map AbiType.chars)
      types := by
  rw [List.forall₂_map_left_iff, List.forall₂_same]
  exact fun type htype => AbiType.parseChars_of_spells (AbiType.spells_chars (h type htype))

/-- The canonical name of a tuple goes with the same suffixes as the word for it. -/
theorem parseWith_tuple_append_iff {components : List AbiType}
    (h : ∀ field ∈ components, field.WellFormed) {suffix : String} {type : AbiType} :
    AbiType.parseWith components ("tuple" ++ suffix) = .ok type ↔
      AbiType.parse ((AbiType.tuple components).text ++ suffix) = .ok type := by
  have htext : ((AbiType.tuple components).text ++ suffix).toList =
      parens (components.map AbiType.chars) ++ suffix.toList := by
    rw [String.toList_append, AbiType.text, String.toList_ofList, AbiType.chars_tuple,
      AbiType.listChars_eq_intercalate, parens]
  rw [AbiType.parseWith, AbiType.parse, htext, String.toList_append]
  exact AbiType.parseWithChars_tuple_iff_parens (forall₂_chars h)

/-- **Fields given apart and fields written out.** Behind the word `tuple` and behind the canonical
    name of the tuple, every text is read as the same type or is refused. So a parameter has the
    type that it has with all tuples written out, at any depth, which its canonical name has too. A
    function gets the same signature and selector, and a description is read as the same
    interface. -/
theorem inlined_types_and_signatures :
    (∀ components : List AbiType, (∀ field ∈ components, field.WellFormed) →
      ∀ (suffix : String) (type : AbiType),
        AbiType.parseWith components ("tuple" ++ suffix) = .ok type ↔
          AbiType.parse ((AbiType.tuple components).text ++ suffix) = .ok type) ∧
    (∀ (entry : ParamEntry) (fields : List Param), Param.ofEntries entry.components = .ok fields →
      ∀ param, Param.ofEntry entry = .ok param ↔ Param.ofEntry entry.inlined = .ok param) ∧
    (∀ (entry : ParamEntry) (param : Param), Param.ofEntry entry = .ok param →
      AbiType.parse entry.inlineText = .ok param.type ∧
      AbiType.parse param.type.text = .ok param.type) ∧
    (∀ (name : String) (entry : Entry) (inputs : List Param) (f : Function),
      Param.ofEntries entry.inputs = .ok inputs → Interface.functionOf name entry inputs = .ok f →
        ∃ others g, Param.ofEntries entry.inlined.inputs = .ok others ∧
          Interface.functionOf name entry.inlined others = .ok g ∧
          g.signature = f.signature ∧ g.selector = f.selector) ∧
    (∀ (entries : List Entry) (interface : Interface), Interface.ofEntries entries = .ok interface →
      Interface.ofEntries (entries.map Entry.inlined) = .ok interface) := by
  refine ⟨fun _ hfields _ _ => parseWith_tuple_append_iff hfields,
    fun _ _ hfields _ => Param.ofEntry_iff_inlined hfields,
    fun entry _ h => ⟨Param.parse_inlineText h, ?_⟩, fun _ _ inputs f hinputs hf => ?_,
    fun _ _ => Interface.ofEntries_inlined⟩
  · exact AbiType.parse_text (Param.wellFormed_of_ofEntry entry h)
  · exact ⟨inputs, f, Param.ofEntries_map_inlined hinputs, Interface.functionOf_inlined hf, rfl,
      rfl⟩

/-- Records of a pair, described with all their fields apart. -/
def orders : ParamEntry := ⟨"orders", "tuple[]", pairEntry.inputs, false⟩

/-- A function that takes them. -/
def ordersEntry : Entry where
  name := "f"
  inputs := [orders]

/-- They are written out at both depths. -/
theorem inlined_types_and_signatures_of_orders :
    let type : AbiType := .array (.tuple [.tuple [.bool, .uint 256]])
    AbiType.parse ((AbiType.tuple [.tuple [.bool, .uint 256]]).text ++ "[]") = .ok type ∧
    orders.inlineText = "((bool,uint))[]" ∧
    Param.ofEntry orders.inlined = .ok ⟨"orders", type, false⟩ ∧
    (AbiType.parse orders.inlineText = .ok type ∧ AbiType.parse type.text = .ok type) ∧
    (∃ others g, Param.ofEntries ordersEntry.inlined.inputs = .ok others ∧
      Interface.functionOf "f" ordersEntry.inlined others = .ok g ∧
      g.selector = selector "f(((bool,uint256))[])") ∧
    ∃ interface, Interface.ofEntries [ordersEntry] = .ok interface ∧
      Interface.ofEntries [ordersEntry.inlined] = .ok interface := by
  intro type
  obtain ⟨hsuffix, hentry, htext, hfunction, hinterface⟩ := inlined_types_and_signatures
  have hfields : ∀ field ∈ [AbiType.tuple [.bool, .uint 256]], field.WellFormed :=
    Param.wellFormed_of_ofEntries _ ofEntries_pairEntry
  have hword : AbiType.parseWith [.tuple [.bool, .uint 256]] ("tuple" ++ "[]") = .ok type :=
    AbiType.parseWithChars_tuple_iff.mpr (@AbiType.Suffixed.suffix _ [] [] [] _ none rfl
      (List.forall_mem_nil _) (.base (List.forall_mem_nil _)))
  have horders : Param.ofEntry orders = .ok ⟨"orders", type, false⟩ :=
    Param.ofEntry_eq_ok_iff.mpr ⟨_, ofEntries_pairEntry, type, hword, rfl⟩
  have hinputs : Param.ofEntries ordersEntry.inputs = .ok [⟨"orders", type, false⟩] :=
    Param.ofEntries_cons_eq_ok_iff.mpr ⟨_, horders, [], rfl, rfl⟩
  obtain ⟨others, g, hothers, hg, -, hselector⟩ := hfunction "f" ordersEntry _ _ hinputs rfl
  have hread : Interface.ofEntries [ordersEntry] = .ok { functions :=
      [("f", ⟨"f", [⟨"orders", type, false⟩], [], false⟩)] } := by
    simp only [Interface.ofEntries, List.foldlM_cons, Interface.addEntry, hinputs]
    rfl
  refine ⟨(hsuffix _ hfields "[]" type).mp hword, by decide,
    (hentry orders _ ofEntries_pairEntry _).mp horders, htext orders _ horders,
    ⟨others, g, hothers, hg, ?_⟩, _, hread, hinterface _ _ hread⟩
  rw [hselector]
  rfl

end ChainClient.Abi
