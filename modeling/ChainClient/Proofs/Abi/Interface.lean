import ChainClient.Abi.Interface
import ChainClient.Proofs.Abi.Notation
import ChainClient.Proofs.Json.Text

/-!
# `ChainClient.Proofs.Abi.Interface` — the types in an interface, and what a signature tells

A selector is a hash of a signature, so a call goes to the right function only if a signature says
which types the function takes. It does, because names of types are read back.

## Contents
- **Types.** `wellFormed_of_parseWith` and `wellFormed_of_ofEntry`: names and entries give types
  that contracts know.
- **Interfaces.** `Interface.WellFormed` asks for such types throughout. `WellFormed.addEntry` keeps
  it for one entry, `wellFormed_of_ofJson` has it for a whole description.
- **Signatures.** `signatureOf_eq_iff`: a signature is cut at its first parenthesis.
- **Round trip.** `parse_text_signature` says what names and signatures determine.
-/

namespace ChainClient

/-! ## Types -/

namespace AbiType

/-- A name of fields that contracts know, or of a tuple of them. -/
theorem wellFormed_of_parseWithChars {components : List AbiType}
    (hcomponents : ∀ field ∈ components, field.WellFormed) {cs : List Char} {type : AbiType}
    (h : parseWithChars components cs = .ok type) : type.WellFormed := by
  fun_induction parseWithChars components cs generalizing type with
  | case1 =>
    cases h
    exact .tuple hcomponents
  | case2 => cases h
  | case3 cs name _ _ inner size hsuffix =>
    rename_i ih
    obtain ⟨element, helement, rfl⟩ := Outcome.map_eq_ok_iff.mp h
    exact (ih helement).withSuffix hsuffix
  | case4 => exact wellFormed_of_parseChars h

theorem wellFormed_of_parse {name : String} {type : AbiType} (h : parse name = .ok type) :
    type.WellFormed :=
  wellFormed_of_parseChars h

theorem wellFormed_of_parseWith {components : List AbiType}
    (hcomponents : ∀ field ∈ components, field.WellFormed) {name : String} {type : AbiType}
    (h : parseWith components name = .ok type) : type.WellFormed :=
  wellFormed_of_parseWithChars hcomponents h

/-- The word that stands for the fields given apart. -/
theorem parseWith_tuple (components : List AbiType) :
    parseWith components "tuple" = .ok (.tuple components) := by
  rw [parseWith, parseWithChars]
  exact if_pos (by decide)

theorem parseWith_word {components : List AbiType} {name : String} {type : AbiType}
    (htuple : Text.trim name.toList ≠ "tuple".toList)
    (hbracket : (Text.trim name.toList).getLast? ≠ some ']')
    (h : parseChars (Text.trim name.toList) = .ok type) : parseWith components name = .ok type := by
  rw [parseWith, parseWithChars, if_neg htuple, if_neg fun hsuffix => hbracket hsuffix.1, h]

end AbiType

namespace Abi

namespace Param

theorem ofEntry_eq_ok_iff {name typeName : String} {components : List ParamEntry} {indexed : Bool}
    {param : Param} :
    ofEntry ⟨name, typeName, components, indexed⟩ = .ok param ↔
      ∃ fields, ofEntries components = .ok fields ∧
        ∃ type, AbiType.parseWith (types fields) typeName = .ok type ∧
          param = { name, type, indexed } := by
  rw [ofEntry]
  constructor
  · intro h
    split at h
    · cases h
    · next fields hfields =>
      split at h
      · cases h
      · next type htype => exact ⟨fields, hfields, type, htype, (Except.ok.inj h).symm⟩
  · rintro ⟨fields, hfields, type, htype, rfl⟩
    simp only [types] at htype
    simp only [hfields, htype]

theorem ofEntries_cons_eq_ok_iff {entry : ParamEntry} {entries : List ParamEntry}
    {params : List Param} :
    ofEntries (entry :: entries) = .ok params ↔
      ∃ param, ofEntry entry = .ok param ∧
        ∃ rest, ofEntries entries = .ok rest ∧ params = param :: rest := by
  rw [ofEntries]
  constructor
  · intro h
    split at h
    · cases h
    · next param hparam =>
      split at h
      · cases h
      · next rest hrest => exact ⟨param, hparam, rest, hrest, (Except.ok.inj h).symm⟩
  · rintro ⟨param, hparam, rest, hrest, rfl⟩
    simp only [hparam, hrest]

-- an entry of a tuple holds entries, so the two statements go down the entries together
mutual

theorem wellFormed_of_ofEntry {param : Param} :
    (entry : ParamEntry) → ofEntry entry = .ok param → param.type.WellFormed
  | ⟨_, _, components, _⟩, h => by
    obtain ⟨fields, hfields, type, htype, rfl⟩ := ofEntry_eq_ok_iff.mp h
    exact AbiType.wellFormed_of_parseWith (wellFormed_of_ofEntries components hfields) htype

theorem wellFormed_of_ofEntries {params : List Param} :
    (entries : List ParamEntry) → ofEntries entries = .ok params →
      ∀ type ∈ types params, type.WellFormed
  | [], h => by
    cases h
    exact fun type htype => (List.not_mem_nil htype).elim
  | entry :: entries, h => by
    obtain ⟨param, hparam, rest, hrest, rfl⟩ := ofEntries_cons_eq_ok_iff.mp h
    intro type htype
    rcases List.mem_cons.mp htype with rfl | hmem
    · exact wellFormed_of_ofEntry entry hparam
    · exact wellFormed_of_ofEntries entries hrest type hmem

end

end Param

/-! ## Interfaces -/

/-- Functions that take and return types that contracts know. -/
structure Function.WellFormed (f : Function) : Prop where
  inputs : ∀ type ∈ f.inputTypes, type.WellFormed
  outputs : ∀ type ∈ f.outputTypes, type.WellFormed

/-- Events with parameters of types that contracts know. -/
def Event.WellFormed (e : Event) : Prop := ∀ type ∈ Param.types e.inputs, type.WellFormed

namespace Interface

/-- **Interfaces** in which contracts know every type. -/
structure WellFormed (interface : Interface) : Prop where
  constructor? : ∀ f, interface.constructor? = some f → f.WellFormed
  functions : ∀ pair ∈ interface.functions, pair.2.WellFormed
  events : ∀ pair ∈ interface.events, pair.2.WellFormed

theorem wellFormed_of_functionOf {name : String} {entry : Entry} {inputs : List Param}
    {f : Function} (hinputs : ∀ type ∈ Param.types inputs, type.WellFormed)
    (h : functionOf name entry inputs = .ok f) : f.WellFormed := by
  obtain ⟨outputs, houtputs, hf⟩ := Outcome.bind_eq_ok_iff.mp h
  cases hf
  exact ⟨hinputs, Param.wellFormed_of_ofEntries _ houtputs⟩

/-- One entry adds types that contracts know. -/
theorem WellFormed.addEntry {interface next : Interface} {entry : Entry}
    (hwf : interface.WellFormed) (h : interface.addEntry entry = .ok next) : next.WellFormed := by
  obtain ⟨inputs, hread, hrest⟩ := Outcome.bind_eq_ok_iff.mp h
  have hinputs := Param.wellFormed_of_ofEntries _ hread
  -- a function takes the place of one of its name, and the others stay
  split at hrest
  · obtain ⟨f, hf, hnext⟩ := Outcome.bind_eq_ok_iff.mp hrest
    cases hnext
    refine { hwf with functions := fun pair hpair => ?_ }
    rcases NameMap.mem_insert hpair with rfl | hold
    · exact wellFormed_of_functionOf hinputs hf
    · exact hwf.functions pair hold
  -- a constructor
  split at hrest
  · obtain ⟨f, hf, hnext⟩ := Outcome.bind_eq_ok_iff.mp hrest
    cases hnext
    refine { hwf with constructor? := fun g hg => ?_ }
    cases hg
    exact wellFormed_of_functionOf hinputs hf
  -- an event takes the place of one of its name
  split at hrest
  · cases hrest
    refine { hwf with events := fun pair hpair => ?_ }
    rcases NameMap.mem_insert hpair with rfl | hold
    · exact hinputs
    · exact hwf.events pair hold
  -- an entry without parameters, or of no known kind
  split at hrest
  · cases hrest
    exact { hwf with }
  · cases hrest

theorem wellFormed_empty : WellFormed {} where
  constructor? := fun _ h => nomatch h
  functions := fun _ h => nomatch h
  events := fun _ h => nomatch h

/-- **A description** gives types that contracts know. -/
theorem wellFormed_of_ofJson {description : String} {interface : Interface}
    (h : ofJson description = .ok interface) : interface.WellFormed := by
  unfold ofJson at h
  split at h
  · exact Outcome.foldlM_invariant (fun _ _ _ hwf hadd => hwf.addEntry hadd) wellFormed_empty h
  · cases h

end Interface

/-! ## Signatures -/

/-- What stands in front of the first opening parenthesis. -/
theorem takeWhile_signature {front : List Char} (h : '(' ∉ front) (behind : List Char) :
    (front ++ '(' :: behind).takeWhile (· != '(') = front := by
  have hfront : ∀ c ∈ front, (c != '(') = true := by
    intro c hc
    rw [bne_iff_ne]
    rintro rfl
    exact h hc
  rw [List.takeWhile_append_of_pos hfront, List.takeWhile_cons_of_neg (by decide), List.append_nil]

theorem toList_signatureOf (name : String) (params : List Param) :
    (signatureOf name params).toList =
      name.toList ++ '(' :: AbiType.listChars (Param.types params) ++ [')'] := by
  simp [signatureOf, AbiType.listText]

/-- **A signature** tells the name and the types, if names have no opening parenthesis. -/
theorem signatureOf_eq_iff {name other : String} {params others : List Param}
    (hname : '(' ∉ name.toList) (hother : '(' ∉ other.toList) :
    signatureOf name params = signatureOf other others ↔
      name = other ∧ Param.types params = Param.types others := by
  constructor
  · intro h
    have hchars := congrArg String.toList h
    rw [toList_signatureOf, toList_signatureOf, List.append_assoc, List.append_assoc] at hchars
    -- the names end at the first parenthesis, so they are cut off first
    have hfront := congrArg (List.takeWhile (· != '(')) hchars
    simp only [List.cons_append] at hchars hfront
    rw [takeWhile_signature hname, takeWhile_signature hother] at hfront
    rw [hfront] at hchars
    have hbody := (List.cons.inj (List.append_cancel_left hchars)).2
    exact ⟨String.toList_inj.mp hfront,
      AbiType.listChars_injective (List.append_cancel_right hbody)⟩
  · rintro ⟨rfl, htypes⟩
    simp only [signatureOf, htypes]

/-! ## Round trip -/

/-- **Names and types.** Names, names with fields given apart, and descriptions give only types that
    contracts know; each of those has a name that is read back, no two types share a name, and no
    two functions that differ in name or in the types they take share a signature. -/
theorem parse_text_signature :
    (∀ name type, AbiType.parse name = .ok type → type.WellFormed) ∧
    (∀ components name type, (∀ field ∈ components, AbiType.WellFormed field) →
      AbiType.parseWith components name = .ok type → type.WellFormed) ∧
    (∀ description interface, Interface.ofJson description = .ok interface →
      interface.WellFormed) ∧
    (∀ type : AbiType, type.WellFormed → AbiType.parse type.text = .ok type) ∧
    Function.Injective AbiType.text ∧
    (∀ f g : Function, '(' ∉ f.name.toList → '(' ∉ g.name.toList → f.signature = g.signature →
      f.name = g.name ∧ f.inputTypes = g.inputTypes) :=
  ⟨fun _ _ => AbiType.wellFormed_of_parse,
    fun _ _ _ hfields => AbiType.wellFormed_of_parseWith hfields,
    fun _ _ => Interface.wellFormed_of_ofJson,
    fun _ => AbiType.parse_text,
    AbiType.text_injective,
    fun _ _ hf hg => (signatureOf_eq_iff hf hg).mp⟩

/-- The description of a function that takes a pair, whose fields are given apart. -/
def pairDescription : Json :=
  .array [.object [("name", .string "f"), ("inputs", .array [.object [("type", .string "tuple"),
    ("components", .array [.object [("type", .string "bool")],
      .object [("type", .string "uint")]])]])]]

theorem writable_pairDescription : pairDescription.Writable := by
  have hfield : ∀ name, Json.Writable (.object [("type", .string name)]) := fun name =>
    .object (List.forall_mem_singleton.mpr (.string name))
  have hparam : ∀ key name member fields, (∀ field ∈ fields, Json.Writable field) →
      Json.Writable (.object [(key, .string name), (member, .array fields)]) :=
    fun key name member fields hfields => .object (List.forall_mem_cons.mpr
      ⟨.string name, List.forall_mem_singleton.mpr (.array hfields)⟩)
  refine .array (List.forall_mem_singleton.mpr (hparam _ _ _ _ ?_))
  refine List.forall_mem_singleton.mpr (hparam _ _ _ _ ?_)
  exact List.forall_mem_cons.mpr ⟨hfield "bool", List.forall_mem_singleton.mpr (hfield "uint")⟩

/-- The entry in the description. -/
def pairEntry : Entry where
  name := "f"
  inputs := [⟨"", "tuple", [⟨"", "bool", [], false⟩, ⟨"", "uint", [], false⟩], false⟩]

theorem readAll_pairDescription : Entry.readAll pairDescription.render = some [pairEntry] := by
  rw [Entry.readAll, Json.ofText_render writable_pairDescription]
  rfl

theorem ofEntries_pairEntry :
    Param.ofEntries pairEntry.inputs =
      .ok [⟨"", .tuple [.bool, .uint 256], false⟩] := by
  have hbool : AbiType.parseWith [] "bool" = .ok .bool :=
    AbiType.parseWith_word (by decide) (by decide) (AbiType.parseChars_word (by decide) rfl)
  have huint : AbiType.parseWith [] "uint" = .ok (.uint 256) :=
    AbiType.parseWith_word (by decide) (by decide) (AbiType.parseChars_word (by decide) rfl)
  refine Param.ofEntries_cons_eq_ok_iff.mpr ⟨_, Param.ofEntry_eq_ok_iff.mpr ?_, [], rfl, rfl⟩
  refine ⟨[⟨"", .bool, false⟩, ⟨"", .uint 256, false⟩], ?_, _, AbiType.parseWith_tuple _, rfl⟩
  refine Param.ofEntries_cons_eq_ok_iff.mpr
    ⟨_, Param.ofEntry_eq_ok_iff.mpr ⟨[], rfl, _, hbool, rfl⟩, _, ?_, rfl⟩
  exact Param.ofEntries_cons_eq_ok_iff.mpr
    ⟨_, Param.ofEntry_eq_ok_iff.mpr ⟨[], rfl, _, huint, rfl⟩, [], rfl, rfl⟩

theorem ofJson_pairDescription :
    Interface.ofJson pairDescription.render = .ok { functions :=
      [("f", ⟨"f", [⟨"", .tuple [.bool, .uint 256], false⟩], [], false⟩)] } := by
  simp only [Interface.ofJson, readAll_pairDescription, Interface.ofEntries, List.foldlM_cons,
    Interface.addEntry, ofEntries_pairEntry]
  rfl

/-- A function that takes a pair, described with its fields apart. -/
theorem parse_text_signature_of_pair :
    let pair : AbiType := .tuple [.bool, .uint 256]
    let f : Function := ⟨"f", [⟨"a", pair, false⟩], [], true⟩
    let g : Function := ⟨"f", [⟨"b", pair, false⟩], [⟨"", .bool, false⟩], false⟩
    (∃ type, AbiType.parse "uint" = .ok type ∧ type.WellFormed) ∧
    (AbiType.parseWith [.bool, .uint 256] "tuple" = .ok pair ∧ pair.WellFormed) ∧
    (∃ interface, Interface.ofJson pairDescription.render = .ok interface ∧
      interface.WellFormed) ∧
    AbiType.parse pair.text = .ok pair ∧
    (f.signature = g.signature ∧ f.inputTypes = g.inputTypes) := by
  intro pair f g
  obtain ⟨hparse, hparseWith, hofJson, htext, -, hsignature⟩ := parse_text_signature
  have huint : AbiType.parse "uint" = .ok (.uint 256) := AbiType.parseChars_word (by decide) rfl
  have hfields : ∀ field ∈ [AbiType.bool, .uint 256], field.WellFormed := by
    intro field hfield
    rcases List.mem_pair.mp hfield with rfl | rfl
    · exact .bool
    · exact hparse _ _ huint
  have hpair := hparseWith _ _ _ hfields (AbiType.parseWith_tuple _)
  have hinterface := ofJson_pairDescription
  refine ⟨⟨_, huint, hparse _ _ huint⟩, ⟨AbiType.parseWith_tuple _, hpair⟩,
    ⟨_, hinterface, hofJson _ _ hinterface⟩, htext _ hpair, rfl, ?_⟩
  exact (hsignature f g (by decide) (by decide) rfl).2

end Abi

end ChainClient
