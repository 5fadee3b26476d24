import ChainClient.Proofs.Json.Reread

/-!
# `ChainClient.Proofs.Json.Record` — records, written and read back

A record is written as an object, some of whose fields may be left out, and the reader finds each
field by its name. The laws here are for one field at a time; a record is put together from them.

## Contents
- **Scalars.** `int64_ofInt`, `uint32_repr` and `list_string`.
- **Fields of a text.** `fields_kept`: the trees of the fields are kept ones, so free values in them
  are settled (`settled_of_orElse`).
- **Written fields.** `recordOf` is the record of a list of slots, and `fieldsOf` are the fields
  that the reader finds in it. `find?_of_mem` looks a slot up; `required_of_mem`, `orElse_of_mem`
  and `orElse_of_mem_none` read it.
-/

namespace ChainClient

namespace Json

theorem writable_ofInt (i : Int) : (ofInt i).Writable := by
  refine .number ?_
  have htext : (if i < 0 then "-" else "") ++ i.natAbs.repr =
      String.ofList ((if i < 0 then ['-'] else []) ++ Nat.toDigits 10 i.natAbs) := by
    rw [String.ofList_append, ← Nat.repr_eq_ofList_toDigits]
    split <;> rfl
  rw [htext]
  refine JsonSource.numberOf?_digits ?_ _
  split
  · exact .inr rfl
  · exact .inl rfl

theorem writable_strings (texts : List String) : (array (texts.map .string)).Writable := by
  refine .array fun value hvalue => ?_
  obtain ⟨text, -, rfl⟩ := List.mem_map.mp hvalue
  exact .string text

end Json

namespace JsonReader

/-! ## Scalars -/

theorem uint32_repr (n : UInt32) (place : Place) :
    uint32 place (.number n.toNat.repr) = some n := by
  rw [uint32, natural_repr (show n.toNat < bitBound 32 from n.toNat_lt)]
  exact congrArg some UInt32.ofNat_toNat

/-- A signed number. -/
theorem int64_ofInt (i : Int64) (place : Place) :
    int64 place (sourceOf (.ofInt i.toInt)) = some i := by
  have hlow : -(bitBound 63 : Int) ≤ i.toInt := i.le_toInt
  have hhigh : i.toInt < (bitBound 63 : Int) := i.toInt_lt
  have hread := Numeral.readNat?_toDigits i.toInt.natAbs
  by_cases hneg : i.toInt < 0
  · have htext : ("-" ++ i.toInt.natAbs.repr).toList = '-' :: Nat.toDigits 10 i.toInt.natAbs := by
      rw [String.toList_append, Nat.toList_repr]
      rfl
    obtain ⟨n, hn⟩ := Nat.exists_eq_succ_of_ne_zero (show i.toInt.natAbs ≠ 0 by omega)
    have hfits : n.succ ≤ bitBound 63 := by omega
    have hvalue : -((n.succ : Nat) : Int) = i.toInt := by omega
    rw [Json.ofInt, if_pos hneg, sourceOf, int64, htext]
    simp only [hread]
    rw [hn]
    simp only [if_pos hfits]
    rw [hvalue, Int64.ofInt_toInt]
  · have htext : ("" ++ i.toInt.natAbs.repr).toList = Nat.toDigits 10 i.toInt.natAbs := by
      rw [String.toList_append, Nat.toList_repr]
      rfl
    have hplain : ∀ digits, Nat.toDigits 10 i.toInt.natAbs ≠ '-' :: digits := by
      intro digits heq
      have hmem : '-' ∈ Nat.toDigits 10 i.toInt.natAbs := heq ▸ List.mem_cons_self
      exact absurd (Nat.isDigit_of_mem_toDigits (by decide) (by decide) hmem) (by decide)
    have hfits : i.toInt.natAbs < bitBound 63 := by omega
    have hvalue : ((i.toInt.natAbs : Nat) : Int) = i.toInt := by omega
    rw [Json.ofInt, if_neg hneg, sourceOf, int64, htext]
    split
    · next digits heq => exact absurd heq (hplain digits)
    · rw [hread, Option.filter_some, if_pos (decide_eq_true hfits)]
      show some (Int64.ofInt ((i.toInt.natAbs : Nat) : Int)) = some i
      rw [hvalue, Int64.ofInt_toInt]

/-- A list of texts. -/
theorem list_string (texts : List String) {place inner : Place}
    (hinner : place.inner? = some inner) :
    list string place (sourceOf (.array (texts.map .string))) = some texts := by
  rw [sourceOf, list, Outcome.bind_of_eq_some hinner, Outcome.mapM_eq_some_iff, sourcesOf_eq,
    List.map_map, List.forall₂_map_left_iff, List.forall₂_same]
  exact fun _ _ => rfl

/-! ## Fields of a text -/

/-- **The fields of a record** that was read from a kept tree stand one level down, and their trees
    are kept ones. -/
theorem fields_kept {names : List String} {place : Place} {source : JsonSource} {record : Fields}
    (hkept : source.Kept) (h : fields names place source = some record) :
    place.inner? = some record.place ∧ ∀ field ∈ record.present, field.2.Kept := by
  cases hkept with
  | object hmembers =>
    obtain ⟨inner, hinner, h⟩ := Option.bind_eq_some_iff.mp h
    obtain ⟨named, hnamed, h⟩ := Option.bind_eq_some_iff.mp h
    simp only at h
    split at h
    · cases h
      refine ⟨hinner, fun field hfield => ?_⟩
      obtain ⟨member, hmember, hpair⟩ := exists_of_mem_of_forall₂
        (Outcome.mapM_eq_some_iff.mp hnamed).flip (List.mem_of_mem_filter hfield)
      obtain ⟨key, -, rfl⟩ := Option.map_eq_some_iff.mp hpair
      exact hmembers member hmember
    · cases h
  | array helements =>
    obtain ⟨inner, hinner, h⟩ := Option.bind_eq_some_iff.mp h
    split at h
    · cases h
      refine ⟨hinner, fun field hfield => helements _ (List.of_mem_zip hfield).2⟩
    · cases h
  | null => cases h
  | bool => cases h
  | number => cases h
  | string => cases h

theorem Fields.mem_of_find? {record : Fields} {name : String} {source : JsonSource}
    (h : record.find? name = some source) : ∃ field ∈ record.present, field.2 = source := by
  obtain ⟨field, hfield, rfl⟩ := Option.map_eq_some_iff.mp h
  exact ⟨field, List.mem_of_find?_eq_some hfield, rfl⟩

/-- A free value, or `null` where there is none. -/
theorem Fields.settled_of_orElse {record : Fields} (hplace : record.place.inMemory = false)
    (hkept : ∀ field ∈ record.present, field.2.Kept) {name : String} {json : Json}
    (h : record.orElse name .null value = some json) : Settled record.place json := by
  unfold Fields.orElse at h
  split at h
  · next source hfind =>
    obtain ⟨field, hfield, rfl⟩ := Fields.mem_of_find? hfind
    exact settled_of_takeValue hplace (hkept field hfield) h
  · cases h
    exact .null

/-! ## Written fields -/

/-- The members of a record, each from a slot that is not left out. -/
def written (slots : List (String × Option Json)) : List (String × Json) :=
  slots.filterMap fun slot => slot.2.map (slot.1, ·)

/-- A record of which some fields may be left out. -/
abbrev recordOf (slots : List (String × Option Json)) : Json := .object (written slots)

theorem writable_recordOf {slots : List (String × Option Json)}
    (h : ∀ slot ∈ slots, ∀ json, slot.2 = some json → json.Writable) :
    (recordOf slots).Writable := by
  refine .object fun member hmember => ?_
  obtain ⟨slot, hslot, hwritten⟩ := List.mem_filterMap.mp hmember
  obtain ⟨json, hjson, rfl⟩ := Option.map_eq_some_iff.mp hwritten
  exact h slot hslot json hjson

/-- The fields that the reader finds in a record, as it is written. -/
def fieldsOf (place : Place) : Json → Fields
  | .object members => ⟨place, members.map fun member => (member.1, sourceOf member.2)⟩
  | _ => ⟨place, []⟩

/-- The place of the fields of a record that is a whole text. -/
def Place.field : Place := ⟨some 126, false⟩

section

variable {place inner : Place} {slots : List (String × Option Json)} {name : String}

theorem distinct_eq_true_iff {names : List String} : distinct names = true ↔ names.Nodup := by
  induction names with
  | nil => exact iff_of_true rfl .nil
  | cons name names ih => simp [distinct, ih]

theorem names_written_sublist (slots : List (String × Option Json)) :
    ((written slots).map Prod.fst).Sublist (slots.map Prod.fst) := by
  induction slots with
  | nil => exact .slnil
  | cons slot slots ih =>
    obtain ⟨key, value?⟩ := slot
    cases value? with
    | none => exact ih.cons key
    | some value => exact ih.cons_cons key

/-- **A written record** is opened as the fields that were not left out. -/
theorem fields_recordOf (hinner : place.inner? = some inner)
    (hnames : (slots.map Prod.fst).Nodup) :
    fields (slots.map Prod.fst) place (sourceOf (recordOf slots)) =
      some (fieldsOf inner (recordOf slots)) := by
  have hsublist := names_written_sublist slots
  have hnamed : (memberSourcesOf (written slots)).mapM (fun member => member.1.map (·, member.2)) =
      some ((written slots).map fun member => (member.1, sourceOf member.2)) := by
    rw [Outcome.mapM_eq_some_iff, memberSourcesOf_eq, List.forall₂_map_left_iff,
      List.forall₂_map_right_iff, List.forall₂_same]
    exact fun _ _ => rfl
  have hkeys : ((fieldsOf inner (recordOf slots)).present.map (·.1)) =
      (written slots).map Prod.fst := List.map_map
  have hpresent : (fieldsOf inner (recordOf slots)).present.filter
      ((slots.map Prod.fst).contains ·.1) = (fieldsOf inner (recordOf slots)).present := by
    rw [List.filter_eq_self]
    intro field hfield
    exact List.contains_iff_mem.mpr (hsublist.subset (hkeys ▸ List.mem_map_of_mem hfield))
  have hdistinct : distinct ((fieldsOf inner (recordOf slots)).present.map (·.1)) = true := by
    rw [hkeys]
    exact distinct_eq_true_iff.mpr (hnames.sublist hsublist)
  rw [sourceOf, fields, Outcome.bind_of_eq_some hinner, Outcome.bind_of_eq_some hnamed]
  show (if distinct (((fieldsOf inner (recordOf slots)).present.filter _).map (·.1)) then _
    else _) = _
  rw [hpresent, if_pos hdistinct]
  exact congrArg (fun present => some (Fields.mk inner present)) hpresent

/-- The tree of a slot, if it was not left out. -/
theorem find?_of_mem (hnames : (slots.map Prod.fst).Nodup) {value? : Option Json}
    (h : (name, value?) ∈ slots) :
    (fieldsOf inner (recordOf slots)).find? name = value?.map sourceOf := by
  induction slots with
  | nil => exact (List.not_mem_nil h).elim
  | cons slot slots ih =>
    obtain ⟨key, first?⟩ := slot
    obtain ⟨hfresh, hnames⟩ := List.nodup_cons.mp hnames
    by_cases hkey : key = name
    · subst hkey
      have hfirst : value? = first? := by
        rcases List.mem_cons.mp h with heq | hmem
        · exact (Prod.mk.inj heq).2
        · exact absurd (List.mem_map_of_mem hmem) hfresh
      subst hfirst
      cases value? with
      | some value => simp [Fields.find?, fieldsOf, written]
      | none =>
        refine Option.map_eq_none_iff.mpr (List.find?_eq_none.mpr fun field hfield heq => ?_)
        obtain ⟨pair, hpair, rfl⟩ := List.mem_map.mp hfield
        obtain rfl : pair.1 = key := beq_iff_eq.mp heq
        exact hfresh ((names_written_sublist slots).subset (List.mem_map_of_mem hpair))
    · have hmem : (name, value?) ∈ slots := by
        rcases List.mem_cons.mp h with heq | hmem
        · exact absurd (Prod.mk.inj heq).1.symm hkey
        · exact hmem
      have hrest := ih hnames hmem
      cases first? with
      | none => exact hrest
      | some value =>
        rw [← hrest]
        simp [Fields.find?, fieldsOf, written, hkey]

variable {α : Type} {read : JsonReader α} {a : α}

theorem required_of_mem (hnames : (slots.map Prod.fst).Nodup) {json : Json}
    (h : (name, some json) ∈ slots) (hread : read inner (sourceOf json) = some a) :
    (fieldsOf inner (recordOf slots)).required name read = some a := by
  rw [Fields.required, find?_of_mem hnames h]
  exact hread

theorem orElse_of_mem (hnames : (slots.map Prod.fst).Nodup) {json : Json}
    (h : (name, some json) ∈ slots) (fallback : α) (hread : read inner (sourceOf json) = some a) :
    (fieldsOf inner (recordOf slots)).orElse name fallback read = some a := by
  rw [Fields.orElse, find?_of_mem hnames h]
  exact hread

/-- What was left out is put back. -/
theorem orElse_of_mem_none (hnames : (slots.map Prod.fst).Nodup) (h : (name, none) ∈ slots)
    (fallback : α) :
    (fieldsOf inner (recordOf slots)).orElse name fallback read = some fallback := by
  rw [Fields.orElse, find?_of_mem hnames h]
  rfl

end

end JsonReader

end ChainClient
