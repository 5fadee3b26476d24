import ChainClient.Proofs.Json.Tree
import ChainClient.Proofs.NameMap
import ChainClient.Proofs.Outcome

/-!
# `ChainClient.Proofs.Json.Reread` — free values, read a second time

A value that was taken from a text is written with the members of its objects sorted. That is why it
may not be read again: sorting can bring the key that marks a number in disguise to the front, where
the reader takes it for the mark. Nothing else stands in the way.

## Contents
- **Values.** `Settled` are the values that the reader takes from texts.
- **Taking.** Inversions of `takeElements`, `takeMembers` and `takeValue`; `settled_of_takeValue`
  puts them together by induction on the tree.
- **Disguise.** `Json.Undisguised` are the values without the mark in front of an object.
- **Rereading.** `Settled.takeValue_eq_some_iff`: of the values that were taken, those are read
  again as themselves, and no others are read at all.
-/

namespace ChainClient

namespace JsonReader

/-! ## Values -/

/-- **Settled values**, as the reader takes them from texts: numbers are kept ones, the members of
    objects are sorted, arrays and objects are no deeper than the place allows, and no object holds
    the mark of a number alone. -/
inductive Settled : Place → Json → Prop where
  | null {place : Place} : Settled place .null
  | bool {place : Place} (b : Bool) : Settled place (.bool b)
  | number {place : Place} {text : String} (h : JsonSource.numberOf? text = some text) :
      Settled place (.number text)
  | string {place : Place} (s : String) : Settled place (.string s)
  | array {place inner : Place} {elements : List Json} (hinner : place.inner? = some inner)
      (h : ∀ value ∈ elements, Settled inner value) : Settled place (.array elements)
  | object {place inner : Place} {members : List (String × Json)}
      (hinner : place.inner? = some inner) (hsorted : NameMap.Sorted members)
      (hmark : ∀ value, members ≠ [(numberKey, value)])
      (h : ∀ member ∈ members, Settled inner member.2) : Settled place (.object members)

/-- Settled values are written as they are read. -/
theorem Settled.writable {place : Place} {value : Json} (h : Settled place value) :
    value.Writable := by
  induction h with
  | null => exact .null
  | bool b => exact .bool b
  | number h => exact .number h
  | string s => exact .string s
  | array _ _ ih => exact .array ih
  | object _ _ _ _ ih => exact .object ih

/-! ## Taking -/

theorem Place.inMemory_of_inner? {place inner : Place} (h : place.inner? = some inner) :
    inner.inMemory = place.inMemory := by
  unfold Place.inner? at h
  split at h
  · cases h
    rfl
  · cases h
  · cases h
    rfl

/-- What stands in one of two related lists is related to something in the other. -/
theorem exists_of_mem_of_forall₂ {α β : Type} {R : α → β → Prop} {as : List α} {bs : List β}
    (h : List.Forall₂ R as bs) {a : α} (ha : a ∈ as) : ∃ b ∈ bs, R a b := by
  induction h with
  | nil => exact (List.not_mem_nil ha).elim
  | @cons first b _ _ hfirst _ ih =>
    rcases List.mem_cons.mp ha with rfl | hrest
    · exact ⟨b, List.mem_cons_self, hfirst⟩
    · obtain ⟨other, hother, hrelated⟩ := ih hrest
      exact ⟨other, List.mem_cons_of_mem b hother, hrelated⟩

theorem takeElements_eq_some_iff {place : Place} {sources : List JsonSource} {values : List Json} :
    takeElements place sources = some values ↔
      List.Forall₂ (fun source value => takeValue place source = some value) sources values := by
  have hrun : takeElements place sources = sources.mapM (takeValue place) := by
    induction sources with
    | nil => rfl
    | cons source sources ih => rw [takeElements, ih, List.mapM_cons]
  rw [hrun, Outcome.mapM_eq_some_iff]

/-- What is taken from a member: its key, which has to spell a text, and its value. -/
def TakesMember (place : Place) (source : Option String × JsonSource) (member : String × Json) :
    Prop :=
  source.1 = some member.1 ∧ takeValue place source.2 = some member.2

theorem takesMember_iff {place : Place} {source : Option String × JsonSource}
    {member : String × Json} :
    (source.1.bind fun key => (takeValue place source.2).map (key, ·)) = some member ↔
      TakesMember place source member := by
  simp only [Option.bind_eq_some_iff, Option.map_eq_some_iff]
  constructor
  · rintro ⟨key, hkey, value, hvalue, rfl⟩
    exact ⟨hkey, hvalue⟩
  · rintro ⟨hkey, hvalue⟩
    exact ⟨member.1, hkey, member.2, hvalue, rfl⟩

theorem takeMembers_eq_some_iff {place : Place} {sources : List (Option String × JsonSource)}
    {members : List (String × Json)} :
    takeMembers place sources = some members ↔
      List.Forall₂ (TakesMember place) sources members := by
  have hrun : takeMembers place sources = sources.mapM fun source =>
      source.1.bind fun key => (takeValue place source.2).map (key, ·) := by
    induction sources with
    | nil => rfl
    | cons source sources ih =>
      obtain ⟨key?, source⟩ := source
      cases key? with
      | none => rfl
      | some key =>
        rw [takeMembers, ih, List.mapM_cons]
        cases takeValue place source <;> rfl
  simp only [hrun, Outcome.mapM_eq_some_iff, takesMember_iff]

theorem takeValue_array_eq_some_iff {place : Place} {sources : List JsonSource} {value : Json} :
    takeValue place (.array sources) = some value ↔
      ∃ inner, place.inner? = some inner ∧ ∃ values,
        takeElements inner sources = some values ∧ value = .array values := by
  rw [takeValue, Option.bind_eq_bind, Option.bind_eq_some_iff]
  refine exists_congr fun inner => and_congr_right fun _ => ?_
  rw [Option.bind_eq_bind, Option.bind_eq_some_iff]
  refine exists_congr fun values => and_congr_right fun _ => ?_
  exact ⟨fun h => (Option.some.inj h).symm, fun h => congrArg some h.symm⟩

/-- Whether the first of the members has the mark of a number. -/
def IsMarked (sources : List (Option String × JsonSource)) : Prop :=
  (sources.head?.map Prod.fst) = some (some numberKey)

theorem takeValue_object {place inner : Place} (hinner : place.inner? = some inner)
    {sources : List (Option String × JsonSource)} (hmark : ¬ IsMarked sources) :
    takeValue place (.object sources) =
      (takeMembers inner sources).map fun members => .object (Json.sortMembers members) := by
  rw [takeValue, Outcome.bind_of_eq_some hinner]
  split
  · next key source rest =>
    have hne : key ≠ numberKey := by
      rintro rfl
      exact hmark rfl
    rw [if_neg hne]
    exact Option.map_eq_bind.symm
  · exact Option.map_eq_bind.symm

theorem takeValue_marked {place inner : Place} (hinner : place.inner? = some inner)
    (source : JsonSource) (rest : List (Option String × JsonSource)) :
    takeValue place (.object ((some numberKey, source) :: rest)) =
      disguisedNumber? source rest := by
  rw [takeValue, Outcome.bind_of_eq_some hinner]
  exact if_pos rfl

theorem disguisedNumber?_eq_some {source : JsonSource} {rest : List (Option String × JsonSource)}
    {value : Json} (h : disguisedNumber? source rest = some value) :
    ∃ text number, source = .string (some text) ∧ rest = [] ∧
      JsonSource.numberOf? text = some number ∧ value = .number number := by
  unfold disguisedNumber? at h
  split at h
  · next text =>
    obtain ⟨number, hnumber, rfl⟩ := Option.map_eq_some_iff.mp h
    exact ⟨text, number, rfl, rfl, hnumber, rfl⟩
  · cases h

/-- A list with a mark in front. -/
theorem exists_of_isMarked {sources : List (Option String × JsonSource)} (h : IsMarked sources) :
    ∃ source rest, sources = (some numberKey, source) :: rest := by
  cases sources with
  | nil => cases h
  | cons first rest =>
    obtain ⟨key?, source⟩ := first
    obtain rfl : key? = some numberKey := Option.some.inj h
    exact ⟨source, rest, rfl⟩

/-- **Objects.** A number in disguise, or the members in their order. -/
theorem takeValue_object_eq_some {place : Place} {sources : List (Option String × JsonSource)}
    {value : Json} (h : takeValue place (.object sources) = some value) :
    ∃ inner, place.inner? = some inner ∧
      ((∃ text number, sources = [(some numberKey, .string (some text))] ∧
          JsonSource.numberOf? text = some number ∧ value = .number number) ∨
        ¬ IsMarked sources ∧ ∃ members, takeMembers inner sources = some members ∧
          value = .object (Json.sortMembers members)) := by
  cases hinner : place.inner? with
  | none =>
    rw [takeValue, hinner] at h
    cases h
  | some inner =>
    refine ⟨inner, rfl, ?_⟩
    by_cases hmark : IsMarked sources
    · obtain ⟨source, rest, rfl⟩ := exists_of_isMarked hmark
      rw [takeValue_marked hinner] at h
      obtain ⟨text, number, rfl, rfl, hnumber, rfl⟩ := disguisedNumber?_eq_some h
      exact .inl ⟨text, number, rfl, hnumber, rfl⟩
    · rw [takeValue_object hinner hmark] at h
      obtain ⟨members, hmembers, rfl⟩ := Option.map_eq_some_iff.mp h
      exact .inr ⟨hmark, members, hmembers, rfl⟩

/-- The mark does not come to stand alone in an object that did not start with it. -/
theorem sortMembers_ne_mark {place : Place} {sources : List (Option String × JsonSource)}
    {members : List (String × Json)} (hmembers : takeMembers place sources = some members)
    (hmark : ¬ IsMarked sources) (value : Json) :
    Json.sortMembers members ≠ [(numberKey, value)] := by
  intro halone
  have hnames : ∀ key, key ∈ members.map Prod.fst → key = numberKey := by
    intro key hkey
    have hsorted := NameMap.mem_names_ofList.mpr hkey
    rw [← Json.sortMembers, halone] at hsorted
    exact List.mem_singleton.mp hsorted
  have htaken := takeMembers_eq_some_iff.mp hmembers
  cases htaken with
  | nil => cases halone
  | @cons source member _ _ hfirst _ =>
    refine hmark ?_
    show some source.1 = some (some numberKey)
    rw [hfirst.1, hnames member.1 List.mem_cons_self]

/-- **Values taken from texts are settled.** -/
theorem settled_of_takeValue {place : Place} (hplace : place.inMemory = false)
    {source : JsonSource} (hkept : source.Kept) {value : Json}
    (h : takeValue place source = some value) : Settled place value := by
  induction hkept generalizing place value with
  | null =>
    cases h
    exact .null
  | bool b =>
    cases h
    exact .bool b
  | @number text hnumber =>
    have htext : place.numberText text = text := by simp [Place.numberText, hplace]
    rw [takeValue, htext] at h
    cases h
    exact .number hnumber
  | string text? =>
    obtain ⟨text, -, rfl⟩ := Option.map_eq_some_iff.mp h
    exact .string text
  | array _ ih =>
    obtain ⟨inner, hinner, values, hvalues, rfl⟩ := takeValue_array_eq_some_iff.mp h
    refine .array hinner fun value hvalue => ?_
    obtain ⟨source, hsource, htake⟩ :=
      exists_of_mem_of_forall₂ (takeElements_eq_some_iff.mp hvalues).flip hvalue
    exact ih source hsource ((Place.inMemory_of_inner? hinner).trans hplace) htake
  | object _ ih =>
    obtain ⟨inner, hinner, hcases⟩ := takeValue_object_eq_some h
    rcases hcases with ⟨text, number, -, hnumber, rfl⟩ | ⟨hmark, members, hmembers, rfl⟩
    · exact .number (JsonSource.numberOf?_eq_some_iff.mp hnumber).numberOf?_eq
    · refine .object hinner (NameMap.sorted_ofList members)
        (sortMembers_ne_mark hmembers hmark) fun member hmember => ?_
      have htaken := NameMap.mem_of_mem_ofList hmember
      obtain ⟨source, hsource, -, htake⟩ :=
        exists_of_mem_of_forall₂ (takeMembers_eq_some_iff.mp hmembers).flip htaken
      exact ih source hsource ((Place.inMemory_of_inner? hinner).trans hplace) htake

end JsonReader

/-! ## Disguise -/

/-- **Undisguised values**: no object in them has the mark of a number for its first key. -/
inductive Json.Undisguised : Json → Prop where
  | null : Undisguised .null
  | bool (b : Bool) : Undisguised (.bool b)
  | number (text : String) : Undisguised (.number text)
  | string (s : String) : Undisguised (.string s)
  | array {elements : List Json} (h : ∀ value ∈ elements, Undisguised value) :
      Undisguised (.array elements)
  | object {members : List (String × Json)}
      (hfirst : members.head?.map Prod.fst ≠ some JsonReader.numberKey)
      (h : ∀ member ∈ members, Undisguised member.2) : Undisguised (.object members)

/-! ## Rereading -/

namespace JsonReader

theorem sourcesOf_eq (values : List Json) : sourcesOf values = values.map sourceOf := by
  induction values with
  | nil => rfl
  | cons value values ih => rw [sourcesOf, ih, List.map_cons]

theorem memberSourcesOf_eq (members : List (String × Json)) :
    memberSourcesOf members = members.map fun member => (some member.1, sourceOf member.2) := by
  induction members with
  | nil => rfl
  | cons member members ih => rw [memberSourcesOf, ih, List.map_cons]

theorem isMarked_memberSourcesOf {members : List (String × Json)} :
    IsMarked (memberSourcesOf members) ↔ members.head?.map Prod.fst = some numberKey := by
  cases members with
  | nil => simp [IsMarked, memberSourcesOf]
  | cons member members => simp [IsMarked, memberSourcesOf]

/-- A settled value that is read again is undisguised. -/
theorem Settled.undisguised {place : Place} {value again : Json} (h : Settled place value)
    (hread : takeValue place (sourceOf value) = some again) : value.Undisguised := by
  induction h generalizing again with
  | null => exact .null
  | bool b => exact .bool b
  | @number _ text _ => exact .number text
  | string s => exact .string s
  | @array place inner elements hinner _ ih =>
    rw [sourceOf, takeValue_array_eq_some_iff] at hread
    obtain ⟨inner', hinner', values, hvalues, rfl⟩ := hread
    obtain rfl : inner = inner' := Option.some.inj (hinner.symm.trans hinner')
    refine .array fun value hvalue => ?_
    rw [sourcesOf_eq, takeElements_eq_some_iff, List.forall₂_map_left_iff] at hvalues
    obtain ⟨again, -, htake⟩ := exists_of_mem_of_forall₂ hvalues hvalue
    exact ih value hvalue htake
  | @object place inner members hinner _ hmark _ ih =>
    obtain ⟨inner', hinner', hcases⟩ := takeValue_object_eq_some hread
    obtain rfl : inner = inner' := Option.some.inj (hinner.symm.trans hinner')
    rcases hcases with ⟨text, number, hsources, -⟩ | ⟨hunmarked, taken, htaken, -⟩
    · -- the mark of a number stands alone in an object, but never in a settled one
      rw [memberSourcesOf_eq] at hsources
      obtain ⟨member, hmember, hpair⟩ := List.map_eq_singleton_iff.mp hsources
      obtain ⟨key, value⟩ := member
      obtain rfl : key = numberKey := Option.some.inj (Prod.mk.inj hpair).1
      exact absurd hmember (hmark value)
    · refine .object (mt isMarked_memberSourcesOf.mpr hunmarked) fun member hmember => ?_
      rw [memberSourcesOf_eq, takeMembers_eq_some_iff, List.forall₂_map_left_iff] at htaken
      obtain ⟨again, -, htake⟩ := exists_of_mem_of_forall₂ htaken hmember
      exact ih member hmember htake.2

/-- An undisguised settled value is read again as itself. -/
theorem Settled.takeValue_eq {place : Place} (hplace : place.inMemory = false) {value : Json}
    (h : Settled place value) (hplain : value.Undisguised) :
    takeValue place (sourceOf value) = some value := by
  induction h with
  | null => rfl
  | bool b => rfl
  | @number place text _ =>
    have htext : place.numberText text = text := by simp [Place.numberText, hplace]
    rw [sourceOf, takeValue, htext]
  | string s => rfl
  | @array place inner elements hinner _ ih =>
    cases hplain with
    | array hplain =>
      have hinside := (Place.inMemory_of_inner? hinner).trans hplace
      refine takeValue_array_eq_some_iff.mpr ⟨inner, hinner, elements, ?_, rfl⟩
      rw [sourcesOf_eq, takeElements_eq_some_iff, List.forall₂_map_left_iff, List.forall₂_same]
      exact fun value hvalue => ih value hvalue hinside (hplain value hvalue)
  | @object place inner members hinner hsorted _ _ ih =>
    cases hplain with
    | object hfirst hplain =>
      have hinside := (Place.inMemory_of_inner? hinner).trans hplace
      have htaken : takeMembers inner (memberSourcesOf members) = some members := by
        rw [memberSourcesOf_eq, takeMembers_eq_some_iff, List.forall₂_map_left_iff,
          List.forall₂_same]
        exact fun member hmember => ⟨rfl, ih member hmember hinside (hplain member hmember)⟩
      rw [sourceOf, takeValue_object hinner (mt isMarked_memberSourcesOf.mp hfirst), htaken]
      exact congrArg (some ∘ Json.object) (NameMap.ofList_of_sorted hsorted)

/-- **Rereading.** A value that was taken from a text is read again as itself if it is undisguised,
    and as nothing if it is not. -/
theorem Settled.takeValue_eq_some_iff {place : Place} (hplace : place.inMemory = false)
    {value again : Json} (h : Settled place value) :
    takeValue place (sourceOf value) = some again ↔ value.Undisguised ∧ again = value := by
  constructor
  · intro hread
    have hplain := h.undisguised hread
    rw [h.takeValue_eq hplace hplain] at hread
    exact ⟨hplain, (Option.some.inj hread).symm⟩
  · rintro ⟨hplain, rfl⟩
    exact h.takeValue_eq hplace hplain

end JsonReader

end ChainClient
