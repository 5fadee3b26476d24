import ChainClient.Proofs.Abi.Notation
import ChainClient.Proofs.Abi.Layout

/-!
# `ChainClient.Proofs.Abi.Fault` — which values are packed, and which fault is reported

A list of values is a tree whose positions are paths: the first number of a path picks a value, the
next one a component of it, and so on. The check walks the tree once, from the outside in and from
left to right, which is the lexicographic order of paths. It stops at the first position that is at
fault by itself. When it stops nowhere, the packer meets every position with a value of the kind of
its type, so that its last branch, which packs nothing, is out of reach.

## Contents
- **Positions.** `components` are the parts of a value beside their types, `ComponentAt` finds them
  along a path. `encodeValue_eq_layout`: the packer goes where `components` says.
  `encodeValue_of_sameKind_eq_false`: it packs nothing for a value of another kind than its type.
- **Faults.** `Offends` is what is wrong with one position by itself; `Faultless` and `IsFirstFault`
  look at all positions.
- **The check.** `check_eq_ok_iff_faultless` and `check_eq_error_iff`.
- **The packer.** `encode_eq_ok_or_first_fault` for lists of values.
-/

namespace ChainClient

namespace Abi

open AbiType (maxOffset)

/-! ## Positions -/

/-- The components of a value beside their types, if the value is of the kind of its type. -/
def components : AbiType → AbiValue → List (AbiType × AbiValue)
  | .array element, .array values => values.map (element, ·)
  | .fixedArray element _, .fixedArray values => values.map (element, ·)
  | .tuple types, .tuple values => types.zip values
  | _, _ => []

/-- What stands at a path inside a value of a type: the value itself at the empty path, and behind
    a number what stands in that component at the rest of the path. -/
inductive ComponentAt : AbiType → AbiValue → List Nat → AbiType → AbiValue → Prop where
  | root {type : AbiType} {value : AbiValue} : ComponentAt type value [] type value
  | inside {type inner other : AbiType} {value content part : AbiValue} {i : Nat} {path : List Nat}
      (hcomponent : (components type value)[i]? = some (inner, content))
      (hinside : ComponentAt inner content path other part) :
      ComponentAt type value (i :: path) other part

/-- Whether a value is of the kind of a type: both arrays, both tuples, and so on. -/
def sameKind : AbiType → AbiValue → Bool
  | .address, .address _ | .uint _, .uint _ | .int _, .int _ | .bool, .bool _ | .bytes, .bytes _
  | .fixedBytes _, .fixedBytes _ | .string, .string _ | .array _, .array _
  | .fixedArray _ _, .fixedArray _ | .tuple _, .tuple _ => true
  | _, _ => false

variable {type : AbiType} {value : AbiValue}

/-- A value of another kind than its type would be packed to nothing. -/
theorem encodeValue_of_sameKind_eq_false (h : sameKind type value = false) :
    encodeValue type value = [] := by
  unfold sameKind at h
  split at h
  -- both functions come to their last branch in the same cases
  case h_11 => rw [encodeValue] <;> assumption
  all_goals cases h

/-- Only arrays and tuples have components. -/
theorem type_of_mem_components {pair : AbiType × AbiValue} (h : pair ∈ components type value) :
    type = .array pair.1 ∨ (∃ size, type = .fixedArray pair.1 size) ∨
      ∃ types, type = .tuple types ∧ pair.1 ∈ types := by
  unfold components at h
  split at h
  · obtain ⟨value, _, rfl⟩ := List.mem_map.mp h
    exact .inl rfl
  · obtain ⟨value, _, rfl⟩ := List.mem_map.mp h
    exact .inr (.inl ⟨_, rfl⟩)
  · exact .inr (.inr ⟨_, rfl, (List.of_mem_zip h).1⟩)
  · cases h

/-- **The packer goes where the components are**: it packs them in a region of their own, behind the
    length of an array. -/
theorem encodeValue_eq_layout (h : components type value ≠ []) :
    ∃ front, encodeValue type value = front ++
      layout ((components type value).map fun pair => (Slot.packed pair.1 pair.2).part) := by
  unfold components at h
  split at h
  · next element values =>
    refine ⟨offsetWord values.length, ?_⟩
    rw [encodeValue, components, partsOfEach_eq, List.map_map, List.map_map]
    rfl
  · next element size values =>
    refine ⟨[], ?_⟩
    rw [encodeValue, components, partsOfEach_eq, List.map_map, List.map_map]
    rfl
  · next types values =>
    refine ⟨[], ?_⟩
    rw [encodeValue, components, partsOfFields_eq, List.map_map]
    rfl
  · exact absurd rfl h

/-- What is packed for a component is no longer than what is packed for the value. -/
theorem length_encodeValue_le_of_mem {pair : AbiType × AbiValue}
    (h : pair ∈ components type value) :
    (encodeValue pair.1 pair.2).length ≤ (encodeValue type value).length := by
  obtain ⟨front, hfront⟩ := encodeValue_eq_layout (List.ne_nil_of_mem h)
  have hpart : (Slot.packed pair.1 pair.2).part ∈
      (components type value).map fun pair => (Slot.packed pair.1 pair.2).part :=
    List.mem_map_of_mem h
  have hle := length_body_le hpart
  rw [hfront, List.length_append]
  exact Nat.le_trans hle (Nat.le_add_left _ _)

/-- The components of a value of a type are values of their types. -/
theorem Inhabits.of_mem_components (h : Inhabits type value) {pair : AbiType × AbiValue}
    (hpair : pair ∈ components type value) : Inhabits pair.1 pair.2 := by
  cases h with
  | array hvalues =>
    obtain ⟨value, hvalue, rfl⟩ := List.mem_map.mp hpair
    exact hvalues value hvalue
  | fixedArray _ hvalues =>
    obtain ⟨value, hvalue, rfl⟩ := List.mem_map.mp hpair
    exact hvalues value hvalue
  | tuple _ hvalues => exact hvalues pair hpair
  | _ => cases hpair

/-- The types of components are as well formed as the type around them. -/
theorem wellFormed_of_mem_components (hwf : type.WellFormed) {pair : AbiType × AbiValue}
    (hpair : pair ∈ components type value) : pair.1.WellFormed := by
  rcases type_of_mem_components hpair with rfl | ⟨size, rfl⟩ | ⟨types, rfl, hmem⟩
  · cases hwf with
    | array hwf => exact hwf
  · cases hwf with
    | fixedArray _ hwf => exact hwf
  · cases hwf with
    | tuple hwf => exact hwf _ hmem

/-- **Induction on components**: a property of types holds if it holds of a type whenever it holds
    of the types of all components of its values. -/
@[elab_as_elim]
theorem components_induction {motive : AbiType → Prop}
    (step : ∀ type : AbiType, type.WellFormed →
      (∀ value, ∀ pair ∈ components type value, motive pair.1) → motive type)
    (hwf : type.WellFormed) : motive type := by
  have leaf {type : AbiType} (hwf : type.WellFormed) (h : ∀ value, components type value = []) :
      motive type :=
    step type hwf fun value pair hpair => by
      rw [h value] at hpair
      cases hpair
  induction hwf with
  | address => exact leaf .address fun _ => rfl
  | uint h => exact leaf (.uint h) fun _ => rfl
  | int h => exact leaf (.int h) fun _ => rfl
  | bool => exact leaf .bool fun _ => rfl
  | bytes => exact leaf .bytes fun _ => rfl
  | fixedBytes h => exact leaf (.fixedBytes h) fun _ => rfl
  | string => exact leaf .string fun _ => rfl
  | array hwf ih =>
    refine step _ (.array hwf) fun value pair hpair => ?_
    rcases type_of_mem_components hpair with h | ⟨_, h⟩ | ⟨_, h, _⟩
    · cases h; exact ih
    · cases h
    · cases h
  | fixedArray hsize hwf ih =>
    refine step _ (.fixedArray hsize hwf) fun value pair hpair => ?_
    rcases type_of_mem_components hpair with h | ⟨_, h⟩ | ⟨_, h, _⟩
    · cases h
    · cases h; exact ih
    · cases h
  | tuple hwf ih =>
    refine step _ (.tuple hwf) fun value pair hpair => ?_
    rcases type_of_mem_components hpair with h | ⟨_, h⟩ | ⟨_, h, hmem⟩
    · cases h
    · cases h
    · cases h; exact ih _ hmem

/-- **What holds along a path.** What stands at a position of a value of a type is a value of its
    type, and what is packed for it is no longer than what is packed for the whole. -/
theorem ComponentAt.inhabits {path : List Nat} {inner : AbiType} {content : AbiValue}
    (h : ComponentAt type value path inner content) (hvalue : Inhabits type value)
    (hwf : type.WellFormed) :
    Inhabits inner content ∧ inner.WellFormed ∧
      (encodeValue inner content).length ≤ (encodeValue type value).length := by
  induction h with
  | root => exact ⟨hvalue, hwf, Nat.le_refl _⟩
  | inside hcomponent _ ih =>
    have hmem := List.mem_of_getElem? hcomponent
    obtain ⟨hinner, hwf', hle⟩ :=
      ih (hvalue.of_mem_components hmem) (wellFormed_of_mem_components hwf hmem)
    exact ⟨hinner, hwf', Nat.le_trans hle (length_encodeValue_le_of_mem hmem)⟩

theorem Inhabits.sameKind_eq (h : Inhabits type value) : sameKind type value = true := by
  cases h <;> rfl

/-! ## Faults -/

/-- **What is wrong with a value of a type by itself**, and the error that says so: another kind, a
    number out of range, or a wrong length. Nothing is said about components. -/
inductive Offends : AbiType → AbiValue → AbiError → Prop where
  | kind {type : AbiType} {value : AbiValue} (h : sameKind type value = false) :
      Offends type value (.argumentType type.text value.shape)
  | uint {bits : Nat} {n : Word} (h : 2 ^ bits ≤ n.toNat) :
      Offends (.uint bits) (.uint n) (.integerOverflow (AbiType.uint bits).text n.text)
  | int {bits : Nat} {i : SignedWord}
      (h : i.toInt < -(2 ^ (bits - 1) : Nat) ∨ (2 ^ (bits - 1) : Nat) ≤ i.toInt) :
      Offends (.int bits) (.int i) (.integerOverflow (AbiType.int bits).text i.text)
  | fixedBytes {size : Nat} {bs : Bytes} (h : bs.length ≠ size) :
      Offends (.fixedBytes size) (.fixedBytes bs)
        (.argumentType (AbiType.fixedBytes size).text (AbiValue.fixedBytes bs).shape)
  | fixedArray {element : AbiType} {size : Nat} {values : List AbiValue}
      (h : values.length ≠ size) :
      Offends (.fixedArray element size) (.fixedArray values) (.arrayLength size values.length)
  | tuple {types : List AbiType} {values : List AbiValue} (h : types.length ≠ values.length) :
      Offends (.tuple types) (.tuple values) (.argumentCount types.length values.length)

/-- No position of a value is at fault. -/
def Faultless (type : AbiType) (value : AbiValue) : Prop :=
  ∀ path inner content e, ComponentAt type value path inner content → ¬ Offends inner content e

/-- **The first fault**: a position that is at fault, with its error, such that none before it is.
    Paths are compared number by number, and a path comes before all that go on from it. -/
structure IsFirstFault (type : AbiType) (value : AbiValue) (path : List Nat) (e : AbiError) :
    Prop where
  /-- The position is at fault. -/
  offends : ∃ inner content, ComponentAt type value path inner content ∧ Offends inner content e
  /-- No position before it is. -/
  first : ∀ before, List.Lex (· < ·) before path → ∀ inner content e',
    ComponentAt type value before inner content → ¬ Offends inner content e'

/-- A value is faultless if it is not at fault by itself and its components are faultless. -/
theorem faultless_iff :
    Faultless type value ↔ (∀ e, ¬ Offends type value e) ∧
      ∀ pair ∈ components type value, Faultless pair.1 pair.2 := by
  constructor
  · intro h
    refine ⟨fun e => h [] type value e .root, ?_⟩
    intro pair hpair path inner content e hat
    obtain ⟨i, hi⟩ := List.mem_iff_getElem?.mp hpair
    exact h (i :: path) inner content e (.inside hi hat)
  · rintro ⟨hroot, hcomponents⟩ path inner content e hat
    cases hat with
    | root => exact hroot e
    | inside hcomponent hinside =>
      exact hcomponents _ (List.mem_of_getElem? hcomponent) _ inner content e hinside

/-- A first fault is the value itself, or the first fault of a component behind faultless ones. -/
theorem exists_isFirstFault_iff {e : AbiError} :
    (∃ path, IsFirstFault type value path e) ↔
      Offends type value e ∨ (∀ e', ¬ Offends type value e') ∧
        ∃ (i : Nat) (pair : AbiType × AbiValue), (components type value)[i]? = some pair ∧
          (∃ path, IsFirstFault pair.1 pair.2 path e) ∧
          ∀ j < i, ∀ other : AbiType × AbiValue, (components type value)[j]? = some other →
            Faultless other.1 other.2 := by
  constructor
  · rintro ⟨path, ⟨inner, content, hat, hoffends⟩, hfirst⟩
    cases hat with
    | root => exact .inl hoffends
    | @inside _ inner' _ _ content' _ i path hcomponent hinside =>
      refine .inr ⟨fun e' => hfirst [] .nil _ _ e' .root, i,
        (inner', content'), hcomponent, ⟨path, ⟨inner, content, hinside, hoffends⟩, ?_⟩, ?_⟩
      · intro before hbefore inner content e' hat
        exact hfirst (i :: before) (.cons hbefore) inner content e' (.inside hcomponent hat)
      · intro j hj other hother before inner content e' hat
        exact hfirst (j :: before) (.rel hj) inner content e' (.inside hother hat)
  · rintro (hoffends | ⟨hroot, i, pair, hcomponent, ⟨path, ⟨inner, content, hat, hoffends⟩, hfirst⟩,
      hbefore⟩)
    · refine ⟨[], ⟨type, value, .root, hoffends⟩, ?_⟩
      intro before hlt
      cases hlt
    · refine ⟨i :: path, ⟨inner, content, .inside hcomponent hat, hoffends⟩, ?_⟩
      intro before hlt inner content e' hat'
      cases hat' with
      | root => exact hroot e'
      | @inside _ inner' _ _ content' _ j before' hother hinside =>
        cases hlt with
        | rel hj => exact hbefore j hj (inner', content') hother before' inner content e' hinside
        | cons hpath =>
          cases Option.some.inj (hcomponent.symm.trans hother)
          exact hfirst before' hpath inner content e' hinside

/-! ## The check -/

theorem fitsIn_iff_of_isIntegerWidth {bits : Nat} (h : AbiType.IsIntegerWidth bits)
    (i : SignedWord) :
    i.fitsIn bits = true ↔
      ¬ (i.toInt < -(2 ^ (bits - 1) : Nat) ∨ (2 ^ (bits - 1) : Nat) ≤ i.toInt) := by
  obtain ⟨hlow, hhigh, -⟩ := h
  rw [SignedWord.fitsIn_iff, bitBound_eq]
  omega

/-- The check reports what is wrong with a value by itself. -/
theorem check_of_offends (hwf : type.WellFormed) {e : AbiError} (h : Offends type value e) :
    check type value = .error e := by
  cases h with
  | kind h => cases type <;> cases value <;> first | rfl | cases h
  | uint h => exact if_neg (Nat.not_lt.mpr h)
  | int h =>
    cases hwf with
    | int hwidth => exact if_neg fun hfits => (fitsIn_iff_of_isIntegerWidth hwidth _).mp hfits h
  | fixedBytes h => exact if_neg h
  | fixedArray h => exact if_neg h
  | tuple h => exact if_neg h

theorem checkEach_eq_checkFields (element : AbiType) (values : List AbiValue) :
    checkEach element values =
      checkFields ((values.map (element, ·)).map Prod.fst)
        ((values.map (element, ·)).map Prod.snd) := by
  induction values with
  | nil => rfl
  | cons value values ih =>
    rw [checkEach, ih]
    rfl

/-- When nothing is wrong with a value by itself, the check goes through its components. -/
theorem check_of_not_offends (hwf : type.WellFormed) (h : ∀ e, ¬ Offends type value e) :
    check type value =
      checkFields ((components type value).map Prod.fst)
        ((components type value).map Prod.snd) := by
  have hkind : sameKind type value = true := by
    by_contra hother
    exact h _ (.kind (Bool.eq_false_iff.mpr hother))
  unfold sameKind at hkind
  split at hkind
  · rfl
  · exact if_pos (Nat.not_le.mp fun hle => h _ (.uint hle))
  · cases hwf with
    | int hwidth =>
      exact if_pos ((fitsIn_iff_of_isIntegerWidth hwidth _).mpr fun hout => h _ (.int hout))
  · rfl
  · rfl
  · exact if_pos (not_not.mp fun hlen => h _ (.fixedBytes hlen))
  · rfl
  · exact checkEach_eq_checkFields _ _
  · rw [check, if_pos (not_not.mp fun hlen => h _ (.fixedArray hlen))]
    exact checkEach_eq_checkFields _ _
  · next types values =>
    have hlen : types.length = values.length := not_not.mp fun hlen => h _ (.tuple hlen)
    rw [check, if_pos hlen, components, List.map_fst_zip hlen.le, List.map_snd_zip hlen.ge]
  · cases hkind

/-- A run through components fails with the first of them that fails. -/
theorem checkFields_eq_error_iff {pairs : List (AbiType × AbiValue)} {e : AbiError} :
    checkFields (pairs.map Prod.fst) (pairs.map Prod.snd) = .error e ↔
      ∃ (i : Nat) (pair : AbiType × AbiValue), pairs[i]? = some pair ∧
        check pair.1 pair.2 = .error e ∧
        ∀ j < i, ∀ other : AbiType × AbiValue, pairs[j]? = some other →
          check other.1 other.2 = .ok () := by
  induction pairs with
  | nil => simp [checkFields]
  | cons pair pairs ih =>
    rw [List.map_cons, List.map_cons, checkFields]
    cases hcheck : check pair.1 pair.2 with
    | error e' =>
      constructor
      · intro h
        exact ⟨0, pair, rfl, hcheck.trans h, fun j hj => absurd hj (Nat.not_lt_zero j)⟩
      · rintro ⟨i, other, hother, herror, hbefore⟩
        cases i with
        | zero =>
          cases hother
          exact hcheck.symm.trans herror
        | succ i =>
          have hok := hbefore 0 (Nat.succ_pos i) pair rfl
          cases hcheck.symm.trans hok
    | ok u =>
      refine ih.trans ⟨?_, ?_⟩
      · rintro ⟨i, other, hother, herror, hbefore⟩
        refine ⟨i + 1, other, hother, herror, ?_⟩
        intro j hj before hj'
        cases j with
        | zero =>
          cases hj'
          exact hcheck
        | succ j => exact hbefore j (Nat.lt_of_succ_lt_succ hj) before hj'
      · rintro ⟨i, other, hother, herror, hbefore⟩
        cases i with
        | zero =>
          cases hother
          cases hcheck.symm.trans herror
        | succ i =>
          refine ⟨i, other, hother, herror, ?_⟩
          intro j hj before hj'
          exact hbefore (j + 1) (Nat.succ_lt_succ hj) before hj'

/-- **The check passes the values without a fault.** -/
theorem check_eq_ok_iff_faultless (hwf : type.WellFormed) (value : AbiValue) :
    check type value = .ok () ↔ Faultless type value := by
  revert value
  refine components_induction (fun type hwf ih value => ?_) hwf
  rw [faultless_iff]
  by_cases hroot : ∀ e, ¬ Offends type value e
  · rw [check_of_not_offends hwf hroot, checkFields_eq_ok_iff, ← List.zip_of_prod rfl rfl,
      and_iff_right hroot]
    exact forall₂_congr fun pair hpair => ih value pair hpair pair.2
  · obtain ⟨e, he⟩ := not_forall_not.mp hroot
    rw [check_of_offends hwf he]
    exact ⟨fun h => (nomatch h), fun h => absurd he (h.1 e)⟩

/-- **The check reports the first fault.** -/
theorem check_eq_error_iff (hwf : type.WellFormed) (value : AbiValue) {e : AbiError} :
    check type value = .error e ↔ ∃ path, IsFirstFault type value path e := by
  revert value
  refine components_induction (fun type hwf ih value => ?_) hwf
  rw [exists_isFirstFault_iff]
  by_cases hroot : ∀ e, ¬ Offends type value e
  · rw [check_of_not_offends hwf hroot, checkFields_eq_error_iff, or_iff_right (hroot e),
      and_iff_right hroot]
    refine exists_congr fun i => exists_congr fun pair => and_congr_right fun hpair => ?_
    refine and_congr (ih value pair (List.mem_of_getElem? hpair) pair.2) ?_
    refine forall₂_congr fun j hj => forall₂_congr fun other hother => ?_
    have hwf' := wellFormed_of_mem_components hwf (List.mem_of_getElem? hother)
    exact check_eq_ok_iff_faultless hwf' other.2
  · obtain ⟨e', he'⟩ := not_forall_not.mp hroot
    rw [or_iff_left fun h => h.1 e' he']
    constructor
    · intro h
      cases (check_of_offends hwf he').symm.trans h
      exact he'
    · exact check_of_offends hwf

/-! ## The packer -/

/-- A list of values is checked as a tuple is. -/
theorem encode_eq_map_check (types : List AbiType) (values : List AbiValue) :
    encode types values = (check (.tuple types) (.tuple values)).map
      fun _ => encodeValue (.tuple types) (.tuple values) := by
  rw [encode, check, encodeValue]
  split
  · cases checkFields types values <;> rfl
  · rfl

/-- The head of a static value that is packed is an offset, if the data are no longer than one. -/
theorem headLength_eq_headSize (hvalue : Inhabits type value) (hwf : type.WellFormed)
    (hlen : (encodeValue type value).length ≤ maxOffset) : type.headLength = type.headSize := by
  rw [AbiType.headLength]
  apply Nat.min_eq_left
  cases hdynamic : type.isDynamic with
  | true =>
    rw [headSize_of_isDynamic hdynamic]
    decide
  | false => rwa [← length_encodeValue hvalue hwf hdynamic]

/-- **What is packed, and what is reported otherwise.** Values are packed exactly if there are as
    many as there are types and each is one of its type; said position by position, if none is at
    fault, where the bounds of numbers stand in `Offends`. Then every position that the packer comes
    to is of the kind of its type, so that the packer never falls back to packing nothing; and if
    the data have a length of 64 bits, no head on the way is cut, and what is packed for a position
    is the encoding that the format defines. When values are refused, the error is that of the first
    position at fault. -/
theorem encode_eq_ok_or_first_fault {types : List AbiType}
    (hnamed : ∀ type ∈ types, type.IsNamed) (values : List AbiValue) :
    ((∃ data, encode types values = .ok data) ↔
        types.length = values.length ∧ ∀ pair ∈ types.zip values, Inhabits pair.1 pair.2) ∧
      ((∃ data, encode types values = .ok data) ↔ Faultless (.tuple types) (.tuple values)) ∧
      (∀ data, encode types values = .ok data → ∀ path type value,
        ComponentAt (.tuple types) (.tuple values) path type value →
          sameKind type value = true ∧
            (data.length ≤ maxOffset → type.headLength = type.headSize ∧
              Encodes type value (encodeValue type value))) ∧
      ∀ e, encode types values = .error e ↔
        ∃ path, IsFirstFault (.tuple types) (.tuple values) path e := by
  have hwf : (AbiType.tuple types).WellFormed :=
    .tuple fun type htype => AbiType.wellFormed_of_isNamed (hnamed type htype)
  have hcheck : (∃ data, encode types values = .ok data) ↔
      check (.tuple types) (.tuple values) = .ok () := by
    rw [encode_eq_map_check]
    cases check (.tuple types) (.tuple values) with
    | ok u => exact ⟨fun _ => rfl, fun _ => ⟨_, rfl⟩⟩
    | error e => exact ⟨fun ⟨_, h⟩ => (nomatch h), fun h => (nomatch h)⟩
  refine ⟨?_, hcheck.trans (check_eq_ok_iff_faultless hwf _), ?_, ?_⟩
  · constructor
    · rintro ⟨data, h⟩
      obtain ⟨hlen, hall, -⟩ := encode_eq_ok_iff.mp h
      exact ⟨hlen, hall⟩
    · rintro ⟨hlen, hall⟩
      exact ⟨_, encode_eq_ok_iff.mpr ⟨hlen, hall, rfl⟩⟩
  · intro data h path type value hat
    obtain ⟨hlen, hall, rfl⟩ := encode_eq_ok_iff.mp h
    obtain ⟨hvalue, hwf', hle⟩ := hat.inhabits (.tuple hlen hall) hwf
    refine ⟨hvalue.sameKind_eq, fun hmax => ?_⟩
    have hle := Nat.le_trans hle hmax
    exact ⟨headLength_eq_headSize hvalue hwf' hle, encodes_encodeValue hvalue hwf' hle⟩
  · intro e
    rw [encode_eq_map_check, Outcome.map_eq_error_iff, check_eq_error_iff hwf]

/-- The second of three elements is out of range; the third, of another kind, is not reported. -/
theorem encode_eq_ok_or_first_fault_elements :
    let types : List AbiType := [.tuple [.uint 8, .bool], .array (.int 8)]
    let good : List AbiValue := [.tuple [.uint 7, .bool true], .array [.int (.ofInt (-128))]]
    let bad : List AbiValue :=
      [.tuple [.uint 7, .bool true], .array [.int (.ofInt 5), .int (.ofInt 200), .bool true]]
    (∃ data, encode types good = .ok data) ∧ Faultless (.tuple types) (.tuple good) ∧
      encode types bad = .error (.integerOverflow "int8" "200") ∧
      ∃ path, IsFirstFault (.tuple types) (.tuple bad) path (.integerOverflow "int8" "200") := by
  intro types good bad
  have hnamed : ∀ type ∈ types, type.IsNamed := by
    intro type htype
    rcases List.mem_pair.mp htype with rfl | rfl
    · refine AbiType.isNamed_iff.mpr (.tuple ?_)
      intro field hfield
      rcases List.mem_pair.mp hfield with rfl | rfl
      · exact .uint ⟨by decide, by decide, by decide⟩
      · exact .bool
    · exact AbiType.isNamed_iff.mpr (.array (.int ⟨by decide, by decide, by decide⟩))
  obtain ⟨-, hfaultless, -, -⟩ := encode_eq_ok_or_first_fault hnamed good
  obtain ⟨-, -, -, herror⟩ := encode_eq_ok_or_first_fault hnamed bad
  have hgood : ∃ data, encode types good = .ok data := ⟨_, rfl⟩
  have hbad : encode types bad = .error (.integerOverflow "int8" "200") := rfl
  exact ⟨hgood, hfaultless.mp hgood, hbad, (herror _).mp hbad⟩

end Abi

end ChainClient
