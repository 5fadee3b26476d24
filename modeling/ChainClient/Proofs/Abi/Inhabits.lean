import ChainClient.Abi.Encode

/-!
# `ChainClient.Proofs.Abi.Inhabits` — which values a type has

The check that runs before anything is packed is a function of a type and a value. `Inhabits` says
without a function which values a type has: a shape, and bounds on numbers and lengths.

## Contents
- **Induction.** `AbiType.induction` gives a hypothesis for every field of a tuple.
- **The relation.** `Inhabits`.
- **The check.** `check_eq_ok_iff`: the check passes exactly the values that a type has.
-/

namespace ChainClient

/-! ## Induction -/

/-- Induction on types: a property holds of a tuple when it holds of its fields. -/
@[elab_as_elim]
theorem AbiType.induction {motive : AbiType → Prop} (address : motive .address)
    (uint : ∀ bits, motive (.uint bits)) (int : ∀ bits, motive (.int bits)) (bool : motive .bool)
    (bytes : motive .bytes) (fixedBytes : ∀ size, motive (.fixedBytes size))
    (string : motive .string) (array : ∀ element, motive element → motive (.array element))
    (fixedArray : ∀ element size, motive element → motive (.fixedArray element size))
    (tuple : ∀ fields, (∀ field ∈ fields, motive field) → motive (.tuple fields))
    (type : AbiType) : motive type := by
  refine @AbiType.rec motive (fun fields => ∀ field ∈ fields, motive field) address uint int bool
    bytes fixedBytes string array fixedArray tuple ?_ ?_ type
  · intro field hfield
    cases hfield
  · intro head tail ihhead ihtail field hfield
    rcases List.mem_cons.mp hfield with rfl | hfield
    · exact ihhead
    · exact ihtail field hfield

namespace Abi

/-! ## The relation -/

/-- **The values of a type.** Numbers fit their widths, byte strings and arrays of a fixed length
    have it, and the parts of a value are values of the types of the parts. -/
inductive Inhabits : AbiType → AbiValue → Prop where
  | address (a : Address) : Inhabits .address (.address a)
  | uint {bits : Nat} {n : Word} (h : n.toNat < bitBound bits) : Inhabits (.uint bits) (.uint n)
  | int {bits : Nat} {i : SignedWord} (h : i.fitsIn bits = true) : Inhabits (.int bits) (.int i)
  | bool (b : Bool) : Inhabits .bool (.bool b)
  | bytes (bs : Bytes) : Inhabits .bytes (.bytes bs)
  | fixedBytes {size : Nat} {bs : Bytes} (h : bs.length = size) :
      Inhabits (.fixedBytes size) (.fixedBytes bs)
  | string (s : String) : Inhabits .string (.string s)
  | array {element : AbiType} {values : List AbiValue}
      (h : ∀ value ∈ values, Inhabits element value) :
      Inhabits (.array element) (.array values)
  | fixedArray {element : AbiType} {size : Nat} {values : List AbiValue}
      (hsize : values.length = size)
      (h : ∀ value ∈ values, Inhabits element value) :
      Inhabits (.fixedArray element size) (.fixedArray values)
  | tuple {types : List AbiType} {values : List AbiValue} (hsize : types.length = values.length)
      (h : ∀ pair ∈ types.zip values, Inhabits pair.1 pair.2) :
      Inhabits (.tuple types) (.tuple values)

/-! ## The check -/

theorem checkEach_eq_ok_iff {type : AbiType} {values : List AbiValue} :
    checkEach type values = .ok () ↔ ∀ value ∈ values, check type value = .ok () := by
  induction values with
  | nil => simp [checkEach]
  | cons value values ih =>
    rw [checkEach, List.forall_mem_cons, ← ih]
    cases check type value with
    | ok u => cases u; simp
    | error e => simp

theorem checkFields_eq_ok_iff {types : List AbiType} {values : List AbiValue} :
    checkFields types values = .ok () ↔
      ∀ pair ∈ types.zip values, check pair.1 pair.2 = .ok () := by
  induction types generalizing values with
  | nil => simp [checkFields]
  | cons type types ih =>
    cases values with
    | nil => simp [checkFields]
    | cons value values =>
      rw [checkFields, List.zip_cons_cons, List.forall_mem_cons, ← ih]
      cases check type value with
      | ok u => cases u; simp
      | error e => simp

/-- The check refuses the values that a type does not have. -/
theorem inhabits_of_check {type : AbiType} {value : AbiValue} (h : check type value = .ok ()) :
    Inhabits type value := by
  -- a value of another shape than its type is refused by the last line of the check
  induction type using AbiType.induction generalizing value with
  | address =>
    cases value with
    | address a => exact .address a
    | _ => cases h
  | uint bits =>
    cases value with
    | uint n =>
      rw [check] at h
      split at h
      · next hn => exact .uint hn
      · cases h
    | _ => cases h
  | int bits =>
    cases value with
    | int i =>
      rw [check] at h
      split at h
      · next hi => exact .int hi
      · cases h
    | _ => cases h
  | bool =>
    cases value with
    | bool b => exact .bool b
    | _ => cases h
  | bytes =>
    cases value with
    | bytes bs => exact .bytes bs
    | _ => cases h
  | fixedBytes size =>
    cases value with
    | fixedBytes bs =>
      rw [check] at h
      split at h
      · next hsize => exact .fixedBytes hsize
      · cases h
    | _ => cases h
  | string =>
    cases value with
    | string s => exact .string s
    | _ => cases h
  | array element ih =>
    cases value with
    | array values =>
      rw [check, checkEach_eq_ok_iff] at h
      exact .array fun value hvalue => ih (h value hvalue)
    | _ => cases h
  | fixedArray element size ih =>
    cases value with
    | fixedArray values =>
      rw [check] at h
      split at h
      · next hsize =>
        rw [checkEach_eq_ok_iff] at h
        exact .fixedArray hsize fun value hvalue => ih (h value hvalue)
      · cases h
    | _ => cases h
  | tuple types ih =>
    cases value with
    | tuple values =>
      rw [check] at h
      split at h
      · next hsize =>
        rw [checkFields_eq_ok_iff] at h
        exact .tuple hsize fun pair hpair => ih _ (List.of_mem_zip hpair).1 (h pair hpair)
      · cases h
    | _ => cases h

/-- The check passes the values that a type has. -/
theorem check_of_inhabits {type : AbiType} {value : AbiValue} (h : Inhabits type value) :
    check type value = .ok () := by
  induction h with
  | address a => rfl
  | uint hn => rw [check, if_pos hn]
  | int hi => rw [check, if_pos hi]
  | bool b => rfl
  | bytes bs => rfl
  | fixedBytes hsize => rw [check, if_pos hsize]
  | string s => rfl
  | array _ ih =>
    rw [check, checkEach_eq_ok_iff]
    exact ih
  | fixedArray hsize _ ih =>
    rw [check, if_pos hsize, checkEach_eq_ok_iff]
    exact ih
  | tuple hsize _ ih =>
    rw [check, if_pos hsize, checkFields_eq_ok_iff]
    exact ih

/-- **The check passes exactly the values that a type has.** -/
theorem check_eq_ok_iff {type : AbiType} {value : AbiValue} :
    check type value = .ok () ↔ Inhabits type value :=
  ⟨inhabits_of_check, check_of_inhabits⟩

end Abi

end ChainClient
