import ChainClient.Proofs.Abi.Inhabits
import ChainClient.Proofs.Abi.Region
import ChainClient.Proofs.Abi.WellFormed
import ChainClient.Proofs.Outcome
import ChainClient.Proofs.TwosComplement

/-!
# `ChainClient.Proofs.Abi.Layout` — the packer writes the encoding that the format defines

The format defines the encoding of a value by recursion on its type: words for the elementary
types, a length and padding for byte strings, and a region for whatever has parts. `Encodes` is
that definition, with the law of regions (`IsRegion`) at every depth and no pass over the parts.

## Contents
- **The definition.** `Slot`, `Encodes` and `EncodesAll`; `Encodes.unique` shows that it leaves no
  choice.
- **Lengths.** `Encodes.aligned`: whole words at every depth; `length_layout_of_static` and
  `length_body_le` for regions.
- **The slots of the packer.** `partsOfEach_eq` and `partsOfFields_eq`: the packer's parts are those
  of slots.
- **Static values.** `length_encodeValue` counts the bytes of a static value.
- **The packer.** `encodes_encodeValue` for one value, and `encodesAll_iff_eq_of_encode` for a
  list: what is packed is what the format defines, and nothing else is.
-/

namespace ChainClient

namespace Abi

open AbiType (maxOffset)

/-! ## The definition -/

/-- A value of a type, beside the bytes that encode it in a region. -/
structure Slot where
  /-- The type. -/
  type : AbiType
  /-- The value. -/
  value : AbiValue
  /-- The encoding. -/
  bytes : Bytes

namespace Slot

/-- The part of a region that a slot fills. -/
def part (slot : Slot) : Part := ⟨slot.type.isDynamic, slot.type.headLength, slot.bytes⟩

/-- The slot of a value with the bytes that the packer writes for it. -/
def packed (type : AbiType) (value : AbiValue) : Slot := ⟨type, value, encodeValue type value⟩

end Slot

/-- The zeros behind a byte string, up to the next whole word. -/
def IsPadding (length : Nat) (padding : Bytes) : Prop :=
  padding = List.replicate padding.length 0 ∧ padding.length < 32 ∧ 32 ∣ length + padding.length

/-- **The encodings that the format defines**, by recursion on the type. Numbers fill a word, texts
    and byte strings stand behind their length, and values with parts are regions of their own. -/
inductive Encodes : AbiType → AbiValue → Bytes → Prop where
  | address (a : Address) : Encodes .address (.address a) (List.replicate 12 0 ++ a.bytes)
  | uint {bits : Nat} {n : Word} (h : n.toNat < bitBound bits) :
      Encodes (.uint bits) (.uint n) (Bytes.ofNat 32 n.toNat)
  | int {bits : Nat} {i : SignedWord} (h : i.fitsIn bits = true) :
      Encodes (.int bits) (.int i) (Bytes.ofNat 32 (i.toInt % (2 ^ 256 : Nat)).toNat)
  | bool (b : Bool) : Encodes .bool (.bool b) (Bytes.ofNat 32 (if b then 1 else 0))
  | fixedBytes {size : Nat} {bs : Bytes} (hsize : size ≤ 32) (h : bs.length = size) :
      Encodes (.fixedBytes size) (.fixedBytes bs) (bs ++ List.replicate (32 - size) 0)
  | bytes {bs padding : Bytes} (h : IsPadding bs.length padding) :
      Encodes .bytes (.bytes bs) (Bytes.ofNat 32 bs.length ++ (bs ++ padding))
  | string {s : String} {padding : Bytes} (h : IsPadding (Utf8.bytes s).length padding) :
      Encodes .string (.string s)
        (Bytes.ofNat 32 (Utf8.bytes s).length ++ (Utf8.bytes s ++ padding))
  | array {element : AbiType} {slots : List Slot} {body : Bytes}
      (htype : ∀ slot ∈ slots, slot.type = element)
      (h : ∀ slot ∈ slots, Encodes slot.type slot.value slot.bytes)
      (hbody : IsRegion (slots.map Slot.part) body) :
      Encodes (.array element) (.array (slots.map Slot.value))
        (Bytes.ofNat 32 slots.length ++ body)
  | fixedArray {element : AbiType} {slots : List Slot} {body : Bytes}
      (htype : ∀ slot ∈ slots, slot.type = element)
      (h : ∀ slot ∈ slots, Encodes slot.type slot.value slot.bytes)
      (hbody : IsRegion (slots.map Slot.part) body) :
      Encodes (.fixedArray element slots.length) (.fixedArray (slots.map Slot.value)) body
  | tuple {slots : List Slot} {body : Bytes}
      (h : ∀ slot ∈ slots, Encodes slot.type slot.value slot.bytes)
      (hbody : IsRegion (slots.map Slot.part) body) :
      Encodes (.tuple (slots.map Slot.type)) (.tuple (slots.map Slot.value)) body

/-- The encoding of a list of values that the format defines: the region of the encodings. -/
def EncodesAll (types : List AbiType) (values : List AbiValue) (data : Bytes) : Prop :=
  ∃ slots : List Slot, slots.map Slot.type = types ∧ slots.map Slot.value = values ∧
    (∀ slot ∈ slots, Encodes slot.type slot.value slot.bytes) ∧
    IsRegion (slots.map Slot.part) data

/-- Padding is determined by the length. -/
theorem IsPadding.unique {length : Nat} {p q : Bytes} (hp : IsPadding length p)
    (hq : IsPadding length q) : p = q := by
  obtain ⟨hp0, hplt, hpdvd⟩ := hp
  obtain ⟨hq0, hqlt, hqdvd⟩ := hq
  have hlen : p.length = q.length := by omega
  rw [hp0, hq0, hlen]

/-- Slots of the same types and values whose encodings are unique are the same. -/
theorem slots_unique {slots others : List Slot}
    (h : ∀ slot ∈ slots, ∀ bs, Encodes slot.type slot.value bs → slot.bytes = bs)
    (hothers : ∀ slot ∈ others, Encodes slot.type slot.value slot.bytes)
    (htypes : slots.map Slot.type = others.map Slot.type)
    (hvalues : slots.map Slot.value = others.map Slot.value) : slots = others := by
  induction slots generalizing others with
  | nil => exact (List.map_eq_nil_iff.mp htypes.symm).symm
  | cons slot slots ih =>
    cases others with
    | nil => cases htypes
    | cons other others =>
      rw [List.map_cons, List.map_cons, List.cons.injEq] at htypes hvalues
      have hbytes : slot.bytes = other.bytes := by
        apply h slot List.mem_cons_self
        rw [htypes.1, hvalues.1]
        exact hothers other List.mem_cons_self
      have hslot : slot = other := by
        cases slot
        cases other
        cases htypes.1
        cases hvalues.1
        cases hbytes
        rfl
      rw [hslot, ih (fun s hs => h s (List.mem_cons_of_mem slot hs))
        (fun s hs => hothers s (List.mem_cons_of_mem other hs)) htypes.2 hvalues.2]

/-- Slots of one type have the types that a list of their values has. -/
theorem map_type_eq {element : AbiType} {slots others : List Slot}
    (h : ∀ slot ∈ slots, slot.type = element) (hothers : ∀ slot ∈ others, slot.type = element)
    (hlen : slots.length = others.length) : slots.map Slot.type = others.map Slot.type := by
  rw [List.map_eq_replicate_iff.mpr h, List.map_eq_replicate_iff.mpr hothers, hlen]

theorem Encodes.of_array {element : AbiType} {value : AbiValue} {bs : Bytes}
    (h : Encodes (.array element) value bs) :
    ∃ (slots : List Slot) (body : Bytes), value = .array (slots.map Slot.value) ∧
      bs = Bytes.ofNat 32 slots.length ++ body ∧ (∀ slot ∈ slots, slot.type = element) ∧
      (∀ slot ∈ slots, Encodes slot.type slot.value slot.bytes) ∧
      IsRegion (slots.map Slot.part) body := by
  cases h with
  | array htype hslots hbody => exact ⟨_, _, rfl, rfl, htype, hslots, hbody⟩

theorem Encodes.of_fixedArray {element : AbiType} {size : Nat} {value : AbiValue} {bs : Bytes}
    (h : Encodes (.fixedArray element size) value bs) :
    ∃ slots : List Slot, value = .fixedArray (slots.map Slot.value) ∧ size = slots.length ∧
      (∀ slot ∈ slots, slot.type = element) ∧
      (∀ slot ∈ slots, Encodes slot.type slot.value slot.bytes) ∧
      IsRegion (slots.map Slot.part) bs := by
  cases h with
  | fixedArray htype hslots hbody => exact ⟨_, rfl, rfl, htype, hslots, hbody⟩

theorem Encodes.of_tuple {types : List AbiType} {value : AbiValue} {bs : Bytes}
    (h : Encodes (.tuple types) value bs) :
    ∃ slots : List Slot, value = .tuple (slots.map Slot.value) ∧ types = slots.map Slot.type ∧
      (∀ slot ∈ slots, Encodes slot.type slot.value slot.bytes) ∧
      IsRegion (slots.map Slot.part) bs := by
  cases h with
  | tuple hslots hbody => exact ⟨_, rfl, rfl, hslots, hbody⟩

/-- **The format leaves no choice**: a value of a type has one encoding. -/
theorem Encodes.unique {type : AbiType} {value : AbiValue} {bs other : Bytes}
    (h : Encodes type value bs) (hother : Encodes type value other) : bs = other := by
  induction h generalizing other with
  | address a => cases hother; rfl
  | uint => cases hother; rfl
  | int => cases hother; rfl
  | bool => cases hother; rfl
  | fixedBytes => cases hother; rfl
  | bytes hpad =>
    cases hother with
    | bytes hpad' => rw [hpad.unique hpad']
  | string hpad =>
    cases hother with
    | string hpad' => rw [hpad.unique hpad']
  | array htype h hbody ih =>
    obtain ⟨slots, body, hvalue, hbytes, htype', h', hbody'⟩ := hother.of_array
    -- the number of values settles the number of slots, and so the types
    have hvalues := AbiValue.array.inj hvalue
    have hlen := congrArg List.length hvalues
    rw [List.length_map, List.length_map] at hlen
    have heq := slots_unique (fun slot hslot bs => ih slot hslot) h'
      (map_type_eq htype htype' hlen) hvalues
    subst heq
    rw [hbytes, hbody.eq_heads_tails, hbody'.eq_heads_tails]
  | fixedArray htype h hbody ih =>
    obtain ⟨slots, hvalue, hlen, htype', h', hbody'⟩ := hother.of_fixedArray
    have hvalues := AbiValue.fixedArray.inj hvalue
    have heq := slots_unique (fun slot hslot bs => ih slot hslot) h'
      (map_type_eq htype htype' hlen) hvalues
    subst heq
    rw [hbody.eq_heads_tails, hbody'.eq_heads_tails]
  | tuple h hbody ih =>
    obtain ⟨slots, hvalue, htypes, h', hbody'⟩ := hother.of_tuple
    have hvalues := AbiValue.tuple.inj hvalue
    have heq := slots_unique (fun slot hslot bs => ih slot hslot) h' htypes hvalues
    subst heq
    rw [hbody.eq_heads_tails, hbody'.eq_heads_tails]

theorem EncodesAll.unique {types : List AbiType} {values : List AbiValue} {data other : Bytes}
    (h : EncodesAll types values data) (hother : EncodesAll types values other) : data = other := by
  obtain ⟨slots, htypes, hvalues, hslots, hdata⟩ := h
  obtain ⟨slots', htypes', hvalues', hslots', hdata'⟩ := hother
  have heq := slots_unique (fun slot hslot bs hbs => (hslots slot hslot).unique hbs) hslots'
    (htypes.trans htypes'.symm) (hvalues.trans hvalues'.symm)
  subst heq
  rw [hdata.eq_heads_tails, hdata'.eq_heads_tails]

/-! ## Lengths -/

theorem Encodes.aligned {type : AbiType} {value : AbiValue} {bs : Bytes}
    (h : Encodes type value bs) : 32 ∣ bs.length := by
  cases h with
  | address a =>
    rw [List.length_append, List.length_replicate, Address.bytes, a.octets.length_bytes]
  | uint => rw [Bytes.length_ofNat]
  | int => rw [Bytes.length_ofNat]
  | bool => rw [Bytes.length_ofNat]
  | fixedBytes hsize h =>
    rw [List.length_append, List.length_replicate]
    omega
  | bytes hpad =>
    rw [List.length_append, List.length_append, Bytes.length_ofNat]
    exact Nat.dvd_add (Nat.dvd_refl 32) hpad.2.2
  | string hpad =>
    rw [List.length_append, List.length_append, Bytes.length_ofNat]
    exact Nat.dvd_add (Nat.dvd_refl 32) hpad.2.2
  | array _ _ hbody =>
    rw [List.length_append, Bytes.length_ofNat]
    exact Nat.dvd_add (Nat.dvd_refl 32) hbody.region_aligned
  | fixedArray _ _ hbody => exact hbody.region_aligned
  | tuple _ hbody => exact hbody.region_aligned

theorem headSize_of_isDynamic {type : AbiType} (h : type.isDynamic = true) :
    type.headSize = 32 := by
  cases type with
  | fixedArray element size => exact if_pos h
  | tuple types => exact if_pos h
  | _ => rfl

/-- A type is dynamic if one of several is. -/
theorem anyDynamic_eq_any (types : List AbiType) :
    AbiType.anyDynamic types = types.any AbiType.isDynamic := by
  induction types with
  | nil => rfl
  | cons type types ih => rw [AbiType.anyDynamic, ih, List.any_cons]

theorem headSizes_eq_sum (types : List AbiType) :
    AbiType.headSizes types = (types.map AbiType.headSize).sum := by
  induction types with
  | nil => rfl
  | cons type types ih => rw [AbiType.headSizes, ih, List.map_cons, List.sum_cons]

/-- Static parts stand side by side. -/
theorem layout_of_static {parts : List Part} (h : ∀ part ∈ parts, part.dynamic = false) :
    layout parts = (parts.map Part.body).flatten := by
  have htails : tailsOf parts = [] := by
    rw [tailsOf, List.flatten_eq_nil_iff]
    intro tail htail
    obtain ⟨part, hpart, rfl⟩ := List.mem_map.mp htail
    rw [Part.tail, h part hpart]
    rfl
  have hheads : parts.mapIdx (headOf parts) = parts.map Part.body := by
    apply List.ext_getElem
    · rw [List.length_mapIdx, List.length_map]
    · intro i hi hi'
      rw [List.length_map] at hi'
      rw [List.getElem_mapIdx, List.getElem_map, headOf, h _ (List.getElem_mem hi')]
      rfl
  rw [layout_eq, headsOf, htails, hheads, List.append_nil]

theorem length_layout_of_static {parts : List Part} (h : ∀ part ∈ parts, part.dynamic = false) :
    (layout parts).length = (parts.map fun part => part.body.length).sum := by
  rw [layout_of_static h, List.length_flatten, List.map_map]
  rfl

/-- A part is no longer than its region. -/
theorem length_body_le {parts : List Part} {part : Part} (h : part ∈ parts) :
    part.body.length ≤ (layout parts).length := by
  rw [layout_eq, List.length_append]
  cases hdynamic : part.dynamic with
  | true =>
    have hmem : part.body ∈ parts.map Part.tail :=
      List.mem_map.mpr ⟨part, h, by rw [Part.tail, if_pos hdynamic]⟩
    have := (List.sublist_flatten_of_mem hmem).length_le
    rw [← tailsOf] at this
    omega
  | false =>
    obtain ⟨i, hi, rfl⟩ := List.getElem_of_mem h
    have hmem : parts[i].body ∈ parts.mapIdx (headOf parts) :=
      List.mem_mapIdx.mpr ⟨i, hi, by rw [headOf, hdynamic]; rfl⟩
    have := (List.sublist_flatten_of_mem hmem).length_le
    rw [← headsOf] at this
    omega

/-! ## The slots of the packer -/

theorem partsOfEach_eq (element : AbiType) (values : List AbiValue) :
    partsOfEach element values = (values.map (Slot.packed element)).map Slot.part := by
  induction values with
  | nil => rfl
  | cons value values ih => rw [partsOfEach, ih]; rfl

theorem partsOfFields_eq (types : List AbiType) (values : List AbiValue) :
    partsOfFields types values =
      ((types.zip values).map fun pair => Slot.packed pair.1 pair.2).map Slot.part := by
  induction types generalizing values with
  | nil => cases values <;> rfl
  | cons type types ih =>
    cases values with
    | nil => rfl
    | cons value values => rw [partsOfFields, ih]; rfl

/-- An array has the parts of a tuple of as many fields of its type. -/
theorem partsOfEach_eq_partsOfFields (element : AbiType) (values : List AbiValue) :
    partsOfEach element values = partsOfFields (List.replicate values.length element) values := by
  induction values with
  | nil => rfl
  | cons value values ih =>
    rw [partsOfEach, ih, List.length_cons, List.replicate_succ, partsOfFields]

/-- The slots of values of one type hold the values. -/
theorem map_value_packed (element : AbiType) (values : List AbiValue) :
    (values.map (Slot.packed element)).map Slot.value = values := by
  rw [List.map_map]
  exact List.map_id values

/-- The slots of values of the types in the same places hold the types. -/
theorem map_type_zip_packed {types : List AbiType} {values : List AbiValue}
    (h : types.length = values.length) :
    ((types.zip values).map fun pair => Slot.packed pair.1 pair.2).map Slot.type = types := by
  rw [List.map_map]
  exact List.map_fst_zip h.le

/-- The slots of values of the types in the same places hold the values. -/
theorem map_value_zip_packed {types : List AbiType} {values : List AbiValue}
    (h : types.length = values.length) :
    ((types.zip values).map fun pair => Slot.packed pair.1 pair.2).map Slot.value = values := by
  rw [List.map_map]
  exact List.map_snd_zip h.ge

/-! ## Static values -/

/-- The zeros that the packer writes behind a byte string are its padding. -/
theorem isPadding_replicate (length : Nat) :
    IsPadding length (List.replicate ((length + 31) / 32 * 32 - length) 0) := by
  refine ⟨by rw [List.length_replicate], ?_, ?_⟩
  · rw [List.length_replicate]
    omega
  · rw [List.length_replicate]
    omega

/-- The fields of a static tuple are static. -/
theorem isDynamic_of_mem {fields : List AbiType}
    (hstatic : (AbiType.tuple fields).isDynamic = false) {field : AbiType}
    (hfield : field ∈ fields) : field.isDynamic = false := by
  rw [AbiType.isDynamic, anyDynamic_eq_any, List.any_eq_false] at hstatic
  exact Bool.eq_false_iff.mpr (hstatic field hfield)

/-- A static tuple is as long as its fields in a row. -/
theorem headSize_tuple {fields : List AbiType}
    (hstatic : (AbiType.tuple fields).isDynamic = false) :
    (AbiType.tuple fields).headSize = AbiType.headSizes fields :=
  if_neg (Bool.eq_false_iff.mp hstatic)

theorem dynamic_of_mem_partsOfFields {types : List AbiType} {values : List AbiValue}
    (hstatic : ∀ type ∈ types, type.isDynamic = false) :
    ∀ part ∈ partsOfFields types values, part.dynamic = false := by
  rw [partsOfFields_eq]
  intro part hpart
  obtain ⟨slot, hslot, rfl⟩ := List.mem_map.mp hpart
  obtain ⟨pair, hpair, rfl⟩ := List.mem_map.mp hslot
  exact hstatic _ (List.of_mem_zip hpair).1

/-- **A static value fills its head**: its encoding is as long as its type says. -/
theorem length_encodeValue {type : AbiType} {value : AbiValue} (h : Inhabits type value)
    (hwf : type.WellFormed) (hstatic : type.isDynamic = false) :
    (encodeValue type value).length = type.headSize := by
  induction h with
  | address a =>
    rw [encodeValue, Bytes.length_padLeft, Address.bytes, a.octets.length_bytes]
    rfl
  | uint => exact Word.length_toBytes _
  | int => exact Word.length_toBytes _
  | bool b => exact Bytes.length_ofNat 32 _
  | bytes => cases hstatic
  | fixedBytes hsize =>
    cases hwf with
    | fixedBytes hbound =>
      rw [encodeValue, Bytes.length_padRight, hsize]
      exact Nat.max_eq_left hbound.2
  | string => cases hstatic
  | array => cases hstatic
  | @fixedArray element size values hsize hvalues ih =>
    cases hwf with
    | fixedArray hbound hwf =>
      have helement : element.isDynamic = false := hstatic
      have hstatics : ∀ part ∈ partsOfEach element values, part.dynamic = false := by
        rw [partsOfEach_eq]
        intro part hpart
        obtain ⟨slot, hslot, rfl⟩ := List.mem_map.mp hpart
        obtain ⟨value, _, rfl⟩ := List.mem_map.mp hslot
        exact helement
      have hlen : (values.map fun value => (encodeValue element value).length) =
          List.replicate size element.headSize := by
        rw [← hsize]
        exact List.map_eq_replicate_iff.mpr fun value hvalue => ih value hvalue hwf helement
      rw [encodeValue, length_layout_of_static hstatics, partsOfEach_eq, List.map_map, List.map_map]
      show (values.map fun value => (encodeValue element value).length).sum = _
      rw [hlen, List.sum_replicate_nat, AbiType.headSize, if_neg (Bool.eq_false_iff.mp helement),
        Nat.mul_comm]
  | @tuple types values hsize hvalues ih =>
    cases hwf with
    | tuple hwf =>
      have hfields : ∀ type ∈ types, type.isDynamic = false :=
        fun type htype => isDynamic_of_mem hstatic htype
      have hlen : ((types.zip values).map fun pair => (encodeValue pair.1 pair.2).length) =
          types.map AbiType.headSize := by
        rw [← List.map_fst_zip hsize.le, List.map_map, List.map_fst_zip hsize.le]
        apply List.map_congr_left
        intro pair hpair
        have hmem := (List.of_mem_zip hpair).1
        exact ih pair hpair (hwf _ hmem) (hfields _ hmem)
      rw [encodeValue, length_layout_of_static (dynamic_of_mem_partsOfFields hfields),
        partsOfFields_eq, List.map_map, List.map_map]
      show ((types.zip values).map fun pair => (encodeValue pair.1 pair.2).length).sum = _
      rw [hlen, headSize_tuple hstatic, headSizes_eq_sum]

/-! ## The packer -/

/-- A slot holds a value of its type, and the bytes that the packer writes for it. -/
structure Slot.IsPacked (slot : Slot) : Prop where
  /-- The value is one of the type. -/
  inhabits : Inhabits slot.type slot.value
  /-- Contracts know the type. -/
  wellFormed : slot.type.WellFormed
  /-- The bytes are those of the packer. -/
  bytes_eq : slot.bytes = encodeValue slot.type slot.value

/-- A packed slot knows the length of its head, if lengths are numbers of 64 bits. -/
theorem Slot.IsPacked.isSound {slot : Slot} (h : slot.IsPacked)
    (hlen : slot.bytes.length ≤ maxOffset) : slot.part.IsSound := by
  show slot.type.headLength = if slot.type.isDynamic then 32 else slot.bytes.length
  rw [AbiType.headLength]
  -- a pointer takes a word; a static value fills its head, which the cap on lengths does not cut
  cases hdynamic : slot.type.isDynamic with
  | true =>
    rw [headSize_of_isDynamic hdynamic]
    rfl
  | false =>
    have hsize := length_encodeValue h.inhabits h.wellFormed hdynamic
    rw [← h.bytes_eq] at hsize
    rw [← hsize]
    exact Nat.min_eq_left hlen

/-- Packed slots fill a region of the format, given the encodings of the values in them. -/
theorem isRegion_of_isPacked {slots : List Slot} (h : ∀ slot ∈ slots, slot.IsPacked)
    (hencodes : ∀ slot ∈ slots, slot.bytes.length ≤ maxOffset →
      Encodes slot.type slot.value slot.bytes)
    (hlen : (layout (slots.map Slot.part)).length ≤ maxOffset) :
    (∀ slot ∈ slots, Encodes slot.type slot.value slot.bytes) ∧
      IsRegion (slots.map Slot.part) (layout (slots.map Slot.part)) := by
  have hbytes : ∀ slot ∈ slots, slot.bytes.length ≤ maxOffset := by
    intro slot hslot
    have hpart : slot.part ∈ slots.map Slot.part := List.mem_map_of_mem hslot
    exact Nat.le_trans (length_body_le hpart) hlen
  refine ⟨fun slot hslot => hencodes slot hslot (hbytes slot hslot), isRegion_layout ?_ ?_⟩
  · intro part hpart
    obtain ⟨slot, hslot, rfl⟩ := List.mem_map.mp hpart
    exact (h slot hslot).isSound (hbytes slot hslot)
  · intro part hpart
    obtain ⟨slot, hslot, rfl⟩ := List.mem_map.mp hpart
    exact (hencodes slot hslot (hbytes slot hslot)).aligned

/-- The values of an array fill a region of the format. -/
theorem isRegion_partsOfEach {element : AbiType} {values : List AbiValue}
    (hwf : element.WellFormed) (hvalues : ∀ value ∈ values, Inhabits element value)
    (hencodes : ∀ value ∈ values, (encodeValue element value).length ≤ maxOffset →
      Encodes element value (encodeValue element value))
    (hlen : (layout (partsOfEach element values)).length ≤ maxOffset) :
    ∃ slots : List Slot, slots.map Slot.value = values ∧ (∀ slot ∈ slots, slot.type = element) ∧
      (∀ slot ∈ slots, Encodes slot.type slot.value slot.bytes) ∧
      IsRegion (slots.map Slot.part) (layout (partsOfEach element values)) := by
  have hpacked : ∀ slot ∈ values.map (Slot.packed element), slot.IsPacked := by
    intro slot hslot
    obtain ⟨value, hvalue, rfl⟩ := List.mem_map.mp hslot
    exact ⟨hvalues value hvalue, hwf, rfl⟩
  have hslots : ∀ slot ∈ values.map (Slot.packed element), slot.bytes.length ≤ maxOffset →
      Encodes slot.type slot.value slot.bytes := by
    intro slot hslot hbytes
    obtain ⟨value, hvalue, rfl⟩ := List.mem_map.mp hslot
    exact hencodes value hvalue hbytes
  rw [partsOfEach_eq] at hlen ⊢
  obtain ⟨hall, hregion⟩ := isRegion_of_isPacked hpacked hslots hlen
  refine ⟨values.map (Slot.packed element), map_value_packed element values, ?_, hall, hregion⟩
  intro slot hslot
  obtain ⟨value, _, rfl⟩ := List.mem_map.mp hslot
  rfl

/-- The values of a tuple fill a region of the format, and so do those of a whole list. -/
theorem isRegion_partsOfFields {types : List AbiType} {values : List AbiValue}
    (hsize : types.length = values.length) (hwf : ∀ type ∈ types, type.WellFormed)
    (hvalues : ∀ pair ∈ types.zip values, Inhabits pair.1 pair.2)
    (hencodes : ∀ pair ∈ types.zip values, (encodeValue pair.1 pair.2).length ≤ maxOffset →
      Encodes pair.1 pair.2 (encodeValue pair.1 pair.2))
    (hlen : (layout (partsOfFields types values)).length ≤ maxOffset) :
    EncodesAll types values (layout (partsOfFields types values)) := by
  have hpacked : ∀ slot ∈ (types.zip values).map fun pair => Slot.packed pair.1 pair.2,
      slot.IsPacked := by
    intro slot hslot
    obtain ⟨pair, hpair, rfl⟩ := List.mem_map.mp hslot
    exact ⟨hvalues pair hpair, hwf _ (List.of_mem_zip hpair).1, rfl⟩
  have hslots : ∀ slot ∈ (types.zip values).map fun pair => Slot.packed pair.1 pair.2,
      slot.bytes.length ≤ maxOffset → Encodes slot.type slot.value slot.bytes := by
    intro slot hslot hbytes
    obtain ⟨pair, hpair, rfl⟩ := List.mem_map.mp hslot
    exact hencodes pair hpair hbytes
  rw [partsOfFields_eq] at hlen ⊢
  obtain ⟨hall, hregion⟩ := isRegion_of_isPacked hpacked hslots hlen
  exact ⟨_, map_type_zip_packed hsize, map_value_zip_packed hsize, hall, hregion⟩

/-- **One value.** What the packer writes for a value is the encoding that the format defines. -/
theorem encodes_encodeValue {type : AbiType} {value : AbiValue} (h : Inhabits type value)
    (hwf : type.WellFormed) (hlen : (encodeValue type value).length ≤ maxOffset) :
    Encodes type value (encodeValue type value) := by
  induction h with
  | address a =>
    have hfront : 32 - a.bytes.length = 12 := by rw [Address.bytes, a.octets.length_bytes]
    rw [encodeValue, Bytes.padLeft, hfront]
    exact .address a
  | uint hn => exact .uint hn
  | @int bits i hi =>
    have hword : i.toWord.toNat = (i.toInt % (2 ^ 256 : Nat)).toNat := by
      rw [← SignedWord.toNat_toWord, Int.toNat_natCast]
    rw [encodeValue, Word.toBytes, hword]
    exact .int hi
  | bool b => exact .bool b
  | bytes bs => exact .bytes (isPadding_replicate bs.length)
  | @fixedBytes size bs hsize =>
    cases hwf with
    | fixedBytes hbound =>
      rw [encodeValue, Bytes.padRight, hsize]
      exact .fixedBytes hbound.2 hsize
  | string s => exact .string (isPadding_replicate (Utf8.bytes s).length)
  | array hvalues ih =>
    cases hwf with
    | array hwf =>
      -- the region stands behind the length word, and is bounded with it
      rw [encodeValue] at hlen ⊢
      rw [List.length_append] at hlen
      obtain ⟨slots, rfl, htype, hall, hregion⟩ := isRegion_partsOfEach hwf hvalues
        (fun value hvalue => ih value hvalue hwf) (by omega)
      rw [List.length_map]
      exact .array htype hall hregion
  | fixedArray hsize hvalues ih =>
    cases hwf with
    | fixedArray _ hwf =>
      rw [encodeValue] at hlen ⊢
      obtain ⟨slots, rfl, htype, hall, hregion⟩ := isRegion_partsOfEach hwf hvalues
        (fun value hvalue => ih value hvalue hwf) hlen
      rw [← hsize, List.length_map]
      exact .fixedArray htype hall hregion
  | tuple hsize hvalues ih =>
    cases hwf with
    | tuple hwf =>
      rw [encodeValue] at hlen ⊢
      obtain ⟨slots, rfl, rfl, hall, hregion⟩ := isRegion_partsOfFields hsize hwf hvalues
        (fun pair hpair => ih pair hpair (hwf _ (List.of_mem_zip hpair).1)) hlen
      exact .tuple hall hregion

theorem encode_eq_ok_iff {types : List AbiType} {values : List AbiValue} {data : Bytes} :
    encode types values = .ok data ↔
      types.length = values.length ∧ (∀ pair ∈ types.zip values, Inhabits pair.1 pair.2) ∧
        data = layout (partsOfFields types values) := by
  rw [encode]
  by_cases hsize : types.length = values.length
  · rw [if_pos hsize]
    cases hcheck : checkFields types values with
    | ok u =>
      have hall := checkFields_eq_ok_iff.mp hcheck
      simp only [check_eq_ok_iff] at hall
      constructor
      · intro h
        cases h
        exact ⟨hsize, hall, rfl⟩
      · rintro ⟨_, _, rfl⟩
        rfl
    | error e =>
      constructor
      · intro h
        cases h
      · rintro ⟨_, hall, _⟩
        have hok := checkFields_eq_ok_iff.mpr fun pair hpair => check_of_inhabits (hall pair hpair)
        rw [hcheck] at hok
        cases hok
  · rw [if_neg hsize]
    constructor
    · intro h
      cases h
    · intro h
      exact absurd h.1 hsize

/-- What the packer writes for a list of values is the encoding that the format defines. -/
theorem encodesAll_of_encode {types : List AbiType} {values : List AbiValue} {data : Bytes}
    (hwf : ∀ type ∈ types, type.WellFormed) (h : encode types values = .ok data)
    (hlen : data.length ≤ maxOffset) : EncodesAll types values data := by
  obtain ⟨hsize, hvalues, rfl⟩ := encode_eq_ok_iff.mp h
  exact isRegion_partsOfFields hsize hwf hvalues
    (fun pair hpair => encodes_encodeValue (hvalues pair hpair)
      (hwf _ (List.of_mem_zip hpair).1)) hlen

/-- **Packing is the encoding of the format.** When values of types with names are packed, the
    format defines one encoding of them, and it is the data: heads and then tails, every head at the
    sum of the head lengths before it and every tail where its head points, at every depth. No data
    is longer than the greatest offset; a head length beyond it would be cut. -/
theorem encodesAll_iff_eq_of_encode {types : List AbiType} {values : List AbiValue} {data : Bytes}
    (hnamed : ∀ type ∈ types, type.IsNamed) (h : encode types values = .ok data)
    (hlen : data.length ≤ maxOffset) (other : Bytes) :
    EncodesAll types values other ↔ other = data := by
  have hdata := encodesAll_of_encode
    (fun type htype => AbiType.wellFormed_of_isNamed (hnamed type htype)) h hlen
  exact ⟨fun hother => hother.unique hdata, fun hother => hother ▸ hdata⟩

/-- An array of tuples with a dynamic field, in front of a static value. -/
theorem encodesAll_iff_eq_of_encode_records :
    ∃ data, encode [.array (.tuple [.string, .uint 8]), .uint 8]
        [.array [.tuple [.string "ab", .uint 7], .tuple [.string "", .uint 255]], .uint 1] =
          .ok data ∧
      data.length ≤ maxOffset ∧
      ∀ other, EncodesAll [.array (.tuple [.string, .uint 8]), .uint 8]
        [.array [.tuple [.string "ab", .uint 7], .tuple [.string "", .uint 255]], .uint 1] other ↔
          other = data := by
  have hnamed : ∀ type ∈ [.array (.tuple [.string, .uint 8]), .uint 8], AbiType.IsNamed type := by
    intro type htype
    rcases List.mem_pair.mp htype with rfl | rfl
    · exact AbiType.isNamed_records
    · exact ⟨"uint8", AbiType.parseChars_word (by decide) rfl⟩
  have h : encode [.array (.tuple [.string, .uint 8]), .uint 8]
      [.array [.tuple [.string "ab", .uint 7], .tuple [.string "", .uint 255]], .uint 1] =
        .ok _ := rfl
  have hlen : (layout (partsOfFields [.array (.tuple [.string, .uint 8]), .uint 8]
      [.array [.tuple [.string "ab", .uint 7], .tuple [.string "", .uint 255]],
        .uint 1])).length ≤ maxOffset := by
    decide +kernel
  exact ⟨_, h, hlen, encodesAll_iff_eq_of_encode hnamed h hlen⟩

end Abi

end ChainClient
