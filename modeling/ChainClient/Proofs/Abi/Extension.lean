import ChainClient.Proofs.Abi.Decode

/-!
# `ChainClient.Proofs.Abi.Extension` — data may go on behind what was unpacked

Every bound that the unpacker checks is the length of a region, and all regions reach to the end of
the data. When the data grow, all bounds grow with them. So a value that was unpacked once is
unpacked again, from the same bytes and through the same pointers, whatever comes behind.

## Contents
- **Readers.** One law a reader, from `wordAt_append` to `ensureFits_append`.
- **Fields and values.** `decodeFields_append` for heads in a row, `decodeValue_append` by induction
  on the type.
- **Data.** `decode_append`.
-/

namespace ChainClient

namespace Abi

variable {region : Bytes} {offset : Nat}

/-! ## Readers -/

/-- A cut inside the front of some data is not touched by what is appended. -/
theorem take_drop_append {start count : Nat} (h : start + count ≤ region.length) (rest : Bytes) :
    ((region ++ rest).drop start).take count = (region.drop start).take count := by
  rw [List.drop_append_of_le_length (by omega), List.take_append_of_le_length]
  rw [List.length_drop]
  omega

theorem wordAt_append {word : Bytes} (h : wordAt region offset = .ok word) (rest : Bytes) :
    wordAt (region ++ rest) offset = .ok word := by
  obtain ⟨hle, rfl⟩ := wordAt_eq_ok_iff.mp h
  refine wordAt_eq_ok_iff.mpr ⟨?_, (take_drop_append hle rest).symm⟩
  rw [List.length_append]
  omega

theorem offsetAt_append {n : Nat} (h : offsetAt region offset = .ok n) (rest : Bytes) :
    offsetAt (region ++ rest) offset = .ok n := by
  obtain ⟨word, hword, hle, hn⟩ := offsetAt_eq_ok_iff.mp h
  refine offsetAt_eq_ok_iff.mpr ⟨word, wordAt_append hword rest, ?_, hn⟩
  rw [List.length_append]
  omega

/-- A region that is narrowed grows by what its surroundings grow by. -/
theorem regionFrom_append {body : Bytes} (h : regionFrom region offset = .ok body)
    (rest : Bytes) : regionFrom (region ++ rest) offset = .ok (body ++ rest) := by
  obtain ⟨hle, rfl⟩ := regionFrom_eq_ok_iff.mp h
  refine regionFrom_eq_ok_iff.mpr ⟨?_, (List.drop_append_of_le_length hle).symm⟩
  rw [List.length_append]
  omega

theorem bytesAt_append {bs : Bytes} (h : bytesAt region offset = .ok bs) (rest : Bytes) :
    bytesAt (region ++ rest) offset = .ok bs := by
  obtain ⟨length, hlength, hle, rfl⟩ := bytesAt_eq_ok_iff.mp h
  refine bytesAt_eq_ok_iff.mpr
    ⟨length, offsetAt_append hlength rest, ?_, (take_drop_append hle rest).symm⟩
  rw [List.length_append]
  omega

theorem ensureFits_append {element : AbiType} {count : Nat}
    (h : ensureFits element count region = .ok ()) (rest : Bytes) :
    ensureFits element count (region ++ rest) = .ok () := by
  rw [ensureFits_eq_ok_iff, List.length_append] at *
  omega

/-- A head is followed to the same place. -/
theorem startOf_append {type : AbiType} {head start : Nat}
    (h : startOf type region head = .ok start) (rest : Bytes) :
    startOf type (region ++ rest) head = .ok start := by
  unfold startOf at *
  split at h
  · next hdynamic =>
    rw [if_pos hdynamic]
    exact offsetAt_append h rest
  · next hstatic =>
    rw [if_neg hstatic]
    exact h

/-! ## Fields and values -/

/-- The unpacker goes on returning a value of a type when the data grow, wherever it reads. -/
def IsStable (type : AbiType) : Prop :=
  ∀ (region : Bytes) (offset : Nat) (value : AbiValue) (rest : Bytes),
    decodeValue type region offset = .ok value →
      decodeValue type (region ++ rest) offset = .ok value

theorem decodeFields_append {types : List AbiType} (hstable : ∀ type ∈ types, IsStable type)
    {head : Nat} {values : List AbiValue} (h : decodeFields types region head = .ok values)
    (rest : Bytes) : decodeFields types (region ++ rest) head = .ok values := by
  induction types generalizing head values with
  | nil => exact h
  | cons type types ih =>
    obtain ⟨start, first, others, hstart, hfirst, hothers, rfl⟩ := decodeFields_cons_iff.mp h
    have hfirst := hstable type List.mem_cons_self region start first rest hfirst
    have hothers :=
      ih (fun other hother => hstable other (List.mem_cons_of_mem type hother)) hothers
    exact decodeFields_cons_iff.mpr
      ⟨start, first, others, startOf_append hstart rest, hfirst, hothers, rfl⟩

/-- **One value.** The induction is on the type; each case is the law of the readers that its branch
    of the unpacker uses, and nothing is asked of the pointers. -/
theorem decodeValue_append (type : AbiType) : IsStable type := by
  induction type using AbiType.induction with
  | address =>
    intro region offset value rest h
    obtain ⟨word, hword, hvalue⟩ := decodeValue_address_iff.mp h
    exact decodeValue_address_iff.mpr ⟨word, wordAt_append hword rest, hvalue⟩
  | uint bits =>
    intro region offset value rest h
    obtain ⟨word, hword, hvalue⟩ := decodeValue_uint_iff.mp h
    exact decodeValue_uint_iff.mpr ⟨word, wordAt_append hword rest, hvalue⟩
  | int bits =>
    intro region offset value rest h
    obtain ⟨word, hword, hvalue⟩ := decodeValue_int_iff.mp h
    exact decodeValue_int_iff.mpr ⟨word, wordAt_append hword rest, hvalue⟩
  | bool =>
    intro region offset value rest h
    obtain ⟨word, hword, hvalue⟩ := decodeValue_bool_iff.mp h
    exact decodeValue_bool_iff.mpr ⟨word, wordAt_append hword rest, hvalue⟩
  | bytes =>
    intro region offset value rest h
    obtain ⟨bs, hbs, hvalue⟩ := decodeValue_bytes_iff.mp h
    exact decodeValue_bytes_iff.mpr ⟨bs, bytesAt_append hbs rest, hvalue⟩
  | fixedBytes size =>
    intro region offset value rest h
    obtain ⟨word, hword, hvalue⟩ := decodeValue_fixedBytes_iff.mp h
    exact decodeValue_fixedBytes_iff.mpr ⟨word, wordAt_append hword rest, hvalue⟩
  | string =>
    intro region offset value rest h
    obtain ⟨bs, s, hbs, hvalue⟩ := decodeValue_string_iff.mp h
    exact decodeValue_string_iff.mpr ⟨bs, s, bytesAt_append hbs rest, hvalue⟩
  | array element ih =>
    intro region offset value rest h
    obtain ⟨count, body, values, hcount, hbody, hfits, hvalues, hvalue⟩ :=
      decodeValue_array_iff.mp h
    -- the body of the array is a region of its own, and has grown by the same bytes
    have hvalues := decodeFields_append
      (fun type htype => List.eq_of_mem_replicate htype ▸ ih) hvalues rest
    exact decodeValue_array_iff.mpr ⟨count, body ++ rest, values, offsetAt_append hcount rest,
      regionFrom_append hbody rest, ensureFits_append hfits rest, hvalues, hvalue⟩
  | fixedArray element size ih =>
    intro region offset value rest h
    obtain ⟨body, values, hbody, hfits, hvalues, hvalue⟩ := decodeValue_fixedArray_iff.mp h
    have hvalues := decodeFields_append
      (fun type htype => List.eq_of_mem_replicate htype ▸ ih) hvalues rest
    exact decodeValue_fixedArray_iff.mpr ⟨body ++ rest, values, regionFrom_append hbody rest,
      ensureFits_append hfits rest, hvalues, hvalue⟩
  | tuple types ih =>
    intro region offset value rest h
    obtain ⟨body, values, hbody, hvalues, hvalue⟩ := decodeValue_tuple_iff.mp h
    exact decodeValue_tuple_iff.mpr ⟨body ++ rest, values, regionFrom_append hbody rest,
      decodeFields_append ih hvalues rest, hvalue⟩

/-! ## Data -/

/-- **What was unpacked stays when data are appended.** Nothing is asked of the pointers in the
    data: they may overlap, go backwards or lead into heads. Nor is anything asked of the types. -/
theorem decode_append {types : List AbiType} {data : Bytes} {values : List AbiValue}
    (h : decode types data = .ok values) (rest : Bytes) :
    decode types (data ++ rest) = .ok values :=
  decodeFields_append (fun type _ => decodeValue_append type) h rest

set_option maxRecDepth 2000 in
/-- Two pointers to one place behind a tuple, which is a byte string to the first and an array of
    tuples without fields to the second. -/
theorem decode_append_overlap :
    let types : List AbiType := [.bytes, .array (.tuple []), .bool]
    let values : List AbiValue := [.bytes [0, 0], .array [.tuple [], .tuple []], .bool true]
    let data := Bytes.ofNat 32 96 ++ Bytes.ofNat 32 96 ++ Bytes.ofNat 32 1 ++ Bytes.ofNat 32 2 ++
      [0, 0]
    decode types data = .ok values ∧ ∀ rest, decode types (data ++ rest) = .ok values := by
  intro types values data
  have h : decode types data = .ok values := rfl
  exact ⟨h, decode_append h⟩

end Abi

end ChainClient
