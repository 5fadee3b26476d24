import ChainClient.Proofs.Abi.Decode

/-!
# `ChainClient.Proofs.Abi.Room` — arrays whose elements take up no room

The tuple of nothing is packed into no bytes at all, and so are tuples and arrays of a fixed length
made of it. An array of such values is packed like any other: a pointer, the length behind it, and
then nothing. The unpacker compares a length with the region it stands in, as it compares a pointer,
and here the region is two words long. So arrays of up to 64 elements come back, and no longer ones.

## Contents
- **Types.** `AbiType.isDynamic_of_headLength`: types that take up no room are static, and
  `AbiType.arraysTakeRoom_of_static`: the law of the round trip leaves no static type out.
- **Elements.** `encode_replicate_of_no_room` packs them into nothing, and
  `decodeFields_replicate_of_no_room` reads them from nothing.
- **Arrays.** `encode_array_of_no_room` is what an array is packed into. `decodeValue_array_of_gt`
  refuses a length, and `decode_encode_array_iff` says which arrays come back.
-/

namespace ChainClient

/-! ## Types -/

namespace AbiType

/-- The cap on the lengths of heads is out of reach of an empty head. -/
theorem headSize_of_headLength {type : AbiType} (hroom : type.headLength = 0) :
    type.headSize = 0 :=
  (Nat.min_eq_zero_iff.mp hroom).resolve_right (by decide)

theorem isDynamic_of_headLength {type : AbiType} (hroom : type.headLength = 0) :
    type.isDynamic = false := by
  rw [← Bool.not_eq_true]
  intro hdynamic
  have hsize := headSize_of_headLength hroom
  rw [Abi.headSize_of_isDynamic hdynamic] at hsize
  cases hsize

theorem arraysTakeRoom_of_static {type : AbiType} (hstatic : type.isDynamic = false) :
    type.ArraysTakeRoom := by
  induction type using AbiType.induction with
  | address => exact .address
  | uint bits => exact .uint bits
  | int bits => exact .int bits
  | bool => exact .bool
  | bytes => cases hstatic
  | fixedBytes size => exact .fixedBytes size
  | string => cases hstatic
  | array => cases hstatic
  | fixedArray element size ih => exact .fixedArray size (ih hstatic)
  | tuple fields ih =>
    exact .tuple fun field hfield => ih field hfield (Abi.isDynamic_of_mem hstatic hfield)

end AbiType

namespace Abi

open AbiType (maxOffset)

variable {element : AbiType} {values : List AbiValue}

/-! ## Elements -/

/-- Values that take up no room are packed into nothing. -/
theorem encode_replicate_of_no_room (hwf : element.WellFormed) (hroom : element.headLength = 0)
    (hvalues : ∀ value ∈ values, Inhabits element value) :
    encode (List.replicate values.length element) values = .ok [] := by
  have hlen : (List.replicate values.length element).length = values.length :=
    List.length_replicate
  have hpairs : ∀ pair ∈ (List.replicate values.length element).zip values,
      Inhabits pair.1 pair.2 := by
    intro pair hpair
    obtain ⟨htype, hvalue⟩ := List.of_mem_zip hpair
    rw [List.eq_of_mem_replicate htype]
    exact hvalues _ hvalue
  have hstatic : (AbiType.tuple (List.replicate values.length element)).isDynamic = false := by
    rw [AbiType.isDynamic, anyDynamic_eq_any, List.any_eq_false]
    intro type htype
    rw [List.eq_of_mem_replicate htype, AbiType.isDynamic_of_headLength hroom]
    exact Bool.false_ne_true
  -- the tuple of the values is static, so it is as long as their heads, which are empty
  have hempty := length_encodeValue (.tuple hlen hpairs)
    (.tuple fun type htype => List.eq_of_mem_replicate htype ▸ hwf) hstatic
  rw [headSize_tuple hstatic, headSizes_eq_sum, List.map_replicate, List.sum_replicate_nat,
    AbiType.headSize_of_headLength hroom, Nat.mul_zero] at hempty
  exact encode_eq_ok_iff.mpr ⟨hlen, hpairs, (List.length_eq_zero_iff.mp hempty).symm⟩

/-- They are read from nothing, as many as are asked for. -/
theorem decodeFields_replicate_of_no_room (hwf : element.WellFormed)
    (hroom : element.headLength = 0) (hvalues : ∀ value ∈ values, Inhabits element value) :
    decodeFields (List.replicate values.length element) [] 0 = .ok values := by
  have harrays := AbiType.arraysTakeRoom_of_static (AbiType.isDynamic_of_headLength hroom)
  exact decode_packed_append (fun type htype => List.eq_of_mem_replicate htype ▸ hwf)
    (fun type htype => List.eq_of_mem_replicate htype ▸ harrays)
    (encode_replicate_of_no_room hwf hroom hvalues) (Nat.zero_le maxOffset) []

/-! ## Arrays -/

/-- The data of an array of such elements: a pointer to its length, and its length. -/
def lengthData (n : Nat) : Bytes := offsetWord 32 ++ offsetWord n

theorem length_lengthData (n : Nat) : (lengthData n).length = 64 := by
  rw [lengthData, List.length_append, offsetWord, Bytes.length_ofNat, offsetWord,
    Bytes.length_ofNat]

theorem standsAt_lengthData (n : Nat) : StandsAt (lengthData n) 32 (offsetWord n) :=
  standsAt_append (offsetWord 32) (offsetWord n)

theorem encode_array_of_no_room (hwf : element.WellFormed) (hroom : element.headLength = 0)
    (hvalues : ∀ value ∈ values, Inhabits element value) :
    encode [.array element] [.array values] = .ok (lengthData values.length) := by
  obtain ⟨-, -, hempty⟩ := encode_eq_ok_iff.mp (encode_replicate_of_no_room hwf hroom hvalues)
  have hbody : encodeValue (.array element) (.array values) = offsetWord values.length := by
    rw [encodeValue, partsOfEach_eq_partsOfFields, ← hempty, List.append_nil]
  refine encode_eq_ok_iff.mpr ⟨rfl, List.forall_mem_singleton.mpr (.array hvalues), ?_⟩
  show _ = layout [⟨true, 32, encodeValue (.array element) (.array values)⟩]
  rw [hbody, lengthData]
  simp [layout, place, headsLength]

/-- The pointer is followed to the length. -/
theorem decode_lengthData (element : AbiType) (n : Nat) :
    decode [.array element] (lengthData n) =
      (decodeValue (.array element) (lengthData n) 32).map ([·]) :=
  decode_behind_pointer rfl (offsetWord n)

/-- A length up to that of the data is taken. -/
theorem decodeValue_array_of_le (hwf : element.WellFormed) (hroom : element.headLength = 0)
    (hvalues : ∀ value ∈ values, Inhabits element value) (hle : values.length ≤ 64) :
    decodeValue (.array element) (lengthData values.length) 32 = .ok (.array values) := by
  have hlen := length_lengthData values.length
  refine decodeValue_array_iff.mpr ⟨values.length, [], values, ?_, ?_, ?_, ?_, rfl⟩
  · have hbound : values.length < 256 ^ 32 := Nat.lt_of_le_of_lt hle (by decide)
    exact offsetAt_of_standsAt (standsAt_lengthData _) hbound (hlen ▸ hle)
  · exact regionFrom_eq_ok_iff.mpr ⟨hlen.ge, (List.drop_eq_nil_of_le hlen.le).symm⟩
  · rw [ensureFits, hroom, Nat.mul_zero]
    rfl
  · exact decodeFields_replicate_of_no_room hwf hroom hvalues

/-- A greater length is refused, as a pointer out of the data would be. -/
theorem decodeValue_array_of_gt (element : AbiType) {n : Nat} (hlong : 64 < n)
    (hmax : n ≤ maxOffset) :
    decodeValue (.array element) (lengthData n) 32 = .error (.outOfRange n 64) := by
  have hrefused : offsetAt (lengthData n) 32 = .error (.outOfRange n 64) := by
    rw [offsetAt, wordAt_of_standsAt (standsAt_lengthData n) (Bytes.length_ofNat 32 n)]
    show (if Bytes.value (offsetWord n) ≤ _ then _ else _) = _
    rw [value_offsetWord (lt_of_le_maxOffset hmax), length_lengthData,
      if_neg (Nat.not_le.mpr hlong), Nat.min_eq_left hmax]
  rw [decodeValue, hrefused]
  rfl

/-- **Arrays of elements that take up no room.** Whatever their length, they are packed, but only
    those of up to 64 elements are unpacked again: a greater length is refused, since the data is no
    longer than two words. -/
theorem decode_encode_array_iff (hnamed : element.IsNamed) (hroom : element.headLength = 0)
    (hvalues : ∀ value ∈ values, Inhabits element value) :
    ∃ data, encode [.array element] [.array values] = .ok data ∧
      (decode [.array element] data = .ok [.array values] ↔ values.length ≤ 64) ∧
      (64 < values.length → values.length ≤ maxOffset →
        decode [.array element] data = .error (.outOfRange values.length 64)) := by
  have hwf := AbiType.wellFormed_of_isNamed hnamed
  refine ⟨_, encode_array_of_no_room hwf hroom hvalues, ⟨fun hread => ?_, fun hle => ?_⟩,
    fun hlong hmax => ?_⟩
  · -- a length that no word holds is written as another one, which then is the number of elements
    rw [decode_lengthData, Outcome.map_eq_ok_iff] at hread
    obtain ⟨value, hvalue, hsame⟩ := hread
    obtain ⟨count, body, others, hcount, -, -, hothers, rfl⟩ := decodeValue_array_iff.mp hvalue
    cases hsame
    have hle := (le_of_offsetAt hcount).2
    rw [length_lengthData] at hle
    rw [(inhabits_of_decodeFields_replicate (inhabits_of_decodeValue hwf) hothers).1]
    exact hle
  · rw [decode_lengthData, decodeValue_array_of_le hwf hroom hvalues hle]
    rfl
  · rw [decode_lengthData, decodeValue_array_of_gt element hlong hmax]
    rfl

/-- Pairs of nothing, as many as come back and one more. -/
theorem decode_encode_array_iff_of_pairs :
    let element : AbiType := .fixedArray (.tuple []) 2
    let pair : AbiValue := .fixedArray [.tuple [], .tuple []]
    (∃ data, encode [.array element] [.array (List.replicate 64 pair)] = .ok data ∧
      decode [.array element] data = .ok [.array (List.replicate 64 pair)]) ∧
    ∃ data, encode [.array element] [.array (List.replicate 65 pair)] = .ok data ∧
      decode [.array element] data = .error (.outOfRange 65 64) := by
  intro element pair
  have hparse : AbiType.parse "()[2]" = .ok element :=
    @AbiType.parseChars_suffix _ ['(', ')'] (some 2) _ rfl rfl AbiType.parseChars_unit
  have hnamed : element.IsNamed := ⟨_, hparse⟩
  have hpair : Inhabits element pair := by
    refine .fixedArray rfl fun value hvalue => ?_
    obtain rfl : value = .tuple [] := by simpa using hvalue
    exact .tuple rfl (List.forall_mem_nil _)
  have hpairs : ∀ n, ∀ value ∈ List.replicate n pair, Inhabits element value := by
    intro n value hvalue
    rw [List.eq_of_mem_replicate hvalue]
    exact hpair
  obtain ⟨data, hdata, hread, -⟩ := decode_encode_array_iff hnamed rfl (hpairs 64)
  obtain ⟨others, hothers, -, hrefused⟩ := decode_encode_array_iff hnamed rfl (hpairs 65)
  refine ⟨⟨data, hdata, hread.mpr ?_⟩, others, hothers, ?_⟩
  · rw [List.length_replicate]
  · rw [List.length_replicate] at hrefused
    exact hrefused (by decide) (by decide)

/-- The shortest array that is packed and not unpacked, of tuples of nothing. -/
theorem decode_array_of_units_refused :
    AbiType.parse "()[]" = .ok (.array (.tuple [])) ∧ (AbiType.tuple []).headLength = 0 ∧
    ∃ data, encode [.array (.tuple [])] [.array (List.replicate 65 (.tuple []))] = .ok data ∧
      decode [.array (.tuple [])] data = .error (.outOfRange 65 64) := by
  have hunits : ∀ value ∈ List.replicate 65 (.tuple []), Inhabits (.tuple []) value := by
    intro value hvalue
    rw [List.eq_of_mem_replicate hvalue]
    exact .tuple rfl (List.forall_mem_nil _)
  refine ⟨?_, rfl, _, encode_array_of_no_room (.tuple (List.forall_mem_nil _)) rfl hunits, ?_⟩
  · exact @AbiType.parseChars_suffix _ ['(', ')'] none _ rfl rfl AbiType.parseChars_unit
  · rw [decode_lengthData, List.length_replicate, decodeValue_array_of_gt _ (by decide) (by decide)]
    rfl

end Abi

end ChainClient
