import ChainClient.Proofs.Abi.Decode

/-!
# `ChainClient.Proofs.Abi.Static` — static data are canonical

A static value has no pointers: its encoding is its head, word for word. The unpacker checks every
bit of such a word but the twelve bytes in front of an address, which it skips. So what it returns
settles the data up to those bytes, and packing the values again writes the data with zeros there.

## Contents
- **Padding.** `AbiType.addressPadding` marks the bytes in front of addresses in the head of a
  static type; `clearMarked` puts zeros there. `length_addressPadding`: every byte of the head has a
  mark.
- **Words.** `IsCanonical` says for one type what a value that is returned says about the data.
  `isCanonical_of_word` proves it of a type whose values fill a word, given what the word holds.
- **Fields.** `decodeFields_static_iff` for heads in a row, `isCanonical_of_wellFormed` by induction
  on the type.
- **Data.** `decode_static_iff`, and `encode_of_decode_static` with what other data may differ in.
-/

namespace ChainClient

/-! ## Padding -/

namespace AbiType

mutual

/-- Which bytes in the head of a static type stand in front of an address. -/
def addressPadding : AbiType → List Bool
  | .address => List.replicate 12 true ++ List.replicate 20 false
  | .fixedArray element size => (List.replicate size element.addressPadding).flatten
  | .tuple fields => addressPaddings fields
  | _ => List.replicate 32 false

/-- The same for the heads of several types. -/
def addressPaddings : List AbiType → List Bool
  | [] => []
  | type :: types => type.addressPadding ++ addressPaddings types

end

theorem addressPadding_fixedArray (element : AbiType) (size : Nat) :
    (fixedArray element size).addressPadding = addressPaddings (List.replicate size element) := by
  rw [addressPadding]
  induction size with
  | zero => rfl
  | succ size ih =>
    rw [List.replicate_succ, List.flatten_cons, ih, List.replicate_succ, addressPaddings]

theorem headSizes_replicate (element : AbiType) (size : Nat) :
    headSizes (List.replicate size element) = size * element.headSize := by
  rw [Abi.headSizes_eq_sum, List.map_replicate, List.sum_replicate_nat]

/-- A static array is as long as its elements in a row. -/
theorem headSize_fixedArray {element : AbiType} (hstatic : element.isDynamic = false)
    (size : Nat) :
    (fixedArray element size).headSize = headSizes (List.replicate size element) := by
  rw [headSize, if_neg (Bool.eq_false_iff.mp hstatic), headSizes_replicate, Nat.mul_comm]

theorem length_addressPaddings {types : List AbiType}
    (h : ∀ type ∈ types, type.addressPadding.length = type.headSize) :
    (addressPaddings types).length = headSizes types := by
  induction types with
  | nil => rfl
  | cons type types ih =>
    rw [addressPaddings, headSizes, List.length_append, h type List.mem_cons_self,
      ih fun other hother => h other (List.mem_cons_of_mem type hother)]

/-- **Every byte of a static head is marked.** -/
theorem length_addressPadding {type : AbiType} (hstatic : type.isDynamic = false) :
    type.addressPadding.length = type.headSize := by
  induction type using AbiType.induction with
  | fixedArray element size ih =>
    have helement : element.isDynamic = false := hstatic
    rw [addressPadding_fixedArray, headSize_fixedArray helement]
    exact length_addressPaddings fun type htype => List.eq_of_mem_replicate htype ▸ ih helement
  | tuple fields ih =>
    rw [addressPadding, Abi.headSize_tuple hstatic]
    exact length_addressPaddings fun field hfield =>
      ih field hfield (Abi.isDynamic_of_mem hstatic hfield)
  | _ => rfl

end AbiType

namespace Abi

open AbiType (maxOffset headSizes addressPaddings)

/-- The front of some data that has marks, with zeros where the marks say so. -/
def clearMarked (marks : List Bool) (data : Bytes) : Bytes :=
  List.zipWith (fun mark b => if mark then 0 else b) marks data

section Marks

variable {marks : List Bool} {data : Bytes}

theorem length_clearMarked (h : marks.length ≤ data.length) :
    (clearMarked marks data).length = marks.length := by
  rw [clearMarked, List.length_zipWith, Nat.min_eq_left h]

theorem clearMarked_append (marks others : List Bool) (data : Bytes) :
    clearMarked (marks ++ others) data =
      clearMarked marks data ++ clearMarked others (data.drop marks.length) := by
  induction marks generalizing data with
  | nil => rfl
  | cons mark marks ih =>
    cases data with
    | nil => simp [clearMarked]
    | cons b data => exact congrArg (List.cons _) (ih data)

/-- Data behind the marks do not matter. -/
theorem clearMarked_take {count : Nat} (h : marks.length ≤ count) (data : Bytes) :
    clearMarked marks (data.take count) = clearMarked marks data := by
  induction marks generalizing count data with
  | nil => rfl
  | cons mark marks ih =>
    cases count with
    | zero => cases h
    | succ count =>
      cases data with
      | nil => rfl
      | cons b data => exact congrArg (List.cons _) (ih (Nat.le_of_succ_le_succ h) data)

/-- Marks that mark nothing keep the data. -/
theorem clearMarked_replicate_false (data : Bytes) :
    clearMarked (List.replicate data.length false) data = data := by
  induction data with
  | nil => rfl
  | cons b data ih => exact congrArg (List.cons b) ih

/-- Marks everywhere leave zeros. -/
theorem clearMarked_replicate_true (data : Bytes) :
    clearMarked (List.replicate data.length true) data = List.replicate data.length 0 := by
  induction data with
  | nil => rfl
  | cons b data ih => exact congrArg (List.cons 0) ih

/-- **What is left of the data** are the bytes without a mark. -/
theorem clearMarked_eq_iff {other : Bytes} (hdata : marks.length ≤ data.length)
    (hother : marks.length ≤ other.length) :
    clearMarked marks data = clearMarked marks other ↔
      ∀ i : Nat, marks[i]? = some false → data[i]? = other[i]? := by
  induction marks generalizing data other with
  | nil => simp [clearMarked]
  | cons mark marks ih =>
    cases data with
    | nil => cases hdata
    | cons b data =>
      cases other with
      | nil => cases hother
      | cons c other =>
        have ih := ih (Nat.le_of_succ_le_succ hdata) (Nat.le_of_succ_le_succ hother)
        rw [clearMarked, clearMarked, List.zipWith_cons_cons, List.zipWith_cons_cons,
          List.cons.injEq, ← clearMarked, ← clearMarked, ih]
        constructor
        · rintro ⟨hfirst, hrest⟩ i hi
          cases i with
          | zero =>
            cases hi
            exact congrArg some hfirst
          | succ i => exact hrest i hi
        · intro h
          refine ⟨?_, fun i hi => h (i + 1) hi⟩
          cases mark with
          | true => rfl
          | false => exact Option.some.inj (h 0 rfl)

end Marks

/-! ## Words -/

/-- **What a value says about the data it was read from**, for one type: the data are long enough,
    the value is one of the type, and packing it writes the data again but for the marked bytes. -/
def IsCanonical (type : AbiType) : Prop :=
  ∀ (region : Bytes) (offset : Nat) (value : AbiValue), region.length ≤ maxOffset →
    (decodeValue type region offset = .ok value ↔
      offset + type.headSize ≤ region.length ∧ Inhabits type value ∧
        encodeValue type value = clearMarked type.addressPadding (region.drop offset))

/-- A type whose values are words is canonical if a word is, for each value it is unpacked to. -/
theorem isCanonical_of_word {type : AbiType} {Holds : Bytes → AbiValue → Prop}
    (hsize : type.headSize = 32) (hlen : type.addressPadding.length = 32)
    (hdecode : ∀ (region : Bytes) (offset : Nat) (value : AbiValue),
      decodeValue type region offset = .ok value ↔
        ∃ word, wordAt region offset = .ok word ∧ Holds word value)
    (hholds : ∀ (word : Bytes) (value : AbiValue), word.length = 32 →
      (Holds word value ↔ Inhabits type value ∧
        encodeValue type value = clearMarked type.addressPadding word)) :
    IsCanonical type := by
  intro region offset value _
  rw [hdecode, hsize, ← clearMarked_take hlen.le]
  constructor
  · rintro ⟨word, hword, h⟩
    have hword32 := length_of_wordAt hword
    obtain ⟨hle, rfl⟩ := wordAt_eq_ok_iff.mp hword
    exact ⟨hle, (hholds _ value hword32).mp h⟩
  · rintro ⟨hle, h⟩
    have hword := wordAt_eq_ok_iff.mpr ⟨hle, rfl⟩
    exact ⟨_, hword, (hholds _ value (length_of_wordAt hword)).mpr h⟩

/-- In a word without an address every byte counts. -/
theorem isCanonical_of_plainWord {type : AbiType} {Holds : Bytes → AbiValue → Prop}
    (hsize : type.headSize = 32) (hmarks : type.addressPadding = List.replicate 32 false)
    (hdecode : ∀ (region : Bytes) (offset : Nat) (value : AbiValue),
      decodeValue type region offset = .ok value ↔
        ∃ word, wordAt region offset = .ok word ∧ Holds word value)
    (hholds : ∀ (word : Bytes) (value : AbiValue), word.length = 32 →
      (Holds word value ↔ Inhabits type value ∧ encodeValue type value = word)) :
    IsCanonical type := by
  refine isCanonical_of_word hsize (by rw [hmarks, List.length_replicate]) hdecode ?_
  intro word value hword
  have hplain := clearMarked_replicate_false word
  rw [hword] at hplain
  rw [hmarks, hplain]
  exact hholds word value hword

theorem clearMarked_addressWord {word : Bytes} (h : word.length = 32) :
    clearMarked AbiType.address.addressPadding word = List.replicate 12 0 ++ word.drop 12 := by
  have hfront : (word.take 12).length = 12 := List.length_take_of_le (by omega)
  have hback : (word.drop 12).length = 20 := by rw [List.length_drop, h]
  rw [AbiType.addressPadding, clearMarked_append, List.length_replicate,
    ← clearMarked_take (by rw [List.length_replicate])]
  congr 1
  · have hclear := clearMarked_replicate_true (word.take 12)
    rwa [hfront] at hclear
  · have hclear := clearMarked_replicate_false (word.drop 12)
    rwa [hback] at hclear

theorem isCanonical_address : IsCanonical .address := by
  refine isCanonical_of_word rfl rfl (fun _ _ _ => decodeValue_address_iff) ?_
  intro word value hword
  have hback : (word.drop 12).length = 20 := by rw [List.length_drop, hword]
  have hpacked (a : Address) :
      encodeValue .address (.address a) = List.replicate 12 0 ++ a.bytes := by
    rw [encodeValue, Bytes.padLeft, Address.length_bytes]
  rw [clearMarked_addressWord hword]
  constructor
  · rintro rfl
    rw [hpacked, Address.bytes_fit_of_length hback]
    exact ⟨.address _, rfl⟩
  · rintro ⟨⟨a⟩, h⟩
    rw [hpacked] at h
    rw [← List.append_cancel_left h, Address.fit_bytes]

theorem isCanonical_uint (bits : Nat) : IsCanonical (.uint bits) := by
  refine isCanonical_of_plainWord rfl rfl (fun _ _ _ => decodeValue_uint_iff) ?_
  intro word value hword
  constructor
  · rintro ⟨hn, rfl⟩
    exact ⟨.uint hn, Word.toBytes_ofBytes hword⟩
  · rintro ⟨hvalue, rfl⟩
    cases hvalue with
    | uint hn =>
      rw [encodeValue, Word.ofBytes_toBytes]
      exact ⟨hn, rfl⟩

theorem isCanonical_int (bits : Nat) : IsCanonical (.int bits) := by
  refine isCanonical_of_plainWord rfl rfl (fun _ _ _ => decodeValue_int_iff) ?_
  intro word value hword
  constructor
  · rintro ⟨hi, rfl⟩
    refine ⟨.int hi, ?_⟩
    rw [encodeValue, SignedWord.toWord_ofWord, Word.toBytes_ofBytes hword]
  · rintro ⟨hvalue, rfl⟩
    cases hvalue with
    | int hi =>
      have hread := SignedWord.ofWord_toWord (SignedWord.fitsIn_max hi)
      rw [encodeValue, Word.ofBytes_toBytes, hread]
      exact ⟨hi, rfl⟩

theorem isCanonical_bool : IsCanonical .bool := by
  refine isCanonical_of_plainWord rfl rfl (fun _ _ _ => decodeValue_bool_iff) ?_
  intro word value hword
  constructor
  · rintro ⟨hle, rfl⟩
    refine ⟨.bool _, Bytes.ofNat_of_value_eq hword ?_⟩
    rcases Nat.le_one_iff_eq_zero_or_eq_one.mp hle with h | h
    · rw [h]; rfl
    · rw [h]; rfl
  · rintro ⟨hvalue, rfl⟩
    cases hvalue with
    | bool b =>
      have hword : Bytes.value (encodeValue .bool (.bool b)) = if b then 1 else 0 :=
        value_offsetWord (by cases b <;> decide)
      rw [hword]
      cases b with
      | false => exact ⟨by decide, rfl⟩
      | true => exact ⟨by decide, rfl⟩

theorem isCanonical_fixedBytes {size : Nat} (hsize : size ≤ 32) :
    IsCanonical (.fixedBytes size) := by
  refine isCanonical_of_plainWord rfl rfl (fun _ _ _ => decodeValue_fixedBytes_iff) ?_
  intro word value hword
  constructor
  · rintro ⟨hzeros, rfl⟩
    have hfront : (word.take size).length = size := List.length_take_of_le (by omega)
    have hback : word.drop size = List.replicate (32 - size) 0 := by
      refine List.eq_replicate_iff.mpr ⟨by rw [List.length_drop, hword], ?_⟩
      intro b hb
      exact beq_iff_eq.mp (List.all_eq_true.mp hzeros b hb)
    refine ⟨.fixedBytes hfront, ?_⟩
    rw [encodeValue, Bytes.padRight, hfront, ← hback, List.take_append_drop]
  · rintro ⟨hvalue, rfl⟩
    cases hvalue with
    | fixedBytes hlen =>
      subst hlen
      rw [encodeValue, Bytes.padRight, List.drop_left, List.take_left]
      exact ⟨by simp, rfl⟩

/-! ## Fields -/

/-- Static fields are laid out side by side. -/
theorem layout_partsOfFields_cons {type : AbiType} {types : List AbiType} {value : AbiValue}
    {values : List AbiValue} (hstatic : ∀ other ∈ type :: types, other.isDynamic = false) :
    layout (partsOfFields (type :: types) (value :: values)) =
      encodeValue type value ++ layout (partsOfFields types values) := by
  have htypes := (List.forall_mem_cons.mp hstatic).2
  rw [layout_of_static (dynamic_of_mem_partsOfFields hstatic),
    layout_of_static (dynamic_of_mem_partsOfFields htypes), partsOfFields, List.map_cons,
    List.flatten_cons]

/-- **Fields.** The induction is on the types; the bound on the region keeps the cap on heads out of
    reach, so that each field starts where the one before it ends. -/
theorem decodeFields_static_iff {types : List AbiType} (hwf : ∀ type ∈ types, type.WellFormed)
    (hstatic : ∀ type ∈ types, type.isDynamic = false)
    (hcanonical : ∀ type ∈ types, IsCanonical type) {region : Bytes}
    (hmax : region.length ≤ maxOffset) {head : Nat} (hhead : head ≤ region.length)
    {values : List AbiValue} :
    decodeFields types region head = .ok values ↔
      head + headSizes types ≤ region.length ∧ List.Forall₂ Inhabits types values ∧
        layout (partsOfFields types values) =
          clearMarked (addressPaddings types) (region.drop head) := by
  induction types generalizing head values with
  | nil =>
    rw [List.forall₂_nil_left_iff]
    constructor
    · intro h
      cases h
      exact ⟨hhead, rfl, rfl⟩
    · rintro ⟨_, rfl, _⟩
      rfl
  | cons type types ih =>
    obtain ⟨hwf1, hwf⟩ := List.forall_mem_cons.mp hwf
    obtain ⟨hstatic1, hstatics⟩ := List.forall_mem_cons.mp hstatic
    obtain ⟨hcanonical1, hcanonical⟩ := List.forall_mem_cons.mp hcanonical
    have hmarks := AbiType.length_addressPadding hstatic1
    have hstart : startOf type region head = .ok head := by
      rw [startOf, hstatic1]
      rfl
    -- the next head, if the region reaches that far
    have hnext (hle : head + type.headSize ≤ region.length) :
        nextHead head type = head + type.headSize := by
      rw [nextHead, AbiType.headLength]
      omega
    rw [decodeFields_cons_iff, addressPaddings, clearMarked_append, List.drop_drop, hmarks,
      headSizes, List.forall₂_cons_left_iff]
    constructor
    · rintro ⟨start, first, rest, hstart', hfirst, hrest, rfl⟩
      cases hstart.symm.trans hstart'
      obtain ⟨hle, hvalue, hbytes⟩ := (hcanonical1 region head first hmax).mp hfirst
      rw [hnext hle, ih hwf hstatics hcanonical hle] at hrest
      obtain ⟨hle', hvalues, hlayout⟩ := hrest
      refine ⟨by omega, ⟨first, rest, hvalue, hvalues, rfl⟩, ?_⟩
      rw [layout_partsOfFields_cons hstatic, hbytes, hlayout]
    · rintro ⟨hle, ⟨first, rest, hvalue, hvalues, rfl⟩, hlayout⟩
      rw [layout_partsOfFields_cons hstatic] at hlayout
      -- the first field ends where the marks of its head end
      have hlen : (encodeValue type first).length =
          (clearMarked type.addressPadding (region.drop head)).length := by
        rw [length_encodeValue hvalue hwf1 hstatic1, length_clearMarked, hmarks]
        rw [List.length_drop, hmarks]
        omega
      obtain ⟨hbytes, hlayout⟩ := List.append_inj hlayout hlen
      have hle1 : head + type.headSize ≤ region.length := by omega
      refine ⟨head, first, rest, hstart, ?_, ?_, rfl⟩
      · exact (hcanonical1 region head first hmax).mpr ⟨hle1, hvalue, hbytes⟩
      · rw [hnext hle1, ih hwf hstatics hcanonical hle1]
        exact ⟨by omega, hvalues, hlayout⟩

/-- **Fields of a region of their own**, which starts at an offset of a region around it. -/
theorem decodeFields_drop_iff {types : List AbiType} (hwf : ∀ type ∈ types, type.WellFormed)
    (hstatic : ∀ type ∈ types, type.isDynamic = false)
    (hcanonical : ∀ type ∈ types, IsCanonical type) {region : Bytes}
    (hmax : region.length ≤ maxOffset) {offset : Nat} (hoffset : offset ≤ region.length)
    (values : List AbiValue) :
    decodeFields types (region.drop offset) 0 = .ok values ↔
      offset + headSizes types ≤ region.length ∧ List.Forall₂ Inhabits types values ∧
        layout (partsOfFields types values) =
          clearMarked (addressPaddings types) (region.drop offset) := by
  have hlen : (region.drop offset).length = region.length - offset := List.length_drop
  have hfits : 0 + headSizes types ≤ (region.drop offset).length ↔
      offset + headSizes types ≤ region.length := by omega
  rw [decodeFields_static_iff hwf hstatic hcanonical (by omega) (Nat.zero_le _), hfits,
    List.drop_zero]

/-- The check of the heads of an array passes if its elements fit. -/
theorem ensureFits_of_le {element : AbiType} {count : Nat} {body : Bytes}
    (h : headSizes (List.replicate count element) ≤ body.length) :
    ensureFits element count body = .ok () := by
  have hcut : count * element.headLength ≤ count * element.headSize :=
    Nat.mul_le_mul_left count (Nat.min_le_left element.headSize maxOffset)
  rw [AbiType.headSizes_replicate] at h
  rw [ensureFits_eq_ok_iff]
  omega

/-- **One value.** Arrays and tuples are regions of their own, and static ones consist of their
    heads. The induction is on the type. -/
theorem isCanonical_of_wellFormed {type : AbiType} (hwf : type.WellFormed)
    (hstatic : type.isDynamic = false) : IsCanonical type := by
  induction hwf with
  | address => exact isCanonical_address
  | uint => exact isCanonical_uint _
  | int => exact isCanonical_int _
  | bool => exact isCanonical_bool
  | bytes => cases hstatic
  | fixedBytes hsize => exact isCanonical_fixedBytes hsize.2
  | string => cases hstatic
  | array => cases hstatic
  | @fixedArray element size hsize hwf ih =>
    intro region offset value hmax
    have helement : element.isDynamic = false := hstatic
    have hfields (hle : offset ≤ region.length) :=
      decodeFields_drop_iff
        (fun _ htype => List.eq_of_mem_replicate (n := size) htype ▸ hwf)
        (fun _ htype => List.eq_of_mem_replicate htype ▸ helement)
        (fun _ htype => List.eq_of_mem_replicate htype ▸ ih helement) hmax hle
    have hpacked {values : List AbiValue} (hlen : values.length = size) :
        encodeValue (.fixedArray element size) (.fixedArray values) =
          layout (partsOfFields (List.replicate size element) values) := by
      rw [encodeValue, partsOfEach_eq_partsOfFields, hlen]
    rw [decodeValue_fixedArray_iff, AbiType.addressPadding_fixedArray,
      AbiType.headSize_fixedArray helement]
    constructor
    · rintro ⟨body, values, hbody, _, hvalues, rfl⟩
      obtain ⟨hle, rfl⟩ := regionFrom_eq_ok_iff.mp hbody
      obtain ⟨hsizes, hall, hlayout⟩ := (hfields hle values).mp hvalues
      obtain ⟨hlen, hall⟩ := forall₂_replicate_iff.mp hall
      exact ⟨hsizes, .fixedArray hlen hall, (hpacked hlen).trans hlayout⟩
    · rintro ⟨hle, hvalue, hbytes⟩
      cases hvalue with
      | fixedArray hlen hall =>
        rw [hpacked hlen] at hbytes
        refine ⟨region.drop offset, _, regionFrom_eq_ok_iff.mpr ⟨by omega, rfl⟩, ?_, ?_, rfl⟩
        · exact ensureFits_of_le (by rw [List.length_drop]; omega)
        · have hall := forall₂_replicate_iff.mpr ⟨hlen, hall⟩
          exact (hfields (by omega) _).mpr ⟨hle, hall, hbytes⟩
  | @tuple types hwf ih =>
    intro region offset value hmax
    have hstatics : ∀ type ∈ types, type.isDynamic = false :=
      fun _ htype => isDynamic_of_mem hstatic htype
    have hfields (hle : offset ≤ region.length) :=
      decodeFields_drop_iff hwf hstatics
        (fun type htype => ih type htype (hstatics type htype)) hmax hle
    rw [decodeValue_tuple_iff, AbiType.addressPadding, headSize_tuple hstatic]
    constructor
    · rintro ⟨body, values, hbody, hvalues, rfl⟩
      obtain ⟨hle, rfl⟩ := regionFrom_eq_ok_iff.mp hbody
      obtain ⟨hsizes, hall, hlayout⟩ := (hfields hle values).mp hvalues
      obtain ⟨hlen, hall⟩ := List.forall₂_iff_zip.mp hall
      exact ⟨hsizes, .tuple hlen fun pair hpair => hall hpair, hlayout⟩
    · rintro ⟨hle, hvalue, hbytes⟩
      cases hvalue with
      | tuple hlen hall =>
        have hall := List.forall₂_iff_zip.mpr ⟨hlen, fun hpair => hall _ hpair⟩
        refine ⟨region.drop offset, _, regionFrom_eq_ok_iff.mpr ⟨by omega, rfl⟩, ?_, rfl⟩
        exact (hfields (by omega) _).mpr ⟨hle, hall, hbytes⟩

/-! ## Data -/

/-- **Static data.** Data unpack to values exactly if they are long enough and packing the values
    writes their front, with zeros in front of the addresses. -/
theorem decode_static_iff {types : List AbiType} (hwf : ∀ type ∈ types, type.WellFormed)
    (hstatic : ∀ type ∈ types, type.isDynamic = false) {data : Bytes} {values : List AbiValue}
    (hmax : data.length ≤ maxOffset) :
    decode types data = .ok values ↔
      headSizes types ≤ data.length ∧
        encode types values = .ok (clearMarked (addressPaddings types) data) := by
  have hcanonical : ∀ type ∈ types, IsCanonical type :=
    fun type htype => isCanonical_of_wellFormed (hwf type htype) (hstatic type htype)
  rw [decode, decodeFields_static_iff hwf hstatic hcanonical hmax (Nat.zero_le _), Nat.zero_add,
    List.drop_zero, List.forall₂_iff_zip, encode_eq_ok_iff, and_assoc, eq_comm (a := layout _)]
  simp only [Prod.forall]

/-- **Static data are canonical.** What static data unpack to is packed to the head of the data,
    with zeros in the twelve bytes in front of each address and every other byte kept. So the values
    settle the data but for those bytes and what comes behind the head: the data that unpack to the
    same values are those that are long enough and agree with it on every other byte. Lengths are
    offsets of 64 bits; the cap on heads would cut those of longer data. -/
theorem encode_of_decode_static {types : List AbiType} {data : Bytes} {values : List AbiValue}
    (hnamed : ∀ type ∈ types, type.IsNamed) (hstatic : ∀ type ∈ types, type.isDynamic = false)
    (hmax : data.length ≤ maxOffset) (h : decode types data = .ok values) :
    headSizes types ≤ data.length ∧ (addressPaddings types).length = headSizes types ∧
      encode types values =
        .ok (clearMarked (addressPaddings types) (data.take (headSizes types))) ∧
      ∀ other : Bytes, other.length ≤ maxOffset →
        (decode types other = .ok values ↔ headSizes types ≤ other.length ∧
          ∀ i : Nat, (addressPaddings types)[i]? = some false → data[i]? = other[i]?) := by
  have hwf : ∀ type ∈ types, type.WellFormed :=
    fun type htype => AbiType.wellFormed_of_isNamed (hnamed type htype)
  have hmarks : (addressPaddings types).length = headSizes types :=
    AbiType.length_addressPaddings fun type htype =>
      AbiType.length_addressPadding (hstatic type htype)
  obtain ⟨hle, hencode⟩ := (decode_static_iff hwf hstatic hmax).mp h
  refine ⟨hle, hmarks, by rw [clearMarked_take hmarks.le, hencode], ?_⟩
  intro other hother
  rw [decode_static_iff hwf hstatic hother, hencode, Except.ok.injEq]
  exact and_congr_right fun hle' => clearMarked_eq_iff (hmarks ▸ hle) (hmarks ▸ hle')

set_option maxRecDepth 4000 in
/-- An address behind bytes that are not zeros, in a tuple in front of an array. -/
theorem encode_of_decode_static_dirty :
    let types : List AbiType := [.tuple [.address, .bool], .fixedArray (.int 8) 2]
    let values : List AbiValue :=
      [.tuple [.address (.fit [1]), .bool true], .fixedArray [.int (.ofInt (-1)), .int (.ofInt 5)]]
    let data : Bytes := List.replicate 12 7 ++ List.replicate 19 0 ++ [1] ++ Bytes.ofNat 32 1 ++
      List.replicate 32 255 ++ Bytes.ofNat 32 5 ++ [9]
    decode types data = .ok values ∧ headSizes types = 128 ∧ data.length = 129 ∧
      encode types values = .ok (clearMarked (addressPaddings types) (data.take 128)) ∧
      ∀ other : Bytes, other.length ≤ maxOffset →
        (decode types other = .ok values ↔ 128 ≤ other.length ∧
          ∀ i : Nat, (addressPaddings types)[i]? = some false → data[i]? = other[i]?) := by
  intro types values data
  have hnamed : ∀ type ∈ types, type.IsNamed := by
    intro type htype
    rcases List.mem_pair.mp htype with rfl | rfl
    · refine AbiType.isNamed_iff.mpr (.tuple ?_)
      intro field hfield
      rcases List.mem_pair.mp hfield with rfl | rfl
      · exact .address
      · exact .bool
    · exact AbiType.isNamed_iff.mpr
        (.fixedArray ⟨by decide, by decide⟩ (.int ⟨by decide, by decide, by decide⟩))
  have hstatic : ∀ type ∈ types, type.isDynamic = false := by
    intro type htype
    rcases List.mem_pair.mp htype with rfl | rfl
    · rfl
    · rfl
  have hdecode : decode types data = .ok values := by
    simp only [types, values, data]
    rfl
  have hmax : data.length ≤ maxOffset := by decide
  obtain ⟨-, -, hencode, hothers⟩ := encode_of_decode_static hnamed hstatic hmax hdecode
  exact ⟨hdecode, rfl, rfl, hencode, hothers⟩

end Abi

end ChainClient
