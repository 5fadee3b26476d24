import ChainClient.Proofs.Abi.Notation
import ChainClient.Proofs.Abi.RoundTrip

/-!
# `ChainClient.Proofs.Abi.Decode` — what the unpacker returns

The unpacker follows pointers that anybody may have written: they may overlap, go backwards or lead
into heads. None of that matters here. Whatever a value is read from, the unpacker returns it only
when it is a value of its type, so that the packer takes it.

## Contents
- **Readers.** `wordAt_eq_ok_iff`, `offsetAt_eq_ok_iff`, `regionFrom_eq_ok_iff`, `bytesAt_eq_ok_iff`
  and `ensureFits_eq_ok_iff`: what a region holds when it is read.
- **One value.** One law a type, from `decodeValue_address_iff` to `decodeValue_tuple_iff`: what was
  read when a value is returned. `decodeFields_cons_iff` does so for lists.
- **Behind a pointer.** `decode_behind_pointer` follows the pointer to a dynamic value.
- **Types.** `inhabits_of_decodeValue`, by induction on the type, and `encode_of_decode` for data
  that are unpacked.
-/

namespace ChainClient

namespace Abi

variable {region : Bytes} {offset : Nat} {value : AbiValue}

/-! ## Readers -/

theorem wordAt_eq_ok_iff {word : Bytes} :
    wordAt region offset = .ok word ↔
      offset + 32 ≤ region.length ∧ word = (region.drop offset).take 32 :=
  Outcome.ite_pure_eq_ok_iff

theorem length_of_wordAt {word : Bytes} (h : wordAt region offset = .ok word) :
    word.length = 32 := by
  obtain ⟨hle, rfl⟩ := wordAt_eq_ok_iff.mp h
  rw [List.length_take, List.length_drop]
  omega

theorem offsetAt_eq_ok_iff {n : Nat} :
    offsetAt region offset = .ok n ↔
      ∃ word, wordAt region offset = .ok word ∧ Bytes.value word ≤ region.length ∧
        n = Bytes.value word := by
  unfold offsetAt
  cases wordAt region offset with
  | error e => exact ⟨fun h => (nomatch h), fun ⟨_, h, _⟩ => (nomatch h)⟩
  | ok word =>
    simp only [Except.ok.injEq, exists_eq_left']
    exact Outcome.ite_pure_eq_ok_iff

/-- A pointer or length that was read stands in the region, and is no greater than it is long. -/
theorem le_of_offsetAt {n : Nat} (h : offsetAt region offset = .ok n) :
    offset + 32 ≤ region.length ∧ n ≤ region.length := by
  obtain ⟨word, hword, hle, rfl⟩ := offsetAt_eq_ok_iff.mp h
  exact ⟨(wordAt_eq_ok_iff.mp hword).1, hle⟩

theorem regionFrom_eq_ok_iff {body : Bytes} :
    regionFrom region offset = .ok body ↔ offset ≤ region.length ∧ body = region.drop offset :=
  Outcome.ite_pure_eq_ok_iff

theorem length_of_regionFrom {body : Bytes} (h : regionFrom region offset = .ok body) :
    body.length ≤ region.length := by
  obtain ⟨_, rfl⟩ := regionFrom_eq_ok_iff.mp h
  rw [List.length_drop]
  exact Nat.sub_le _ _

theorem bytesAt_eq_ok_iff {bs : Bytes} :
    bytesAt region offset = .ok bs ↔
      ∃ length, offsetAt region offset = .ok length ∧ offset + 32 + length ≤ region.length ∧
        bs = (region.drop (offset + 32)).take length := by
  unfold bytesAt
  cases offsetAt region offset with
  | error e => exact ⟨fun h => (nomatch h), fun ⟨_, h, _⟩ => (nomatch h)⟩
  | ok length =>
    simp only [Except.ok.injEq, exists_eq_left']
    exact Outcome.ite_pure_eq_ok_iff

theorem ensureFits_eq_ok_iff {element : AbiType} {count : Nat} :
    ensureFits element count region = .ok () ↔
      min (count * element.headLength) AbiType.maxOffset ≤ region.length := by
  show (if _ then _ else _) = _ ↔ _
  exact Outcome.ite_pure_eq_ok_iff.trans (and_iff_left rfl)

/-! ## One value -/

theorem decodeValue_address_iff :
    decodeValue .address region offset = .ok value ↔
      ∃ word, wordAt region offset = .ok word ∧ value = .address (.fit (word.drop 12)) := by
  rw [decodeValue, Outcome.bind_eq_ok_iff]
  exact exists_congr fun word => and_congr_right fun _ => Outcome.pure_eq_ok_iff

theorem decodeValue_uint_iff {bits : Nat} :
    decodeValue (.uint bits) region offset = .ok value ↔
      ∃ word, wordAt region offset = .ok word ∧ (Word.ofBytes word).toNat < bitBound bits ∧
        value = .uint (Word.ofBytes word) := by
  rw [decodeValue, Outcome.bind_eq_ok_iff]
  exact exists_congr fun word => and_congr_right fun _ => Outcome.ite_pure_eq_ok_iff

theorem decodeValue_int_iff {bits : Nat} :
    decodeValue (.int bits) region offset = .ok value ↔
      ∃ word, wordAt region offset = .ok word ∧
        (SignedWord.ofWord (Word.ofBytes word)).fitsIn bits = true ∧
        value = .int (SignedWord.ofWord (Word.ofBytes word)) := by
  rw [decodeValue, Outcome.bind_eq_ok_iff]
  exact exists_congr fun word => and_congr_right fun _ => Outcome.ite_pure_eq_ok_iff

theorem decodeValue_bool_iff :
    decodeValue .bool region offset = .ok value ↔
      ∃ word, wordAt region offset = .ok word ∧ Bytes.value word ≤ 1 ∧
        value = .bool (Bytes.value word == 1) := by
  rw [decodeValue, Outcome.bind_eq_ok_iff]
  exact exists_congr fun word => and_congr_right fun _ => Outcome.ite_pure_eq_ok_iff

theorem decodeValue_fixedBytes_iff {size : Nat} :
    decodeValue (.fixedBytes size) region offset = .ok value ↔
      ∃ word, wordAt region offset = .ok word ∧ (word.drop size).all (· == 0) = true ∧
        value = .fixedBytes (word.take size) := by
  rw [decodeValue, Outcome.bind_eq_ok_iff]
  exact exists_congr fun word => and_congr_right fun _ => Outcome.ite_pure_eq_ok_iff

theorem decodeValue_bytes_iff :
    decodeValue .bytes region offset = .ok value ↔
      ∃ bs, bytesAt region offset = .ok bs ∧ value = .bytes bs := by
  rw [decodeValue, Outcome.bind_eq_ok_iff]
  exact exists_congr fun bs => and_congr_right fun _ => Outcome.pure_eq_ok_iff

theorem decodeValue_string_iff :
    decodeValue .string region offset = .ok value ↔
      ∃ bs s, bytesAt region offset = .ok bs ∧ Utf8.read bs = .ok s ∧ value = .string s := by
  rw [decodeValue, Outcome.bind_eq_ok_iff]
  refine exists_congr fun bs => ?_
  cases hread : Utf8.read bs with
  | ok s =>
    constructor
    · rintro ⟨hbs, h⟩
      cases h
      exact ⟨s, hbs, rfl, rfl⟩
    · rintro ⟨_, hbs, hs, rfl⟩
      cases hs
      exact ⟨hbs, rfl⟩
  | error fault =>
    constructor
    · rintro ⟨_, h⟩
      cases h
    · rintro ⟨_, _, hs, _⟩
      cases hs

theorem decodeFields_cons_iff {type : AbiType} {types : List AbiType} {head : Nat}
    {values : List AbiValue} :
    decodeFields (type :: types) region head = .ok values ↔
      ∃ start first rest, startOf type region head = .ok start ∧
        decodeValue type region start = .ok first ∧
        decodeFields types region (nextHead head type) = .ok rest ∧ values = first :: rest := by
  rw [decodeFields, Outcome.bind_eq_ok_iff]
  constructor
  · rintro ⟨start, hstart, h⟩
    obtain ⟨first, hfirst, h⟩ := Outcome.bind_eq_ok_iff.mp h
    obtain ⟨rest, hrest, h⟩ := Outcome.bind_eq_ok_iff.mp h
    cases h
    exact ⟨start, first, rest, hstart, hfirst, hrest, rfl⟩
  · rintro ⟨start, first, rest, hstart, hfirst, hrest, rfl⟩
    refine ⟨start, hstart, Outcome.bind_eq_ok_iff.mpr ⟨first, hfirst, ?_⟩⟩
    exact Outcome.bind_eq_ok_iff.mpr ⟨rest, hrest, rfl⟩

/-- An array is a count, and as many fields of one type in the region behind it. -/
theorem decodeValue_array_iff {element : AbiType} :
    decodeValue (.array element) region offset = .ok value ↔
      ∃ count body values, offsetAt region offset = .ok count ∧
        regionFrom region (offset + 32) = .ok body ∧ ensureFits element count body = .ok () ∧
        decodeFields (List.replicate count element) body 0 = .ok values ∧
        value = .array values := by
  rw [decodeValue, Outcome.bind_eq_ok_iff]
  constructor
  · rintro ⟨count, hcount, h⟩
    obtain ⟨body, hbody, h⟩ := Outcome.bind_eq_ok_iff.mp h
    obtain ⟨_, hfits, h⟩ := Outcome.bind_eq_ok_iff.mp h
    obtain ⟨values, hvalues, h⟩ := Outcome.bind_eq_ok_iff.mp h
    cases h
    rw [readEach_eq_decodeFields] at hvalues
    exact ⟨count, body, values, hcount, hbody, hfits, hvalues, rfl⟩
  · rintro ⟨count, body, values, hcount, hbody, hfits, hvalues, rfl⟩
    rw [← readEach_eq_decodeFields] at hvalues
    refine ⟨count, hcount, Outcome.bind_eq_ok_iff.mpr ⟨body, hbody, ?_⟩⟩
    refine Outcome.bind_eq_ok_iff.mpr ⟨(), hfits, ?_⟩
    exact Outcome.bind_eq_ok_iff.mpr ⟨values, hvalues, rfl⟩

theorem decodeValue_fixedArray_iff {element : AbiType} {size : Nat} :
    decodeValue (.fixedArray element size) region offset = .ok value ↔
      ∃ body values, regionFrom region offset = .ok body ∧ ensureFits element size body = .ok () ∧
        decodeFields (List.replicate size element) body 0 = .ok values ∧
        value = .fixedArray values := by
  rw [decodeValue, Outcome.bind_eq_ok_iff]
  constructor
  · rintro ⟨body, hbody, h⟩
    obtain ⟨_, hfits, h⟩ := Outcome.bind_eq_ok_iff.mp h
    obtain ⟨values, hvalues, h⟩ := Outcome.bind_eq_ok_iff.mp h
    cases h
    rw [readEach_eq_decodeFields] at hvalues
    exact ⟨body, values, hbody, hfits, hvalues, rfl⟩
  · rintro ⟨body, values, hbody, hfits, hvalues, rfl⟩
    rw [← readEach_eq_decodeFields] at hvalues
    refine ⟨body, hbody, Outcome.bind_eq_ok_iff.mpr ⟨(), hfits, ?_⟩⟩
    exact Outcome.bind_eq_ok_iff.mpr ⟨values, hvalues, rfl⟩

theorem decodeValue_tuple_iff {types : List AbiType} :
    decodeValue (.tuple types) region offset = .ok value ↔
      ∃ body values, regionFrom region offset = .ok body ∧
        decodeFields types body 0 = .ok values ∧ value = .tuple values := by
  rw [decodeValue, Outcome.bind_eq_ok_iff]
  constructor
  · rintro ⟨body, hbody, h⟩
    obtain ⟨values, hvalues, h⟩ := Outcome.bind_eq_ok_iff.mp h
    cases h
    exact ⟨body, values, hbody, hvalues, rfl⟩
  · rintro ⟨body, values, hbody, hvalues, rfl⟩
    exact ⟨body, hbody, Outcome.bind_eq_ok_iff.mpr ⟨values, hvalues, rfl⟩⟩

/-! ## Behind a pointer -/

/-- A dynamic value on its own is read behind its pointer. -/
theorem decode_behind_pointer {type : AbiType} (hdynamic : type.isDynamic = true) (tail : Bytes) :
    decode [type] (offsetWord 32 ++ tail) =
      (decodeValue type (offsetWord 32 ++ tail) 32).map ([·]) := by
  have hpointer : startOf type (offsetWord 32 ++ tail) 0 = .ok 32 := by
    rw [startOf, if_pos hdynamic]
    refine offsetAt_of_standsAt (standsAt_self _ _) (by decide) ?_
    rw [List.length_append, offsetWord, Bytes.length_ofNat]
    exact Nat.le_add_right 32 _
  rw [decode, decodeFields, hpointer]
  simp only [decodeFields, bind, Except.bind]
  cases decodeValue type (offsetWord 32 ++ tail) 32 with
  | error e => rfl
  | ok value => rfl

/-! ## Types -/

/-- The unpacker returns values of a type only, wherever it reads them. -/
def IsSafe (type : AbiType) : Prop :=
  ∀ (region : Bytes) (offset : Nat) (value : AbiValue),
    decodeValue type region offset = .ok value → Inhabits type value

/-- Fields of safe types are values of their types, wherever the heads stand. -/
theorem inhabits_of_decodeFields {types : List AbiType} (hsafe : ∀ type ∈ types, IsSafe type)
    {head : Nat} {values : List AbiValue} (h : decodeFields types region head = .ok values) :
    List.Forall₂ Inhabits types values := by
  induction types generalizing head values with
  | nil =>
    cases h
    exact .nil
  | cons type types ih =>
    obtain ⟨start, first, rest, _, hfirst, hrest, rfl⟩ := decodeFields_cons_iff.mp h
    refine .cons (hsafe type List.mem_cons_self region start first hfirst) ?_
    exact ih (fun other hother => hsafe other (List.mem_cons_of_mem type hother)) hrest

/-- Fields of one type are so many values of it. -/
theorem forall₂_replicate_iff {element : AbiType} {size : Nat} {values : List AbiValue} :
    List.Forall₂ Inhabits (List.replicate size element) values ↔
      values.length = size ∧ ∀ value ∈ values, Inhabits element value := by
  induction size generalizing values with
  | zero =>
    rw [List.replicate_zero, List.forall₂_nil_left_iff]
    constructor
    · rintro rfl
      exact ⟨rfl, fun value hvalue => (nomatch hvalue)⟩
    · exact fun h => List.length_eq_zero_iff.mp h.1
  | succ size ih =>
    rw [List.replicate_succ, List.forall₂_cons_left_iff]
    constructor
    · rintro ⟨first, rest, hfirst, hrest, rfl⟩
      obtain ⟨hlen, hall⟩ := ih.mp hrest
      exact ⟨by rw [List.length_cons, hlen], List.forall_mem_cons.mpr ⟨hfirst, hall⟩⟩
    · rintro ⟨hlen, hall⟩
      obtain ⟨first, rest, rfl⟩ := List.exists_of_length_succ values hlen
      obtain ⟨hfirst, hrest⟩ := List.forall_mem_cons.mp hall
      exact ⟨first, rest, hfirst, ih.mpr ⟨Nat.succ.inj hlen, hrest⟩, rfl⟩

/-- The elements of an array are as many as were asked for, and of its type. -/
theorem inhabits_of_decodeFields_replicate {element : AbiType} (hsafe : IsSafe element)
    {count head : Nat} {values : List AbiValue}
    (h : decodeFields (List.replicate count element) region head = .ok values) :
    values.length = count ∧ ∀ value ∈ values, Inhabits element value :=
  forall₂_replicate_iff.mp
    (inhabits_of_decodeFields (fun _ htype => List.eq_of_mem_replicate htype ▸ hsafe) h)

/-- **One value.** What the unpacker returns is a value of its type. The induction is on the type;
    each branch of the unpacker has made the check that the packer makes for the type. -/
theorem inhabits_of_decodeValue {type : AbiType} (hwf : type.WellFormed) : IsSafe type := by
  induction hwf with
  | address =>
    intro region offset value h
    obtain ⟨word, _, rfl⟩ := decodeValue_address_iff.mp h
    exact .address _
  | uint =>
    intro region offset value h
    obtain ⟨word, _, hn, rfl⟩ := decodeValue_uint_iff.mp h
    exact .uint hn
  | int =>
    intro region offset value h
    obtain ⟨word, _, hi, rfl⟩ := decodeValue_int_iff.mp h
    exact .int hi
  | bool =>
    intro region offset value h
    obtain ⟨word, _, _, rfl⟩ := decodeValue_bool_iff.mp h
    exact .bool _
  | bytes =>
    intro region offset value h
    obtain ⟨bs, _, rfl⟩ := decodeValue_bytes_iff.mp h
    exact .bytes bs
  | @fixedBytes size hsize =>
    intro region offset value h
    obtain ⟨word, hword, _, rfl⟩ := decodeValue_fixedBytes_iff.mp h
    -- the front of a word has the length of the type because no such type is longer than a word
    have hlen := length_of_wordAt hword
    exact .fixedBytes (List.length_take_of_le (by omega))
  | string =>
    intro region offset value h
    obtain ⟨bs, s, _, _, rfl⟩ := decodeValue_string_iff.mp h
    exact .string s
  | array _ ih =>
    intro region offset value h
    obtain ⟨count, body, values, _, _, _, hvalues, rfl⟩ := decodeValue_array_iff.mp h
    exact .array (inhabits_of_decodeFields_replicate ih hvalues).2
  | fixedArray _ _ ih =>
    intro region offset value h
    obtain ⟨body, values, _, _, hvalues, rfl⟩ := decodeValue_fixedArray_iff.mp h
    obtain ⟨hlen, hall⟩ := inhabits_of_decodeFields_replicate ih hvalues
    exact .fixedArray hlen hall
  | tuple _ ih =>
    intro region offset value h
    obtain ⟨body, values, _, hvalues, rfl⟩ := decodeValue_tuple_iff.mp h
    obtain ⟨hlen, hall⟩ := List.forall₂_iff_zip.mp (inhabits_of_decodeFields ih hvalues)
    exact .tuple hlen fun pair hpair => hall hpair

/-- **What is unpacked can be packed.** The values that any data unpack to are as many as there are
    types, and each is a value of its type at every depth: numbers fit their widths
    (`SignedWord.fitsIn_iff` has the bounds of signed ones), and byte strings and arrays of a fixed
    length have it. So the packer takes them. -/
theorem encode_of_decode {types : List AbiType} {data : Bytes} {values : List AbiValue}
    (hnamed : ∀ type ∈ types, type.IsNamed) (h : decode types data = .ok values) :
    (∃ packed, encode types values = .ok packed) ∧ types.length = values.length ∧
      ∀ pair ∈ types.zip values, Inhabits pair.1 pair.2 := by
  have hsafe : ∀ type ∈ types, IsSafe type := fun type htype =>
    inhabits_of_decodeValue (AbiType.wellFormed_of_isNamed (hnamed type htype))
  obtain ⟨hlen, hall⟩ := List.forall₂_iff_zip.mp (inhabits_of_decodeFields hsafe h)
  have hinhabits : ∀ pair ∈ types.zip values, Inhabits pair.1 pair.2 := fun pair hpair => hall hpair
  exact ⟨⟨_, encode_eq_ok_iff.mpr ⟨hlen, hinhabits, rfl⟩⟩, hlen, hinhabits⟩

set_option maxRecDepth 2000 in
/-- Two pointers to one place, which is an array to the first and a byte string to the second. -/
theorem encode_of_decode_overlap :
    let types : List AbiType := [.array (.uint 8), .bytes]
    let values : List AbiValue := [.array [.uint 7], .bytes [0]]
    decode types (Bytes.ofNat 32 64 ++ Bytes.ofNat 32 64 ++ Bytes.ofNat 32 1 ++ Bytes.ofNat 32 7) =
        .ok values ∧
      (∃ packed, encode types values = .ok packed) ∧
      ∀ pair ∈ types.zip values, Inhabits pair.1 pair.2 := by
  intro types values
  have hnamed : ∀ type ∈ types, type.IsNamed := by
    intro type htype
    rcases List.mem_pair.mp htype with rfl | rfl
    · exact AbiType.isNamed_iff.mpr (.array (.uint ⟨by decide, by decide, by decide⟩))
    · exact AbiType.isNamed_iff.mpr .bytes
  have hdecode : decode types (Bytes.ofNat 32 64 ++ Bytes.ofNat 32 64 ++ Bytes.ofNat 32 1 ++
      Bytes.ofNat 32 7) = .ok values := rfl
  obtain ⟨hencode, -, hinhabits⟩ := encode_of_decode hnamed hdecode
  exact ⟨hdecode, hencode, hinhabits⟩

end Abi

end ChainClient
