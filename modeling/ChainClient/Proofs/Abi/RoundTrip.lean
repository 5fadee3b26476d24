import ChainClient.Abi.Decode
import ChainClient.Proofs.Abi.Layout
import ChainClient.Proofs.Text.Utf8

/-!
# `ChainClient.Proofs.Abi.RoundTrip` — what is packed is unpacked again

The unpacker never sees where a region ends: every region it narrows to reaches to the end of the
data. The law of regions says where the heads and tails stand, and `StandsAt` forgets what stands
behind them, so the two meet in one statement: wherever an encoding stands in some data, the
unpacker reads its value there (`isRead_of_encodes`).

Arrays whose elements take up no room are left out. The unpacker compares the length of an array
with what is left of the data, and nothing stands there for such elements.

## Contents
- **Room.** `AbiType.ArraysTakeRoom` leaves those arrays out, at every depth.
- **Reading.** `wordAt_of_standsAt`, `offsetAt_of_standsAt` and `bytesAt_of_standsAt` read what
  stands at an offset.
- **Elementary values.** One lemma a type: what stands at an offset is unpacked.
- **Heads.** `startOf_of_isRegion` finds a part through its head, `nextHead_headStart` the next
  head, and `ensureFits_of_isRegion` passes the check of the heads.
- **Regions.** `decodeFields_of_isRegion` walks the heads of a region; arrays and tuples follow.
- **Round trip.** `decode_packed_append` and `decode_encode_append`, for any list of values and
  anything behind it.
-/

namespace ChainClient

/-! ## Room -/

/-- **Every array takes up room**: the elements of the arrays of any length in a type, at every
    depth, have heads that are not empty. -/
inductive AbiType.ArraysTakeRoom : AbiType → Prop where
  | address : ArraysTakeRoom .address
  | uint (bits : Nat) : ArraysTakeRoom (.uint bits)
  | int (bits : Nat) : ArraysTakeRoom (.int bits)
  | bool : ArraysTakeRoom .bool
  | bytes : ArraysTakeRoom .bytes
  | fixedBytes (size : Nat) : ArraysTakeRoom (.fixedBytes size)
  | string : ArraysTakeRoom .string
  | array {element : AbiType} (hroom : element.headLength ≠ 0) (h : ArraysTakeRoom element) :
      ArraysTakeRoom (.array element)
  | fixedArray {element : AbiType} (size : Nat) (h : ArraysTakeRoom element) :
      ArraysTakeRoom (.fixedArray element size)
  | tuple {fields : List AbiType} (h : ∀ field ∈ fields, ArraysTakeRoom field) :
      ArraysTakeRoom (.tuple fields)

namespace AbiType.ArraysTakeRoom

theorem of_array {element : AbiType} (h : ArraysTakeRoom (.array element)) :
    element.headLength ≠ 0 ∧ element.ArraysTakeRoom := by
  cases h with
  | array hroom h => exact ⟨hroom, h⟩

theorem of_fixedArray {element : AbiType} {size : Nat}
    (h : ArraysTakeRoom (.fixedArray element size)) : element.ArraysTakeRoom := by
  cases h with
  | fixedArray _ h => exact h

theorem of_tuple {fields : List AbiType} (h : ArraysTakeRoom (.tuple fields)) :
    ∀ field ∈ fields, field.ArraysTakeRoom := by
  cases h with
  | tuple h => exact h

end AbiType.ArraysTakeRoom

namespace Abi

open AbiType (maxOffset)

/-! ## Reading -/

variable {region bs : Bytes} {offset : Nat}

theorem wordAt_of_standsAt (h : StandsAt region offset bs) (hlen : bs.length = 32) :
    wordAt region offset = .ok bs := by
  have hle := h.le_length
  have htake := h.take_drop
  rw [hlen] at hle htake
  rw [wordAt, if_pos hle, htake]

/-- Offsets and lengths fit a word with room to spare. -/
theorem lt_of_le_maxOffset {n : Nat} (h : n ≤ maxOffset) : n < 256 ^ 32 := by
  have hbound : maxOffset < 256 ^ 32 := by decide
  exact Nat.lt_of_le_of_lt h hbound

theorem value_offsetWord {n : Nat} (h : n < 256 ^ 32) : Bytes.value (offsetWord n) = n :=
  Bytes.value_ofNat_of_lt h

theorem offsetAt_of_standsAt {n : Nat} (h : StandsAt region offset (offsetWord n))
    (hmax : n < 256 ^ 32) (hle : n ≤ region.length) : offsetAt region offset = .ok n := by
  rw [offsetAt, wordAt_of_standsAt h (Bytes.length_ofNat 32 n)]
  show (if Bytes.value (offsetWord n) ≤ region.length then _ else _) = _
  rw [value_offsetWord hmax, if_pos hle]

theorem bytesAt_of_standsAt {padding : Bytes}
    (h : StandsAt region offset (offsetWord bs.length ++ (bs ++ padding)))
    (hmax : bs.length < 256 ^ 32) : bytesAt region offset = .ok bs := by
  have hword : StandsAt region offset (offsetWord bs.length) := by
    simpa using h.trans (standsAt_self _ (bs ++ padding))
  have hbytes : StandsAt region (offset + 32) bs := by
    have hfront := (standsAt_append (offsetWord bs.length) (bs ++ padding))
    rw [offsetWord, Bytes.length_ofNat, ← offsetWord] at hfront
    simpa using h.trans (hfront.trans (standsAt_self bs padding))
  have hle := hbytes.le_length
  rw [bytesAt, offsetAt_of_standsAt hword hmax (by omega)]
  show (if offset + 32 + bs.length ≤ region.length then _ else _) = _
  rw [if_pos hle, hbytes.take_drop]

/-- What stands at an offset stands at the start of the region from there on. -/
theorem regionFrom_of_standsAt (h : StandsAt region offset bs) :
    ∃ rest, regionFrom region offset = .ok (bs ++ rest) := by
  have hle := h.le_length
  obtain ⟨rest, hrest⟩ := h.drop_eq
  exact ⟨rest, by rw [regionFrom, if_pos (by omega), hrest]⟩

/-! ## Elementary values -/

theorem decodeValue_address {a : Address}
    (h : StandsAt region offset (List.replicate 12 0 ++ a.bytes)) :
    decodeValue .address region offset = .ok (.address a) := by
  have hlen : a.bytes.length = 20 := a.octets.length_bytes
  have hword := wordAt_of_standsAt h (by simp [hlen])
  have hfit : Address.fit a.bytes = a := by
    rw [Address.fit, FixedBytes.fit]
    simp only [Bytes.fit_of_length hlen]
    rfl
  simp only [decodeValue, hword, bind, Except.bind, pure, Except.pure]
  rw [List.drop_left' List.length_replicate, hfit]

theorem decodeValue_uint {bits : Nat} {n : Word} (hn : n.toNat < bitBound bits)
    (h : StandsAt region offset n.toBytes) :
    decodeValue (.uint bits) region offset = .ok (.uint n) := by
  have hword := wordAt_of_standsAt h (Word.length_toBytes n)
  simp only [decodeValue, hword, bind, Except.bind, Word.ofBytes_toBytes]
  rw [if_pos hn]
  rfl

theorem decodeValue_int {bits : Nat} {i : SignedWord} (hi : i.fitsIn bits = true)
    (h : StandsAt region offset i.toWord.toBytes) :
    decodeValue (.int bits) region offset = .ok (.int i) := by
  have hword := wordAt_of_standsAt h (Word.length_toBytes i.toWord)
  have hread := SignedWord.ofWord_toWord (SignedWord.fitsIn_max hi)
  simp only [decodeValue, hword, bind, Except.bind, Word.ofBytes_toBytes, hread]
  rw [if_pos hi]
  rfl

theorem decodeValue_bool {b : Bool} (h : StandsAt region offset (offsetWord (if b then 1 else 0))) :
    decodeValue .bool region offset = .ok (.bool b) := by
  have hword := wordAt_of_standsAt h (Bytes.length_ofNat 32 _)
  have hvalue : Bytes.value (offsetWord (if b then 1 else 0)) = if b then 1 else 0 :=
    value_offsetWord (by cases b <;> decide)
  simp only [decodeValue, hword, bind, Except.bind, hvalue]
  cases b <;> rfl

theorem decodeValue_fixedBytes (hsize : bs.length ≤ 32)
    (h : StandsAt region offset (bs ++ List.replicate (32 - bs.length) 0)) :
    decodeValue (.fixedBytes bs.length) region offset = .ok (.fixedBytes bs) := by
  have hlen : (bs ++ List.replicate (32 - bs.length) (0 : UInt8)).length = 32 := by
    rw [List.length_append, List.length_replicate]
    omega
  have hword := wordAt_of_standsAt h hlen
  simp only [decodeValue, hword, bind, Except.bind, List.drop_left, List.take_left]
  rw [if_pos (by simp)]
  rfl

theorem decodeValue_bytes {padding : Bytes}
    (h : StandsAt region offset (offsetWord bs.length ++ (bs ++ padding)))
    (hmax : bs.length < 256 ^ 32) : decodeValue .bytes region offset = .ok (.bytes bs) := by
  rw [decodeValue, bytesAt_of_standsAt h hmax]
  rfl

theorem decodeValue_string {s : String} {padding : Bytes}
    (h : StandsAt region offset
      (offsetWord (Utf8.bytes s).length ++ (Utf8.bytes s ++ padding)))
    (hmax : (Utf8.bytes s).length < 256 ^ 32) :
    decodeValue .string region offset = .ok (.string s) := by
  simp only [decodeValue, bytesAt_of_standsAt h hmax, bind, Except.bind, Utf8.read_bytes]
  rfl

/-! ## Heads -/

variable {slots : List Slot} {body : Bytes}

/-- **The next head.** The cap on heads is out of reach inside a region. -/
theorem nextHead_headStart (hbody : IsRegion (slots.map Slot.part) body)
    (hmax : body.length ≤ maxOffset) {i : Nat} (h : i < slots.length) :
    nextHead (headStart (slots.map Slot.part) i) slots[i].type =
      headStart (slots.map Slot.part) (i + 1) := by
  have hi : i < (slots.map Slot.part).length := by rwa [List.length_map]
  have hle := headStart_le hbody hi
  rw [headStart_succ hi, List.getElem_map] at hle ⊢
  exact Nat.min_eq_left (Nat.le_trans hle hmax)

/-- **A part is found through its head**: where it stands itself, or where the head points. -/
theorem startOf_of_isRegion (hbody : IsRegion (slots.map Slot.part) body)
    (hmax : body.length ≤ maxOffset) (rest : Bytes) {i : Nat} (h : i < slots.length) :
    ∃ start, startOf slots[i].type (body ++ rest) (headStart (slots.map Slot.part) i) = .ok start ∧
      StandsAt (body ++ rest) start slots[i].bytes := by
  have hi : i < (slots.map Slot.part).length := by rwa [List.length_map]
  have hpart : (slots.map Slot.part)[i] = slots[i].part := List.getElem_map Slot.part
  have hhead := hbody.head_at i hi
  have htail := hbody.tail_at i hi
  rw [hpart, headOf] at hhead
  rw [hpart] at htail
  -- a pointer is followed to the tail; a static part is its own head
  cases hdynamic : slots[i].type.isDynamic with
  | true =>
    rw [show slots[i].part.dynamic = true from hdynamic, if_pos rfl] at hhead
    have htail := htail hdynamic
    have hle := htail.le_length
    refine ⟨tailStart (slots.map Slot.part) i, ?_, htail.append_right rest⟩
    rw [startOf, hdynamic, if_pos rfl]
    refine offsetAt_of_standsAt (hhead.append_right rest) (lt_of_le_maxOffset (by omega)) ?_
    rw [List.length_append]
    omega
  | false =>
    rw [show slots[i].part.dynamic = false from hdynamic, if_neg Bool.false_ne_true] at hhead
    refine ⟨headStart (slots.map Slot.part) i, ?_, hhead.append_right rest⟩
    rw [startOf, hdynamic, if_neg Bool.false_ne_true]

/-- The heads of slots of one type are as long as the number of slots says. -/
theorem headStart_of_type_eq {element : AbiType} (htype : ∀ slot ∈ slots, slot.type = element) :
    headStart (slots.map Slot.part) slots.length = slots.length * element.headLength := by
  have hheads : (slots.map Slot.part).map Part.headLength =
      List.replicate slots.length element.headLength := by
    rw [List.map_map]
    apply List.map_eq_replicate_iff.mpr
    intro slot hslot
    rw [← htype slot hslot]
    rfl
  rw [headStart, List.take_of_length_le (by rw [List.length_map]), hheads, List.sum_replicate_nat]

/-- An array that takes up room has no more elements than its region has bytes. -/
theorem length_slots_le {element : AbiType} (htype : ∀ slot ∈ slots, slot.type = element)
    (hbody : IsRegion (slots.map Slot.part) body) (hroom : element.headLength ≠ 0) :
    slots.length ≤ body.length := by
  have hle := headStart_le hbody (i := slots.length) (by rw [List.length_map])
  rw [headStart_of_type_eq htype] at hle
  exact Nat.le_trans (Nat.le_mul_of_pos_right slots.length (Nat.pos_of_ne_zero hroom)) hle

/-- The check of the heads of an array passes on the region of its elements. -/
theorem ensureFits_of_isRegion {element : AbiType} (htype : ∀ slot ∈ slots, slot.type = element)
    (hbody : IsRegion (slots.map Slot.part) body) (rest : Bytes) :
    ensureFits element slots.length (body ++ rest) = .ok () := by
  have hle := headStart_le hbody (i := slots.length) (by rw [List.length_map])
  rw [headStart_of_type_eq htype] at hle
  rw [ensureFits, List.length_append]
  exact if_pos (by omega)

/-! ## Regions -/

/-- Elements are read as fields of one type are. -/
theorem readEach_eq_decodeFields (element : AbiType) (region : Bytes) (count head : Nat) :
    readEach element
        (fun head => do decodeValue element region (← startOf element region head)) count head =
      decodeFields (List.replicate count element) region head := by
  induction count generalizing head with
  | zero => rfl
  | succ count ih =>
    rw [readEach, List.replicate_succ, decodeFields, ih]
    cases startOf element region head with
    | error e => rfl
    | ok start =>
      simp only [bind, Except.bind]
      cases decodeValue element region start with
      | error e => rfl
      | ok value =>
        cases decodeFields (List.replicate count element) region (nextHead head element) <;> rfl

/-- A slot whose value the unpacker reads wherever its encoding stands. -/
def Slot.IsRead (slot : Slot) : Prop :=
  ∀ (region : Bytes) (offset : Nat), StandsAt region offset slot.bytes →
    decodeValue slot.type region offset = .ok slot.value

/-- **Fields.** The values of a region are read from any head on, if each of them is read where it
    stands. The induction is on the slots that are left. -/
theorem decodeFields_of_isRegion (hbody : IsRegion (slots.map Slot.part) body)
    (hmax : body.length ≤ maxOffset) (hread : ∀ slot ∈ slots, slot.IsRead) (rest : Bytes)
    {todo : List Slot} {i : Nat} (htodo : slots.drop i = todo) :
    decodeFields (todo.map Slot.type) (body ++ rest) (headStart (slots.map Slot.part) i) =
      .ok (todo.map Slot.value) := by
  induction todo generalizing i with
  | nil => rfl
  | cons slot todo ih =>
    have hi : i < slots.length := by
      by_contra hge
      rw [List.drop_eq_nil_of_le (by omega)] at htodo
      cases htodo
    rw [List.drop_eq_getElem_cons hi] at htodo
    obtain ⟨rfl, hbehind⟩ := List.cons.inj htodo
    obtain ⟨start, hstart, hstands⟩ := startOf_of_isRegion hbody hmax rest hi
    have hvalue := hread slots[i] (List.getElem_mem hi) (body ++ rest) start hstands
    -- the walk goes on at the next head, where the rest of the slots is read
    rw [List.map_cons, decodeFields, hstart, nextHead_headStart hbody hmax hi, ih hbehind]
    show (decodeValue slots[i].type (body ++ rest) start >>= fun value => _) = _
    rw [hvalue]
    rfl

/-- The elements of an array are read from the region that they fill. -/
theorem readEach_of_isRegion {element : AbiType} (htype : ∀ slot ∈ slots, slot.type = element)
    (hbody : IsRegion (slots.map Slot.part) body) (hmax : body.length ≤ maxOffset)
    (hread : ∀ slot ∈ slots, slot.IsRead) (rest : Bytes) :
    readEach element
        (fun head => do
          decodeValue element (body ++ rest) (← startOf element (body ++ rest) head))
        slots.length 0 =
      .ok (slots.map Slot.value) := by
  rw [readEach_eq_decodeFields, ← List.map_eq_replicate_iff.mpr htype]
  exact decodeFields_of_isRegion hbody hmax hread rest (i := 0) rfl

theorem decodeValue_array {element : AbiType} (htype : ∀ slot ∈ slots, slot.type = element)
    (hbody : IsRegion (slots.map Slot.part) body) (hmax : body.length ≤ maxOffset)
    (hread : ∀ slot ∈ slots, slot.IsRead) (hroom : element.headLength ≠ 0)
    (h : StandsAt region offset (offsetWord slots.length ++ body)) :
    decodeValue (.array element) region offset = .ok (.array (slots.map Slot.value)) := by
  -- the length is compared with all that is left of the data, so the elements have to take up room
  have hcount := length_slots_le htype hbody hroom
  have hword : StandsAt region offset (offsetWord slots.length) := by
    simpa using h.trans (standsAt_self _ body)
  have hbehind : StandsAt region (offset + 32) body := by
    simpa [offsetWord] using h.trans (standsAt_append (offsetWord slots.length) body)
  have hle := hbehind.le_length
  obtain ⟨rest, hrest⟩ := regionFrom_of_standsAt hbehind
  rw [decodeValue, offsetAt_of_standsAt hword (lt_of_le_maxOffset (by omega)) (by omega)]
  simp only [bind, Except.bind, hrest, ensureFits_of_isRegion htype hbody rest]
  have heach := readEach_of_isRegion htype hbody hmax hread rest
  simp only [bind, Except.bind] at heach
  rw [heach]
  rfl

theorem decodeValue_fixedArray {element : AbiType} (htype : ∀ slot ∈ slots, slot.type = element)
    (hbody : IsRegion (slots.map Slot.part) body) (hmax : body.length ≤ maxOffset)
    (hread : ∀ slot ∈ slots, slot.IsRead) (h : StandsAt region offset body) :
    decodeValue (.fixedArray element slots.length) region offset =
      .ok (.fixedArray (slots.map Slot.value)) := by
  obtain ⟨rest, hrest⟩ := regionFrom_of_standsAt h
  rw [decodeValue, hrest]
  simp only [bind, Except.bind, ensureFits_of_isRegion htype hbody rest]
  have heach := readEach_of_isRegion htype hbody hmax hread rest
  simp only [bind, Except.bind] at heach
  rw [heach]
  rfl

theorem decodeValue_tuple (hbody : IsRegion (slots.map Slot.part) body)
    (hmax : body.length ≤ maxOffset) (hread : ∀ slot ∈ slots, slot.IsRead)
    (h : StandsAt region offset body) :
    decodeValue (.tuple (slots.map Slot.type)) region offset =
      .ok (.tuple (slots.map Slot.value)) := by
  obtain ⟨rest, hrest⟩ := regionFrom_of_standsAt h
  have hfields := @decodeFields_of_isRegion slots body hbody hmax hread rest slots 0 rfl
  rw [show headStart (slots.map Slot.part) 0 = 0 from rfl] at hfields
  rw [decodeValue, hrest]
  simp only [bind, Except.bind, hfields]
  rfl

/-! ## Round trip -/

/-- A slot of a region is no longer than the region. -/
theorem length_bytes_le (hbody : IsRegion (slots.map Slot.part) body) {slot : Slot}
    (h : slot ∈ slots) : slot.bytes.length ≤ body.length := by
  have hpart : slot.part ∈ slots.map Slot.part := List.mem_map_of_mem h
  have hle := length_body_le hpart
  rwa [layout_eq, ← hbody.eq_heads_tails] at hle

/-- The slots of a region are read, if all are that are no longer than the region. -/
theorem isRead_of_isRegion (hbody : IsRegion (slots.map Slot.part) body)
    (hmax : body.length ≤ maxOffset) (hroom : ∀ slot ∈ slots, slot.type.ArraysTakeRoom)
    (hread : ∀ slot ∈ slots, slot.type.ArraysTakeRoom → slot.bytes.length ≤ maxOffset →
      slot.IsRead) :
    ∀ slot ∈ slots, slot.IsRead := by
  intro slot hslot
  have hle := length_bytes_le hbody hslot
  exact hread slot hslot (hroom slot hslot) (Nat.le_trans hle hmax)

/-- **One value.** Wherever the encoding of a value stands, the unpacker reads the value. The
    induction is on the encoding; what it says of the slots is what their region is read by. -/
theorem isRead_of_encodes {type : AbiType} {value : AbiValue} (h : Encodes type value bs)
    (hroom : type.ArraysTakeRoom) (hmax : bs.length ≤ maxOffset) :
    Slot.IsRead ⟨type, value, bs⟩ := by
  induction h with
  | address a => exact fun _ _ => decodeValue_address
  | uint hn => exact fun _ _ => decodeValue_uint hn
  | @int bits i hi =>
    intro region offset hstands
    rw [← SignedWord.toNat_toWord, Int.toNat_natCast] at hstands
    exact decodeValue_int hi hstands
  | bool b => exact fun _ _ => decodeValue_bool
  | fixedBytes hsize hlen =>
    subst hlen
    exact fun _ _ => decodeValue_fixedBytes hsize
  | bytes hpad =>
    intro region offset hstands
    rw [List.length_append, List.length_append] at hmax
    exact decodeValue_bytes hstands (lt_of_le_maxOffset (by omega))
  | string hpad =>
    intro region offset hstands
    rw [List.length_append, List.length_append] at hmax
    exact decodeValue_string hstands (lt_of_le_maxOffset (by omega))
  | @array element slots body htype _ hbody ih =>
    rw [List.length_append] at hmax
    obtain ⟨hempty, helement⟩ := hroom.of_array
    have hrooms : ∀ slot ∈ slots, slot.type.ArraysTakeRoom :=
      fun slot hslot => htype slot hslot ▸ helement
    have hread := isRead_of_isRegion hbody (by omega) hrooms ih
    exact fun _ _ => decodeValue_array htype hbody (by omega) hread hempty
  | @fixedArray element slots body htype _ hbody ih =>
    have hrooms : ∀ slot ∈ slots, slot.type.ArraysTakeRoom :=
      fun slot hslot => htype slot hslot ▸ hroom.of_fixedArray
    have hread := isRead_of_isRegion hbody hmax hrooms ih
    exact fun _ _ => decodeValue_fixedArray htype hbody hmax hread
  | @tuple slots body _ hbody ih =>
    have hrooms : ∀ slot ∈ slots, slot.type.ArraysTakeRoom :=
      fun slot hslot => hroom.of_tuple _ (List.mem_map_of_mem hslot)
    have hread := isRead_of_isRegion hbody hmax hrooms ih
    exact fun _ _ => decodeValue_tuple hbody hmax hread

/-- Packed data is unpacked, whatever stands behind it, as long as the cap on offsets is out of
    reach. -/
theorem decode_packed_append {types : List AbiType} {values : List AbiValue} {data : Bytes}
    (hwf : ∀ type ∈ types, type.WellFormed) (hroom : ∀ type ∈ types, type.ArraysTakeRoom)
    (h : encode types values = .ok data) (hmax : data.length ≤ maxOffset) (junk : Bytes) :
    decode types (data ++ junk) = .ok values := by
  obtain ⟨slots, rfl, rfl, hslots, hdata⟩ := encodesAll_of_encode hwf h hmax
  have hrooms : ∀ slot ∈ slots, slot.type.ArraysTakeRoom :=
    fun slot hslot => hroom _ (List.mem_map_of_mem hslot)
  have hread := isRead_of_isRegion hdata hmax hrooms
    fun slot hslot => isRead_of_encodes (hslots slot hslot)
  exact decodeFields_of_isRegion hdata hmax hread junk (i := 0) rfl

/-- **Round trip.** The values of types with names come back from their packed data, whatever stands
    behind the data, unless an array has elements that take up no room. -/
theorem decode_encode_append {types : List AbiType} {values : List AbiValue} {data : Bytes}
    (hnamed : ∀ type ∈ types, type.IsNamed) (hroom : ∀ type ∈ types, type.ArraysTakeRoom)
    (h : encode types values = .ok data) (hlen : data.length < 2 ^ 63) (junk : Bytes) :
    decode types (data ++ junk) = .ok values := by
  -- a bound of 63 bits leaves the cap on offsets out of reach
  have hmax : data.length ≤ maxOffset := Nat.le_trans (Nat.le_of_lt hlen) (by decide)
  have hwf := fun type htype => AbiType.wellFormed_of_isNamed (hnamed type htype)
  exact decode_packed_append hwf hroom h hmax junk

/-- An array of tuples with a dynamic field. -/
theorem decode_encode_append_records :
    ∃ data, encode [.array (.tuple [.string, .uint 8])]
        [.array [.tuple [.string "ab", .uint 7], .tuple [.string "", .uint 255]]] = .ok data ∧
      data.length < 2 ^ 63 ∧
      ∀ junk, decode [.array (.tuple [.string, .uint 8])] (data ++ junk) =
        .ok [.array [.tuple [.string "ab", .uint 7], .tuple [.string "", .uint 255]]] := by
  have hnamed : ∀ type ∈ [.array (.tuple [.string, .uint 8])], AbiType.IsNamed type := by
    intro type htype
    rw [List.mem_singleton.mp htype]
    exact AbiType.isNamed_records
  have hroom : ∀ type ∈ [.array (.tuple [.string, .uint 8])], AbiType.ArraysTakeRoom type := by
    intro type htype
    rw [List.mem_singleton.mp htype]
    refine .array (by decide) (.tuple ?_)
    intro field hfield
    rcases List.mem_pair.mp hfield with rfl | rfl
    · exact .string
    · exact .uint 8
  have h : encode [.array (.tuple [.string, .uint 8])]
      [.array [.tuple [.string "ab", .uint 7], .tuple [.string "", .uint 255]]] = .ok _ := rfl
  have hlen : (layout (partsOfFields [.array (.tuple [.string, .uint 8])]
      [.array [.tuple [.string "ab", .uint 7], .tuple [.string "", .uint 255]]])).length
        < 2 ^ 63 := by
    decide +kernel
  exact ⟨_, h, hlen, decode_encode_append hnamed hroom h hlen⟩

end Abi

end ChainClient
