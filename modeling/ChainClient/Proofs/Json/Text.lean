import ChainClient.Json.Reader
import ChainClient.Proofs.Json.Number
import ChainClient.Proofs.Word

/-!
# `ChainClient.Proofs.Json.Text` — JSON texts, written and read back

The writer puts no blanks between tokens, and behind every value stands a mark that the reader stops
at. So the reader takes the text of a value apart at the places where the writer joined it.

## Contents
- **Values.** `reads_value_iff` says what decides on the form of a value, and there is a law for
  each form.
- **Lists.** `listBehind` is what follows the first element of an array, or the first member of an
  object; `Reads.elements_iff` and `ReadsMember.members_iff` tie it to the readers of both.
- **Round trip.** `Json.Writable` are the values whose numbers are written as they are read.
  `Json.parse_render` reads them back; `Json.ofText_render` puts a reader behind.
- **Scalars.** Readers of numbers and amounts, on the decimal digits of a number.
-/

namespace ChainClient

namespace JsonSource

variable {α : Type}

/-! ## Values -/

theorem skipBlanks_cons {b : UInt8} (h : isBlank b = false) (bs : Bytes) :
    skipBlanks (b :: bs) = b :: bs :=
  List.dropWhile_cons_of_neg (by simp [h])

/-- What was read and what is left, without the proof that a reading carries. -/
def parts {bs : Bytes} (r : Reading α bs) : α × Bytes := (r.value, r.rest)

theorem reads_iff_parts {read : (bs : Bytes) → Option (Reading α bs)} {bs rest : Bytes}
    {value : α} : Reads read bs value rest ↔ (read bs).map parts = some (value, rest) := by
  rw [Option.map_eq_some_iff]
  constructor
  · rintro ⟨hlt, hread⟩
    exact ⟨_, hread, rfl⟩
  · rintro ⟨⟨v, r, hlt⟩, hread, hparts⟩
    cases hparts
    exact ⟨hlt, hread⟩

theorem map_parts_extend {β : Type} {bs cs : Bytes} (reading? : Option (Reading α bs)) (f : α → β)
    (h : bs.length ≤ cs.length) :
    (reading?.map fun r => (r.extend f h : Reading β cs)).map parts =
      (reading?.map parts).map (Prod.map f id) := by
  rw [Option.map_map, Option.map_map]
  rfl

section

variable {β : Type} {closing : UInt8} {read : (bs : Bytes) → Option (Reading (List β) bs)}
  {make : List β → JsonSource} {tail behind : Bytes}

/-- What follows the mark that opens an array or object: the mark that closes it, or its inside. -/
def insideBehind (closing : UInt8) (read : (bs : Bytes) → Option (Reading (List β) bs))
    (make : List β → JsonSource) (tail : Bytes) : Option (JsonSource × Bytes) :=
  if (skipBlanks tail).head? = some closing then some (make [], (skipBlanks tail).tail)
  else ((read tail).map parts).map (Prod.map make id)

theorem insideBehind_closing (hs : skipBlanks tail = closing :: behind) :
    insideBehind closing read make tail = some (make [], behind) := by
  rw [insideBehind, hs]
  exact if_pos rfl

theorem insideBehind_other (hs : ∀ behind, skipBlanks tail ≠ closing :: behind) :
    insideBehind closing read make tail = ((read tail).map parts).map (Prod.map make id) := by
  refine if_neg fun hhead => ?_
  obtain ⟨behind, hbehind⟩ := List.head?_eq_some_iff.mp hhead
  exact hs behind hbehind

end

/-- The value whose first byte is given. -/
def valueAt (b : UInt8) (tail : Bytes) : Option (JsonSource × Bytes) :=
  if b = 0x7B then insideBehind 0x7D readMembers .object tail
  else if b = 0x5B then insideBehind 0x5D readElements .array tail
  else if b = 0x22 then ((readString tail).map parts).map (Prod.map .string id)
  else if b = 0x6E then ((readWord "null" (b :: tail)).map parts).map (Prod.map (fun _ => .null) id)
  else if b = 0x74 then
    ((readWord "true" (b :: tail)).map parts).map (Prod.map (fun _ => .bool true) id)
  else if b = 0x66 then
    ((readWord "false" (b :: tail)).map parts).map (Prod.map (fun _ => .bool false) id)
  else ((readNumber (b :: tail)).map parts).map (Prod.map .number id)

/-- The first byte that is no blank decides on the form of a value. -/
theorem reads_value_iff_of_skipBlanks {bs : Bytes} {b : UInt8} {tail rest : Bytes}
    (h : skipBlanks bs = b :: tail) {value : JsonSource} :
    Reads readValue bs value rest ↔ valueAt b tail = some (value, rest) := by
  rw [reads_iff_parts]
  refine Eq.congr_left ?_
  -- the reader carries a proof in every branch that it got on; without them the branches agree
  rw [readValue]
  split
  · next hs =>
    rw [h] at hs
    cases hs
  · next hs =>
    rw [h] at hs
    cases hs
    simp only [valueAt]
    by_cases hbrace : b = 0x7B
    · rw [if_pos hbrace, if_pos hbrace]
      split
      · next hs =>
        rw [insideBehind_closing hs]
        rfl
      · next hopen =>
        rw [insideBehind_other hopen]
        exact map_parts_extend ..
    rw [if_neg hbrace, if_neg hbrace]
    by_cases hbracket : b = 0x5B
    · rw [if_pos hbracket, if_pos hbracket]
      split
      · next hs =>
        rw [insideBehind_closing hs]
        rfl
      · next hopen =>
        rw [insideBehind_other hopen]
        exact map_parts_extend ..
    rw [if_neg hbracket, if_neg hbracket]
    split
    · exact map_parts_extend ..
    split
    · exact map_parts_extend ..
    split
    · exact map_parts_extend ..
    split
    · exact map_parts_extend ..
    · exact map_parts_extend ..

theorem reads_value_iff {b : UInt8} (h : isBlank b = false) {tail rest : Bytes}
    {value : JsonSource} :
    Reads readValue (b :: tail) value rest ↔ valueAt b tail = some (value, rest) :=
  reads_value_iff_of_skipBlanks (skipBlanks_cons h tail)

/-- A reader of one kind of value, whose first byte decides on it. -/
theorem Reads.map_parts {β : Type} {read : (bs : Bytes) → Option (Reading α bs)} {bs rest : Bytes}
    {value : α} (h : Reads read bs value rest) (f : α → β) :
    ((read bs).map parts).map (Prod.map f id) = some (f value, rest) := by
  rw [reads_iff_parts.mp h]
  rfl

theorem Reads.string_value {bs rest : Bytes} {text? : Option String}
    (h : Reads readString bs text? rest) : Reads readValue (0x22 :: bs) (.string text?) rest :=
  (reads_value_iff rfl).mpr (h.map_parts JsonSource.string)

theorem Reads.number_value {bs rest : Bytes} {text : String}
    (h : Reads readNumber bs text rest) : Reads readValue bs (.number text) rest := by
  obtain ⟨number, hsplit, -, -⟩ := reads_number_iff.mp h
  obtain ⟨b, tail, rfl, hb⟩ := head_of_splitNumber hsplit
  have hne : ∀ c : UInt8, ¬ (c = 0x2D ∨ isDigit c = true) → b ≠ c := by
    rintro c hc rfl
    exact hc hb
  have hblank : isBlank b = false := by
    simp only [isBlank, Bool.or_eq_false_iff, beq_eq_false_iff_ne]
    exact ⟨⟨⟨hne _ (by decide), hne _ (by decide)⟩, hne _ (by decide)⟩, hne _ (by decide)⟩
  rw [reads_value_iff hblank, valueAt, if_neg (hne _ (by decide)), if_neg (hne _ (by decide)),
    if_neg (hne _ (by decide)), if_neg (hne _ (by decide)), if_neg (hne _ (by decide)),
    if_neg (hne _ (by decide))]
  exact h.map_parts JsonSource.number

theorem reads_word (word : String) (hword : Utf8.bytes word ≠ []) (rest : Bytes) :
    Reads (readWord word) (Utf8.bytes word ++ rest) () rest := by
  have hlt : rest.length < (Utf8.bytes word ++ rest).length := by
    rw [List.length_append]
    exact Nat.lt_add_of_pos_left (List.length_pos_iff.mpr hword)
  have hprefix : (Utf8.bytes word).isPrefixOf? (Utf8.bytes word ++ rest) = some rest :=
    List.isPrefixOf?_eq_some_iff_append_eq.mpr rfl
  refine ⟨hlt, ?_⟩
  rw [readWord, hprefix]
  exact dif_pos hlt

theorem reads_null (rest : Bytes) :
    Reads readValue (0x6E :: 0x75 :: 0x6C :: 0x6C :: rest) .null rest :=
  (reads_value_iff rfl).mpr
    ((reads_word "null" (by decide) rest).map_parts fun _ => JsonSource.null)

theorem reads_true (rest : Bytes) :
    Reads readValue (0x74 :: 0x72 :: 0x75 :: 0x65 :: rest) (.bool true) rest :=
  (reads_value_iff rfl).mpr
    ((reads_word "true" (by decide) rest).map_parts fun _ => JsonSource.bool true)

theorem reads_false (rest : Bytes) :
    Reads readValue (0x66 :: 0x61 :: 0x6C :: 0x73 :: 0x65 :: rest) (.bool false) rest :=
  (reads_value_iff rfl).mpr
    ((reads_word "false" (by decide) rest).map_parts fun _ => JsonSource.bool false)

theorem reads_array_nil (rest : Bytes) :
    Reads readValue (0x5B :: 0x5D :: rest) (.array []) rest :=
  (reads_value_iff rfl).mpr rfl

theorem reads_object_nil (rest : Bytes) :
    Reads readValue (0x7B :: 0x7D :: rest) (.object []) rest :=
  (reads_value_iff rfl).mpr rfl

/-- No value starts with a closing bracket. -/
theorem not_reads_bracket {bs behind rest : Bytes} (hs : skipBlanks bs = 0x5D :: behind)
    (value : JsonSource) : ¬ Reads readValue bs value rest := by
  rintro ⟨hlt, hread⟩
  rw [readValue] at hread
  split at hread
  · next hnil =>
    rw [hs] at hnil
    cases hnil
  · next hcons =>
    rw [hs] at hcons
    cases hcons
    cases hread

/-! ## Lists -/

/-- What follows the first element of an array, or the first member of an object: a comma and the
    others, or the closing mark. -/
def listBehind {β : Type} (closing : UInt8) (read : (bs : Bytes) → Option (Reading (List β) bs))
    (first : β) (behind : Bytes) : Option (List β × Bytes) :=
  match skipBlanks behind with
  | [] => none
  | b :: next =>
    if b = 0x2C then ((read next).map parts).map (Prod.map (first :: ·) id)
    else if b = closing then some ([first], next)
    else none

section

variable {β : Type} {closing : UInt8} {read : (bs : Bytes) → Option (Reading (List β) bs)}
  {first : β} {behind next : Bytes}

theorem listBehind_comma (hs : skipBlanks behind = 0x2C :: next) :
    listBehind closing read first behind =
      ((read next).map parts).map (Prod.map (first :: ·) id) := by
  rw [listBehind, hs]
  exact if_pos rfl

theorem listBehind_closing (hs : skipBlanks behind = closing :: next) (hne : closing ≠ 0x2C) :
    listBehind closing read first behind = some ([first], next) := by
  rw [listBehind, hs]
  exact (if_neg hne).trans (if_pos rfl)

theorem listBehind_none (hcomma : ∀ next, skipBlanks behind ≠ 0x2C :: next)
    (hclosing : ∀ next, skipBlanks behind ≠ closing :: next) :
    listBehind closing read first behind = none := by
  unfold listBehind
  split
  · rfl
  · next b next hs =>
    rw [if_neg, if_neg]
    · rintro rfl
      exact hclosing next hs
    · rintro rfl
      exact hcomma next hs

end

/-- **Elements.** The value in front is the first element. -/
theorem Reads.elements_iff {bs behind rest : Bytes} {first : JsonSource} {values : List JsonSource}
    (h : Reads readValue bs first behind) :
    Reads readElements bs values rest ↔
      listBehind 0x5D readElements first behind = some (values, rest) := by
  obtain ⟨hlt, hread⟩ := h
  rw [reads_iff_parts]
  refine Eq.congr_left ?_
  rw [readElements, hread]
  simp only
  split
  · next hs =>
    rw [listBehind_comma hs]
    exact map_parts_extend ..
  · next hs =>
    rw [listBehind_closing hs (by decide)]
    rfl
  · next hcomma hclosing => exact (listBehind_none hcomma hclosing).symm

/-- An array that has elements does not start with its closing bracket: no value does. -/
theorem Reads.array {bs rest : Bytes} {values : List JsonSource}
    (h : Reads readElements bs values rest) :
    Reads readValue (0x5B :: bs) (.array values) rest := by
  have hopen : ∀ behind, skipBlanks bs ≠ 0x5D :: behind := by
    intro behind hs
    obtain ⟨hlt, hread⟩ := h
    rw [readElements] at hread
    split at hread
    · cases hread
    · next first hfirst => exact not_reads_bracket hs first.value ⟨first.shorter, hfirst⟩
  rw [reads_value_iff rfl, valueAt, if_neg (by decide), if_pos rfl, insideBehind_other hopen]
  exact h.map_parts JsonSource.array

/-- The key and the value of a member. -/
def ReadsMember (bs : Bytes) (key : Option String) (value : JsonSource) (behind : Bytes) : Prop :=
  ∃ inside after start, skipBlanks bs = 0x22 :: inside ∧ Reads readString inside key after ∧
    skipBlanks after = 0x3A :: start ∧ Reads readValue start value behind

/-- **Members.** The member in front is the first one. -/
theorem ReadsMember.members_iff {bs behind rest : Bytes} {key : Option String} {value : JsonSource}
    {members : List (Option String × JsonSource)} (h : ReadsMember bs key value behind) :
    Reads readMembers bs members rest ↔
      listBehind 0x7D readMembers (key, value) behind = some (members, rest) := by
  obtain ⟨inside, after, start, hquote, ⟨hlt, hkey⟩, hcolon, ⟨hlt', hvalue⟩⟩ := h
  rw [reads_iff_parts]
  refine Eq.congr_left ?_
  rw [readMembers]
  split
  · next hs =>
    rw [hquote] at hs
    cases hs
    rw [hkey]
    simp only
    split
    · next hc =>
      rw [hcolon] at hc
      cases hc
      rw [hvalue]
      simp only
      split
      · next hs =>
        rw [listBehind_comma hs]
        exact map_parts_extend ..
      · next hs =>
        rw [listBehind_closing hs (by decide)]
        rfl
      · next hcomma hclosing => exact (listBehind_none hcomma hclosing).symm
    · next hnone => exact absurd hcolon (hnone start)
  · next hnone => exact absurd hquote (hnone inside)

/-- An object that has members starts with the quote of a key. -/
theorem Reads.object {bs rest : Bytes} {members : List (Option String × JsonSource)}
    (h : Reads readMembers bs members rest) :
    Reads readValue (0x7B :: bs) (.object members) rest := by
  have hopen : ∀ behind, skipBlanks bs ≠ 0x7D :: behind := by
    intro behind hs
    obtain ⟨hlt, hread⟩ := h
    rw [readMembers] at hread
    split at hread
    · next hquote =>
      rw [hs] at hquote
      cases hquote
    · cases hread
  rw [reads_value_iff rfl, valueAt, if_pos rfl, insideBehind_other hopen]
  exact h.map_parts JsonSource.object

end JsonSource

/-! ## Round trip -/

namespace Json

/-- Values whose numbers are written as the reader keeps them. -/
inductive Writable : Json → Prop where
  | null : Writable .null
  | bool (b : Bool) : Writable (.bool b)
  | number {text : String} (h : JsonSource.numberOf? text = some text) : Writable (.number text)
  | string (s : String) : Writable (.string s)
  | array {elements : List Json} (h : ∀ value ∈ elements, Writable value) :
      Writable (.array elements)
  | object {members : List (String × Json)} (h : ∀ member ∈ members, Writable member.2) :
      Writable (.object members)

/-- Whether a value is read back from its text, whatever stands behind it. -/
def IsReadBack (value : Json) : Prop :=
  ∀ rest, JsonSource.EndsNumber rest → JsonSource.Reads JsonSource.readValue
    (Utf8.encode value.chars ++ rest) (JsonReader.sourceOf value) rest

theorem encode_comma (front back : List Char) :
    Utf8.encode (front ++ ',' :: back) = Utf8.encode front ++ 0x2C :: Utf8.encode back :=
  Utf8.encode_append front (',' :: back)

theorem reads_elements {elements : List Json} (hne : elements ≠ [])
    (h : ∀ value ∈ elements, value.IsReadBack) (rest : Bytes) :
    JsonSource.Reads JsonSource.readElements
      (Utf8.encode (elementChars elements) ++ 0x5D :: rest) (JsonReader.sourcesOf elements)
      rest := by
  induction elements with
  | nil => exact absurd rfl hne
  | cons value elements ih =>
    have hvalue := h value List.mem_cons_self
    cases elements with
    | nil =>
      have hend : JsonSource.EndsNumber (0x5D :: rest) := JsonSource.endsNumber_cons (by decide)
      exact (hvalue _ hend).elements_iff.mpr rfl
    | cons other elements =>
      have hothers := ih (List.cons_ne_nil _ _) fun v hv => h v (List.mem_cons_of_mem value hv)
      have hend : JsonSource.EndsNumber
          (0x2C :: (Utf8.encode (elementChars (other :: elements)) ++ 0x5D :: rest)) :=
        JsonSource.endsNumber_cons (by decide)
      rw [show elementChars (value :: other :: elements) =
        value.chars ++ ',' :: elementChars (other :: elements) from rfl, encode_comma,
        List.append_assoc]
      exact (hvalue _ hend).elements_iff.mpr
        (hothers.map_parts (JsonReader.sourceOf value :: ·))

theorem IsReadBack.readsMember {value : Json} (h : value.IsReadBack) (key : String)
    {behind : Bytes} (hbehind : JsonSource.EndsNumber behind) :
    JsonSource.ReadsMember (Utf8.encode (renderString key ++ ':' :: value.chars) ++ behind)
      (some key) (JsonReader.sourceOf value) behind := by
  have hbytes : Utf8.encode (renderString key ++ ':' :: value.chars) ++ behind =
      0x22 :: (JsonSource.stringBytes key ++ 0x3A :: (Utf8.encode value.chars ++ behind)) := by
    rw [Utf8.encode_append, JsonSource.encode_renderString]
    exact List.append_assoc ..
  rw [hbytes]
  exact ⟨_, _, _, rfl, JsonSource.reads_stringBytes key _, rfl, h behind hbehind⟩

theorem reads_members {members : List (String × Json)} (hne : members ≠ [])
    (h : ∀ member ∈ members, member.2.IsReadBack) (rest : Bytes) :
    JsonSource.Reads JsonSource.readMembers
      (Utf8.encode (memberChars members) ++ 0x7D :: rest) (JsonReader.memberSourcesOf members)
      rest := by
  induction members with
  | nil => exact absurd rfl hne
  | cons member members ih =>
    obtain ⟨key, value⟩ := member
    have hvalue := h (key, value) List.mem_cons_self
    cases members with
    | nil =>
      have hend : JsonSource.EndsNumber (0x7D :: rest) := JsonSource.endsNumber_cons (by decide)
      exact (hvalue.readsMember key hend).members_iff.mpr rfl
    | cons other members =>
      have hothers := ih (List.cons_ne_nil _ _) fun m hm => h m (List.mem_cons_of_mem _ hm)
      have hend : JsonSource.EndsNumber
          (0x2C :: (Utf8.encode (memberChars (other :: members)) ++ 0x7D :: rest)) :=
        JsonSource.endsNumber_cons (by decide)
      rw [show memberChars ((key, value) :: other :: members) =
        renderString key ++ ':' :: value.chars ++ ',' :: memberChars (other :: members) from rfl,
        encode_comma, List.append_assoc]
      exact (hvalue.readsMember key hend).members_iff.mpr
        (hothers.map_parts ((some key, JsonReader.sourceOf value) :: ·))

theorem encode_brackets (opening closing : Char) (cs : List Char) :
    Utf8.encode (opening :: cs ++ [closing]) =
      String.utf8EncodeChar opening ++ Utf8.encode cs ++ String.utf8EncodeChar closing := by
  rw [Utf8.encode_append, Utf8.encode_cons]
  simp [Utf8.encode]

/-- **Values are read back** from their texts. -/
theorem Writable.isReadBack {value : Json} (h : value.Writable) : value.IsReadBack := by
  induction h with
  | null => exact fun rest _ => JsonSource.reads_null rest
  | bool b =>
    intro rest _
    cases b with
    | true => exact JsonSource.reads_true rest
    | false => exact JsonSource.reads_false rest
  | number h =>
    intro rest hrest
    exact ((JsonSource.numberOf?_eq_some_iff.mp h).number_append hrest).number_value
  | string s =>
    intro rest _
    show JsonSource.Reads _ (Utf8.encode (renderString s) ++ rest) _ _
    rw [JsonSource.encode_renderString]
    exact (JsonSource.reads_stringBytes s rest).string_value
  | @array elements _ ih =>
    intro rest _
    -- an array without elements has no text inside that a reader of elements would take
    by_cases hne : elements = []
    · subst hne
      exact JsonSource.reads_array_nil rest
    · show JsonSource.Reads _ (Utf8.encode ('[' :: elementChars elements ++ [']']) ++ rest) _ _
      rw [encode_brackets, List.append_assoc, List.append_assoc]
      exact (reads_elements hne ih rest).array
  | @object members _ ih =>
    intro rest _
    by_cases hne : members = []
    · subst hne
      exact JsonSource.reads_object_nil rest
    · show JsonSource.Reads _ (Utf8.encode ('{' :: memberChars members ++ ['}']) ++ rest) _ _
      rw [encode_brackets, List.append_assoc, List.append_assoc]
      exact (reads_members hne ih rest).object

theorem Writable.reads_render {value : Json} (h : value.Writable) :
    JsonSource.Reads JsonSource.readValue (Utf8.bytes value.render) (JsonReader.sourceOf value)
      [] := by
  have hwhole := h.isReadBack [] JsonSource.endsNumber_nil
  rw [List.append_nil] at hwhole
  rw [Utf8.bytes, render, String.toList_ofList]
  exact hwhole

theorem Writable.bytes_render_ne_nil {value : Json} (h : value.Writable) :
    Utf8.bytes value.render ≠ [] := by
  obtain ⟨hlt, -⟩ := h.reads_render
  exact List.ne_nil_of_length_pos hlt

/-- **Round trip.** The tree of a text is the tree of the value that it was written for. -/
theorem parse_render {value : Json} (h : value.Writable) :
    JsonSource.parse (Utf8.bytes value.render) = some (JsonReader.sourceOf value) := by
  obtain ⟨hlt, hread⟩ := h.reads_render
  rw [JsonSource.parse, hread]
  exact if_pos rfl

/-- A reader of texts sees the tree of the value that was written. -/
theorem ofText_render {α : Type} {value : Json} (h : value.Writable) (read : JsonReader α) :
    JsonReader.ofText read (Utf8.bytes value.render) = read .text (JsonReader.sourceOf value) := by
  rw [JsonReader.ofText, parse_render h]
  rfl

theorem writable_ofNat (n : Nat) : (ofNat n).Writable := .number (JsonSource.numberOf?_repr n)

end Json

/-! ## Scalars -/

namespace JsonReader

theorem natural_repr {bound n : Nat} (h : n < bound) (place : Place) :
    natural bound place (.number n.repr) = some n := by
  rw [natural, Nat.toList_repr, Numeral.readNat?_toDigits]
  exact if_pos (decide_eq_true h)

theorem uint8_repr (n : UInt8) (place : Place) : uint8 place (.number n.toNat.repr) = some n := by
  rw [uint8, natural_repr (show n.toNat < bitBound 8 from n.toNat_lt)]
  exact congrArg some (UInt8.ofNat_toNat)

theorem uint64_repr (n : UInt64) (place : Place) :
    uint64 place (.number n.toNat.repr) = some n := by
  rw [uint64, natural_repr (show n.toNat < bitBound 64 from n.toNat_lt)]
  exact congrArg some (UInt64.ofNat_toNat)

/-- An amount in a text. In memory its digits might be rewritten. -/
theorem word_repr (w : Word) {place : Place} (h : place.inMemory = false) :
    word place (.number w.toNat.repr) = some w := by
  have htext : place.numberText w.toNat.repr = w.text := by simp [Place.numberText, h, Word.text]
  show (Word.parse (place.numberText w.toNat.repr)).toOption = some w
  rw [htext, Word.parse_eq_ok_iff.mpr (Word.isSpelling_text w)]
  rfl

end JsonReader

end ChainClient
