import ChainClient.Proofs.Json.Text

/-!
# `ChainClient.Proofs.Json.Tree` — what the tree of a text looks like

The reader keeps the numbers of a text in one form, in which they are read back as they are. So the
trees that come out of texts are not all trees: their numbers are kept ones, at every depth.

## Contents
- **Trees.** `JsonSource.Kept` are the trees whose numbers are kept ones.
- **Steps.** `Reads.first_element`, `Reads.first_member` and `eq_or_of_listBehind` take a list of
  elements or members apart.
- **Texts.** `kept_of_parse`, by induction on the length of what is left to read.
-/

namespace ChainClient

namespace JsonSource

/-! ## Trees -/

/-- **Kept trees.** Every number is in the form in which numbers are kept. -/
inductive Kept : JsonSource → Prop where
  | null : Kept .null
  | bool (b : Bool) : Kept (.bool b)
  | number {text : String} (h : numberOf? text = some text) : Kept (.number text)
  | string (text? : Option String) : Kept (.string text?)
  | array {elements : List JsonSource} (h : ∀ source ∈ elements, Kept source) :
      Kept (.array elements)
  | object {members : List (Option String × JsonSource)} (h : ∀ member ∈ members, Kept member.2) :
      Kept (.object members)

/-! ## Steps -/

/-- A value starts with a byte that is no blank. -/
theorem Reads.first_byte {bs rest : Bytes} {value : JsonSource}
    (h : Reads readValue bs value rest) :
    ∃ b tail, skipBlanks bs = b :: tail ∧ valueAt b tail = some (value, rest) := by
  cases hs : skipBlanks bs with
  | nil =>
    obtain ⟨hlt, hread⟩ := h
    rw [readValue] at hread
    split at hread
    · cases hread
    · next hcons =>
      rw [hs] at hcons
      cases hcons
  | cons b tail => exact ⟨b, tail, rfl, (reads_value_iff_of_skipBlanks hs).mp h⟩

/-- Elements start with a value. -/
theorem Reads.first_element {bs rest : Bytes} {values : List JsonSource}
    (h : Reads readElements bs values rest) : ∃ first behind, Reads readValue bs first behind ∧
      listBehind 0x5D readElements first behind = some (values, rest) := by
  obtain ⟨hlt, hread⟩ := id h
  cases hvalue : readValue bs with
  | none =>
    rw [readElements, hvalue] at hread
    cases hread
  | some first =>
    have hfirst : Reads readValue bs first.value first.rest := ⟨first.shorter, hvalue⟩
    exact ⟨_, _, hfirst, hfirst.elements_iff.mp h⟩

/-- Members start with a key and a value. -/
theorem Reads.first_member {bs rest : Bytes} {members : List (Option String × JsonSource)}
    (h : Reads readMembers bs members rest) :
    ∃ key value behind, ReadsMember bs key value behind ∧
      listBehind 0x7D readMembers (key, value) behind = some (members, rest) := by
  obtain ⟨hlt, hread⟩ := id h
  rw [readMembers] at hread
  split at hread
  · next inside hquote =>
    split at hread
    · cases hread
    · next key hkey =>
      split at hread
      · next start hcolon =>
        simp only at hread
        split at hread
        · cases hread
        · next first hvalue =>
          have hmember : ReadsMember bs key.value first.value first.rest :=
            ⟨inside, key.rest, start, hquote, ⟨key.shorter, hkey⟩, hcolon, first.shorter, hvalue⟩
          exact ⟨_, _, _, hmember, hmember.members_iff.mp h⟩
      · cases hread
  · cases hread

theorem skipBlanks_shorter {bs tail : Bytes} {b : UInt8} (h : skipBlanks bs = b :: tail) :
    tail.length < bs.length := by
  have hle := length_skipBlanks_le bs
  rw [h, List.length_cons] at hle
  exact hle

theorem ReadsMember.shorter {bs behind : Bytes} {key : Option String} {value : JsonSource}
    (h : ReadsMember bs key value behind) :
    ∃ start, start.length < bs.length ∧ Reads readValue start value behind := by
  obtain ⟨inside, after, start, hquote, ⟨hkey, -⟩, hcolon, hvalue⟩ := h
  have h1 := skipBlanks_shorter hquote
  have h2 := skipBlanks_shorter hcolon
  exact ⟨start, by omega, hvalue⟩

theorem exists_reads_of_map {α β : Type} {read : (bs : Bytes) → Option (Reading α bs)}
    {bs rest : Bytes} {f : α → β} {b : β}
    (h : ((read bs).map parts).map (Prod.map f id) = some (b, rest)) :
    ∃ a, Reads read bs a rest ∧ b = f a := by
  obtain ⟨⟨a, r⟩, hread, heq⟩ := Option.map_eq_some_iff.mp h
  cases heq
  exact ⟨a, reads_iff_parts.mpr hread, rfl⟩

/-- Behind the first of a list stands nothing more, or the others. -/
theorem eq_or_of_listBehind {β : Type} {closing : UInt8}
    {read : (bs : Bytes) → Option (Reading (List β) bs)} {first : β} {behind rest : Bytes}
    {values : List β} (h : listBehind closing read first behind = some (values, rest)) :
    values = [first] ∨ ∃ next others, next.length < behind.length ∧ Reads read next others rest ∧
      values = first :: others := by
  unfold listBehind at h
  split at h
  · cases h
  · next b next hs =>
    split at h
    · obtain ⟨others, hothers, rfl⟩ := exists_reads_of_map h
      exact .inr ⟨next, others, skipBlanks_shorter hs, hothers, rfl⟩
    · split at h
      · cases h
        exact .inl rfl
      · cases h

theorem eq_or_of_insideBehind {β : Type} {closing : UInt8}
    {read : (bs : Bytes) → Option (Reading (List β) bs)} {make : List β → JsonSource}
    {tail rest : Bytes} {value : JsonSource}
    (h : insideBehind closing read make tail = some (value, rest)) :
    value = make [] ∨ ∃ values, Reads read tail values rest ∧ value = make values := by
  unfold insideBehind at h
  split at h
  · cases h
    exact .inl rfl
  · exact .inr (exists_reads_of_map h)

/-! ## Texts -/

/-- Whether all that may be read from the front of a byte string is kept. -/
structure ReadsKept (bs : Bytes) : Prop where
  value : ∀ {source rest}, Reads readValue bs source rest → source.Kept
  elements : ∀ {sources rest}, Reads readElements bs sources rest → ∀ source ∈ sources, source.Kept
  members : ∀ {members rest}, Reads readMembers bs members rest → ∀ member ∈ members, member.2.Kept

section

variable {bs : Bytes} (ih : ∀ cs : Bytes, cs.length < bs.length → ReadsKept cs)

include ih

theorem kept_value {source : JsonSource} {rest : Bytes} (h : Reads readValue bs source rest) :
    source.Kept := by
  obtain ⟨b, tail, hs, hvalue⟩ := h.first_byte
  have htail := ih tail (skipBlanks_shorter hs)
  -- the parts of objects and arrays come from the tail; of the rest only numbers need a look
  unfold valueAt at hvalue
  split at hvalue
  · rcases eq_or_of_insideBehind hvalue with rfl | ⟨members, hmembers, rfl⟩
    · exact .object fun _ hmember => (List.not_mem_nil hmember).elim
    · exact .object (htail.members hmembers)
  split at hvalue
  · rcases eq_or_of_insideBehind hvalue with rfl | ⟨elements, helements, rfl⟩
    · exact .array fun _ hsource => (List.not_mem_nil hsource).elim
    · exact .array (htail.elements helements)
  split at hvalue
  · obtain ⟨text?, -, rfl⟩ := exists_reads_of_map hvalue
    exact .string text?
  split at hvalue
  · obtain ⟨-, -, rfl⟩ := exists_reads_of_map hvalue
    exact .null
  split at hvalue
  · obtain ⟨-, -, rfl⟩ := exists_reads_of_map hvalue
    exact .bool true
  split at hvalue
  · obtain ⟨-, -, rfl⟩ := exists_reads_of_map hvalue
    exact .bool false
  · obtain ⟨text, htext, rfl⟩ := exists_reads_of_map hvalue
    exact .number htext.numberOf?_eq

theorem kept_elements {sources : List JsonSource} {rest : Bytes}
    (h : Reads readElements bs sources rest) : ∀ source ∈ sources, source.Kept := by
  obtain ⟨first, behind, hfirst, hlist⟩ := h.first_element
  have hkept := kept_value ih hfirst
  rcases eq_or_of_listBehind hlist with rfl | ⟨next, others, hnext, hothers, rfl⟩
  · exact List.forall_mem_singleton.mpr hkept
  · have hlt := hfirst.1
    exact List.forall_mem_cons.mpr ⟨hkept, (ih next (Nat.lt_trans hnext hlt)).elements hothers⟩

theorem kept_members {members : List (Option String × JsonSource)} {rest : Bytes}
    (h : Reads readMembers bs members rest) : ∀ member ∈ members, member.2.Kept := by
  obtain ⟨key, value, behind, hmember, hlist⟩ := h.first_member
  obtain ⟨start, hstart, hvalue⟩ := hmember.shorter
  have hkept := (ih start hstart).value hvalue
  rcases eq_or_of_listBehind hlist with rfl | ⟨next, others, hnext, hothers, rfl⟩
  · exact List.forall_mem_singleton.mpr hkept
  · have hlt := hvalue.1
    exact List.forall_mem_cons.mpr ⟨hkept, (ih next (by omega)).members hothers⟩

end

theorem readsKept (bs : Bytes) : ReadsKept bs := by
  -- on the length of what is left: every part of a value is read from a shorter rest
  induction hn : bs.length using Nat.strongRecOn generalizing bs with
  | ind n ih =>
    subst hn
    have hshorter : ∀ cs : Bytes, cs.length < bs.length → ReadsKept cs :=
      fun cs hcs => ih cs.length hcs cs rfl
    exact ⟨kept_value hshorter, kept_elements hshorter, kept_members hshorter⟩

/-- **Texts.** The numbers in the tree of a text are kept ones. -/
theorem kept_of_parse {bs : Bytes} {source : JsonSource} (h : parse bs = some source) :
    source.Kept := by
  unfold parse at h
  split at h
  · next r hread =>
    split at h
    · cases h
      exact (readsKept bs).value ⟨r.shorter, hread⟩
    · cases h
  · cases h

end JsonSource

end ChainClient
