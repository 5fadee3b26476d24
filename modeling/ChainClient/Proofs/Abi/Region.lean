import ChainClient.Abi.Encode
import ChainClient.Proofs.Bytes.Number

/-!
# `ChainClient.Proofs.Abi.Region` — where the parts of a region stand

The packer fills a region in one pass that carries the offset of the next tail along. The format
says the same without a pass: every position is a sum over the parts before it. This module states
the format's law (`IsRegion`) and shows that the pass obeys it (`isRegion_layout`).

## Contents
- **Positions.** `StandsAt` is what "at an offset" means; `standsAt_flatten` finds a piece of a
  concatenation.
- **The format's law.** `headStart`, `tailStart` and `headOf` are the positions and heads by prefix
  sums; `IsRegion` says that a byte string is the region of parts, and `headStart_le` that its heads
  lie inside it.
- **The pass.** `layout_eq`: the pass writes the heads and then the tails, for any parts at all.
  `isRegion_layout`: it obeys the law when the parts know their lengths.
-/

namespace ChainClient

namespace Abi

/-! ## Positions -/

/-- A byte string stands at an offset of some data. -/
def StandsAt (data : Bytes) (offset : Nat) (bs : Bytes) : Prop :=
  ∃ before after, data = before ++ bs ++ after ∧ before.length = offset

namespace StandsAt

variable {data bs : Bytes} {offset : Nat}

theorem le_length (h : StandsAt data offset bs) : offset + bs.length ≤ data.length := by
  obtain ⟨before, after, rfl, rfl⟩ := h
  simp only [List.length_append]
  omega

theorem drop_eq (h : StandsAt data offset bs) : ∃ after, data.drop offset = bs ++ after := by
  obtain ⟨before, after, rfl, rfl⟩ := h
  exact ⟨after, by rw [List.append_assoc, List.drop_left]⟩

theorem take_drop (h : StandsAt data offset bs) : (data.drop offset).take bs.length = bs := by
  obtain ⟨after, hafter⟩ := h.drop_eq
  rw [hafter, List.take_left]

/-- What stands in the front of some data stands in the data. -/
theorem append_right (h : StandsAt data offset bs) (rest : Bytes) :
    StandsAt (data ++ rest) offset bs := by
  obtain ⟨before, after, rfl, rfl⟩ := h
  exact ⟨before, after ++ rest, by simp only [List.append_assoc], rfl⟩

/-- What stands in a piece of some data stands in the data. -/
theorem trans {inner : Bytes} {k : Nat} (h : StandsAt data offset bs) (hin : StandsAt bs k inner) :
    StandsAt data (offset + k) inner := by
  obtain ⟨before, after, rfl, rfl⟩ := h
  obtain ⟨front, back, rfl, rfl⟩ := hin
  refine ⟨before ++ front, back ++ after, by simp only [List.append_assoc], ?_⟩
  rw [List.length_append]

end StandsAt

theorem standsAt_self (bs rest : Bytes) : StandsAt (bs ++ rest) 0 bs := ⟨[], rest, rfl, rfl⟩

theorem standsAt_append (front bs : Bytes) : StandsAt (front ++ bs) front.length bs :=
  ⟨front, [], (List.append_nil _).symm, rfl⟩

/-- **A piece of a concatenation** stands behind the pieces before it. -/
theorem standsAt_flatten {pieces : List Bytes} {i : Nat} (h : i < pieces.length) :
    StandsAt pieces.flatten ((pieces.take i).map List.length).sum pieces[i] := by
  refine ⟨(pieces.take i).flatten, (pieces.drop (i + 1)).flatten, ?_, List.length_flatten⟩
  rw [List.append_assoc, ← List.flatten_cons, ← List.drop_eq_getElem_cons h, ← List.flatten_append,
    List.take_append_drop]

/-- A concatenation of pieces of whole words is made of whole words. -/
theorem dvd_length_flatten {pieces : List Bytes} (h : ∀ piece ∈ pieces, 32 ∣ piece.length) :
    32 ∣ pieces.flatten.length := by
  induction pieces with
  | nil => exact Nat.dvd_zero 32
  | cons piece pieces ih =>
    rw [List.flatten_cons, List.length_append]
    exact Nat.dvd_add (h piece List.mem_cons_self)
      (ih fun other hother => h other (List.mem_cons_of_mem piece hother))

/-! ## The format's law -/

/-- What a part puts behind the heads. -/
def Part.tail (part : Part) : Bytes := if part.dynamic then part.body else []

/-- The number of bytes that the tails of parts take up. -/
def tailsLength (parts : List Part) : Nat := (parts.map fun part => part.tail.length).sum

/-- Where the head of a part starts: behind the heads of the parts before it. -/
def headStart (parts : List Part) (i : Nat) : Nat := ((parts.take i).map Part.headLength).sum

/-- Where the tail of a part starts: behind all heads and the tails of the parts before it. -/
def tailStart (parts : List Part) (i : Nat) : Nat :=
  (parts.map Part.headLength).sum + tailsLength (parts.take i)

/-- The head of the part at a place, by the format: a static part itself, or the word that holds
    the start of the tail. -/
def headOf (parts : List Part) (i : Nat) (part : Part) : Bytes :=
  if part.dynamic then offsetWord (tailStart parts i) else part.body

/-- The heads by the format, one after the other. -/
def headsOf (parts : List Part) : Bytes := (parts.mapIdx (headOf parts)).flatten

/-- The tails by the format, one after the other. -/
def tailsOf (parts : List Part) : Bytes := (parts.map Part.tail).flatten

/-- **The format's law.** A byte string is the region of parts: heads and then tails and nothing
    else, each at its prefix sum and all made of whole words. -/
structure IsRegion (parts : List Part) (data : Bytes) : Prop where
  /-- Heads followed by tails, and nothing else. -/
  eq_heads_tails : data = headsOf parts ++ tailsOf parts
  /-- Every head is as long as its part says. -/
  length_head : ∀ (i : Nat) (h : i < parts.length),
    (headOf parts i parts[i]).length = parts[i].headLength
  /-- Every head stands at the sum of the head lengths before it. -/
  head_at : ∀ (i : Nat) (h : i < parts.length),
    StandsAt data (headStart parts i) (headOf parts i parts[i])
  /-- Every tail stands exactly where its head points. -/
  tail_at : ∀ (i : Nat) (h : i < parts.length), parts[i].dynamic = true →
    StandsAt data (tailStart parts i) parts[i].body
  /-- Every encoding is made of whole words. -/
  aligned : ∀ part ∈ parts, 32 ∣ part.body.length
  /-- So is the region. -/
  region_aligned : 32 ∣ data.length

/-- The next head starts behind a head. -/
theorem headStart_succ {parts : List Part} {i : Nat} (h : i < parts.length) :
    headStart parts (i + 1) = headStart parts i + parts[i].headLength := by
  rw [headStart, List.take_succ_eq_append_getElem h, List.map_append, List.sum_append]
  simp [headStart]

/-- The heads lie inside the region. -/
theorem headStart_le {parts : List Part} {body : Bytes} (hbody : IsRegion parts body) {i : Nat}
    (h : i ≤ parts.length) : headStart parts i ≤ body.length := by
  -- the last head before the bound stands in the region, and so does its end
  cases i with
  | zero => exact Nat.zero_le body.length
  | succ i =>
    have hle := (hbody.head_at i h).le_length
    rw [hbody.length_head i h] at hle
    rw [headStart_succ h]
    exact hle

/-! ## The pass -/

theorem headsLength_eq_sum (parts : List Part) :
    headsLength parts = (parts.map Part.headLength).sum := by
  induction parts with
  | nil => rfl
  | cons part parts ih => rw [headsLength, ih, List.map_cons, List.sum_cons]

/-- The pass from any offset on: a head points as far behind the offset as the tails before it are
    long. -/
theorem place_eq (offset : Nat) (parts : List Part) :
    place offset parts =
      ((parts.mapIdx fun i part =>
          if part.dynamic then offsetWord (offset + tailsLength (parts.take i))
          else part.body).flatten,
        tailsOf parts) := by
  -- the pass moves the offset along, the sums start over: the offset is open in the induction
  induction parts generalizing offset with
  | nil => rfl
  | cons part parts ih =>
    have htail (ps : List Part) : tailsLength (part :: ps) = part.tail.length + tailsLength ps := by
      rw [tailsLength, List.map_cons, List.sum_cons, tailsLength]
    have htails : tailsOf (part :: parts) = part.tail ++ tailsOf parts := by
      rw [tailsOf, List.map_cons, List.flatten_cons, tailsOf]
    rw [place, htails, List.mapIdx_cons, List.flatten_cons, List.take_zero]
    simp only [List.take_succ_cons, htail]
    cases h : part.dynamic with
    | true =>
      rw [if_pos rfl, ih]
      simp only [Part.tail, h, if_true, Nat.add_assoc]
      rfl
    | false =>
      rw [if_neg Bool.false_ne_true, ih]
      simp only [Part.tail, h, Bool.false_eq_true, if_false, List.length_nil, Nat.zero_add]
      rfl

/-- **The pass writes what the format says**, whatever the parts are. -/
theorem layout_eq (parts : List Part) : layout parts = headsOf parts ++ tailsOf parts := by
  rw [layout, place_eq, headsLength_eq_sum]
  rfl

/-- A part knows the length of its head: the word of a pointer, or the length of its encoding. -/
def Part.IsSound (part : Part) : Prop :=
  part.headLength = if part.dynamic then 32 else part.body.length

theorem length_headOf {parts : List Part} {i : Nat} {part : Part} (h : part.IsSound) :
    (headOf parts i part).length = part.headLength := by
  rw [Part.IsSound] at h
  rw [headOf, h]
  split
  · rw [offsetWord, Bytes.length_ofNat]
  · rfl

/-- The lengths of the first heads are the head lengths of the first parts. -/
theorem map_length_take_heads {parts : List Part} (hsound : ∀ part ∈ parts, part.IsSound)
    (i : Nat) :
    ((parts.mapIdx (headOf parts)).take i).map List.length =
      (parts.take i).map Part.headLength := by
  rw [List.map_take, List.map_take]
  congr 1
  apply List.ext_getElem
  · rw [List.length_map, List.length_mapIdx, List.length_map]
  · intro j hj hj'
    rw [List.length_map] at hj'
    rw [List.getElem_map, List.getElem_map, List.getElem_mapIdx]
    exact length_headOf (hsound _ (List.getElem_mem hj'))

theorem length_headsOf {parts : List Part} (hsound : ∀ part ∈ parts, part.IsSound) :
    (headsOf parts).length = (parts.map Part.headLength).sum := by
  have h := map_length_take_heads hsound parts.length
  rw [List.take_of_length_le (by rw [List.length_mapIdx]), List.take_length] at h
  rw [headsOf, List.length_flatten, h]

/-- **The pass obeys the format's law** when the parts know the lengths of their heads and are made
    of whole words. -/
theorem isRegion_layout {parts : List Part} (hsound : ∀ part ∈ parts, part.IsSound)
    (haligned : ∀ part ∈ parts, 32 ∣ part.body.length) : IsRegion parts (layout parts) where
  eq_heads_tails := layout_eq parts
  length_head i h := length_headOf (hsound _ (List.getElem_mem h))
  head_at i h := by
    have hi : i < (parts.mapIdx (headOf parts)).length := by rwa [List.length_mapIdx]
    have hstands := standsAt_flatten hi
    rw [map_length_take_heads hsound, List.getElem_mapIdx] at hstands
    rw [layout_eq]
    exact hstands.append_right (tailsOf parts)
  tail_at i h hdynamic := by
    have hi : i < (parts.map Part.tail).length := by rwa [List.length_map]
    have hstands := standsAt_flatten hi
    have htail : (parts.map Part.tail)[i] = parts[i].body := by
      rw [List.getElem_map, Part.tail, if_pos hdynamic]
    rw [htail, ← List.map_take, List.map_map] at hstands
    rw [layout_eq, tailStart, ← length_headsOf hsound]
    exact (standsAt_append _ _).trans hstands
  aligned := haligned
  region_aligned := by
    -- a head is a word or a part, a tail is a part or nothing
    rw [layout_eq, headsOf, tailsOf, ← List.flatten_append]
    apply dvd_length_flatten
    intro piece hpiece
    rcases List.mem_append.mp hpiece with hhead | htail
    · obtain ⟨i, hi, rfl⟩ := List.mem_mapIdx.mp hhead
      rw [headOf]
      split
      · rw [offsetWord, Bytes.length_ofNat]
      · exact haligned _ (List.getElem_mem hi)
    · obtain ⟨part, hpart, rfl⟩ := List.mem_map.mp htail
      rw [Part.tail]
      split
      · exact haligned part hpart
      · exact Nat.dvd_zero 32

end Abi

end ChainClient
