import ChainClient.NameMap

/-!
# `ChainClient.Proofs.NameMap` — maps by name are sorted

## Contents
- **Order.** `NameMap.Sorted` maps have their names in strict order; insertions keep it.
- **Values.** `eq_of_find?`: maps with the same values are equal.
- **Pairs.** A map has the names of the pairs it was made of (`mem_names_ofList`), each with one of
  their values (`mem_of_mem_ofList`).
- **Sorted pairs.** `ofList_of_sorted`: pairs that are sorted are a map as they stand.
-/

namespace ChainClient

namespace NameMap

variable {α : Type}

/-! ## Order -/

/-- Names in strict order. -/
def Sorted (map : NameMap α) : Prop := map.Pairwise fun pair other => pair.1 < other.1

theorem sorted_insert {map : NameMap α} (h : map.Sorted) (name : String) (value : α) :
    (insert name value map).Sorted := by
  induction map with
  | nil => exact List.pairwise_singleton ..
  | cons pair rest ih =>
    obtain ⟨n, v⟩ := pair
    obtain ⟨hfirst, hrest⟩ := List.pairwise_cons.mp h
    rw [insert]
    split
    · next heq =>
      subst heq
      exact List.pairwise_cons.mpr ⟨hfirst, hrest⟩
    · next hne =>
      split
      · next hlt =>
        refine List.pairwise_cons.mpr ⟨fun other hother => ?_, h⟩
        rcases List.mem_cons.mp hother with rfl | hother
        · exact hlt
        · exact String.lt_trans hlt (hfirst other hother)
      · next hge =>
        refine List.pairwise_cons.mpr ⟨fun other hother => ?_, ih hrest⟩
        rcases mem_insert hother with rfl | hother
        · refine Decidable.byContradiction fun hle => hne ?_
          exact String.le_antisymm (String.not_lt.mp hle) (String.not_lt.mp hge)
        · exact hfirst other hother

/-- A run of insertions into a map. -/
theorem sorted_foldl (pairs : List (String × α)) {map : NameMap α} (h : map.Sorted) :
    (pairs.foldl (fun map pair => map.insert pair.1 pair.2) map).Sorted := by
  induction pairs generalizing map with
  | nil => exact h
  | cons pair pairs ih => exact ih (sorted_insert h pair.1 pair.2)

theorem sorted_ofList (pairs : List (String × α)) : (ofList pairs).Sorted :=
  sorted_foldl pairs .nil

/-! ## Values -/

theorem find?_of_forall_lt {map : NameMap α} {name : String} (h : ∀ pair ∈ map, name < pair.1) :
    find? name map = none := by
  induction map with
  | nil => rfl
  | cons pair rest ih =>
    obtain ⟨n, v⟩ := pair
    obtain ⟨hlt, hrest⟩ := List.forall_mem_cons.mp h
    have hne : name ≠ n := by
      rintro rfl
      exact String.lt_irrefl _ hlt
    rw [find?, if_neg hne, ih hrest]

/-- **Maps are known by their values.** -/
theorem eq_of_find? {map other : NameMap α} (h : map.Sorted) (hother : other.Sorted)
    (hsame : ∀ name, find? name map = find? name other) : map = other := by
  induction map generalizing other with
  | nil =>
    cases other with
    | nil => rfl
    | cons pair rest =>
      have hfirst := hsame pair.1
      rw [find?, find?, if_pos rfl] at hfirst
      cases hfirst
  | cons pair rest ih =>
    obtain ⟨n, v⟩ := pair
    obtain ⟨hbehind, hrest⟩ := List.pairwise_cons.mp h
    cases other with
    | nil =>
      have hfirst := hsame n
      rw [find?, find?, if_pos rfl] at hfirst
      cases hfirst
    | cons pair' rest' =>
      obtain ⟨n', v'⟩ := pair'
      obtain ⟨hbehind', hrest'⟩ := List.pairwise_cons.mp hother
      -- a name in front of all others of one map would be missing in it
      have hnot : ¬ n < n' := by
        intro hlt
        have hfirst := hsame n
        rw [find?, if_pos rfl, find?_of_forall_lt] at hfirst
        · cases hfirst
        · exact List.forall_mem_cons.mpr ⟨hlt, fun p hp => String.lt_trans hlt (hbehind' p hp)⟩
      have hnot' : ¬ n' < n := by
        intro hlt
        have hfirst := hsame n'
        rw [find?_of_forall_lt, find?, if_pos rfl] at hfirst
        · cases hfirst
        · exact List.forall_mem_cons.mpr ⟨hlt, fun p hp => String.lt_trans hlt (hbehind p hp)⟩
      obtain rfl : n = n' := String.le_antisymm (String.not_lt.mp hnot') (String.not_lt.mp hnot)
      have hvalue := hsame n
      rw [find?, if_pos rfl, find?, if_pos rfl] at hvalue
      cases hvalue
      rw [ih hrest hrest' fun name => ?_]
      by_cases hname : name = n
      · subst hname
        rw [find?_of_forall_lt hbehind, find?_of_forall_lt hbehind']
      · have hothers := hsame name
        rwa [find?, if_neg hname, find?, if_neg hname] at hothers

/-! ## Pairs -/

theorem mem_names_insert {map : NameMap α} {name key : String} {value : α} :
    key ∈ (insert name value map).map Prod.fst ↔ key = name ∨ key ∈ map.map Prod.fst := by
  induction map with
  | nil => simp [insert]
  | cons pair rest ih =>
    obtain ⟨n, v⟩ := pair
    rw [insert]
    split
    · next heq => simp [heq]
    · split
      · simp
      · rw [List.map_cons, List.mem_cons, ih, List.map_cons, List.mem_cons]
        exact or_left_comm

theorem mem_names_ofList {pairs : List (String × α)} {key : String} :
    key ∈ (ofList pairs).map Prod.fst ↔ key ∈ pairs.map Prod.fst := by
  suffices h : ∀ map : NameMap α,
      key ∈ (pairs.foldl (fun map pair => map.insert pair.1 pair.2) map).map Prod.fst ↔
        key ∈ map.map Prod.fst ∨ key ∈ pairs.map Prod.fst by
    rw [ofList, h]
    simp
  induction pairs with
  | nil => simp
  | cons pair pairs ih =>
    intro map
    rw [List.foldl_cons, ih, mem_names_insert, List.map_cons, List.mem_cons, or_assoc,
      or_left_comm]

theorem mem_of_mem_ofList {pairs : List (String × α)} {pair : String × α}
    (h : pair ∈ ofList pairs) : pair ∈ pairs := by
  suffices hfold : ∀ map : NameMap α,
      pair ∈ pairs.foldl (fun map pair => map.insert pair.1 pair.2) map →
        pair ∈ map ∨ pair ∈ pairs by
    exact (hfold [] h).resolve_left List.not_mem_nil
  clear h
  induction pairs with
  | nil => exact fun map h => .inl h
  | cons first pairs ih =>
    intro map h
    rcases ih _ h with hinsert | hrest
    · rcases mem_insert hinsert with rfl | hmap
      · exact .inr List.mem_cons_self
      · exact .inl hmap
    · exact .inr (List.mem_cons_of_mem first hrest)

/-! ## Sorted pairs -/

/-- A name behind all others goes to the end. -/
theorem insert_of_forall_lt {map : NameMap α} {name : String} (h : ∀ pair ∈ map, pair.1 < name)
    (value : α) : insert name value map = map ++ [(name, value)] := by
  induction map with
  | nil => rfl
  | cons pair rest ih =>
    obtain ⟨n, v⟩ := pair
    have hlt : n < name := h (n, v) List.mem_cons_self
    have hne : name ≠ n := by
      rintro rfl
      exact String.lt_irrefl _ hlt
    rw [insert, if_neg hne, if_neg (String.lt_asymm hlt),
      ih fun pair hpair => h pair (List.mem_cons_of_mem _ hpair)]
    rfl

/-- **Sorted pairs** are a map as they stand. -/
theorem ofList_of_sorted {pairs : NameMap α} (h : pairs.Sorted) : ofList pairs = pairs := by
  suffices hfold : ∀ front : NameMap α, (front ++ pairs).Sorted →
      pairs.foldl (fun map pair => map.insert pair.1 pair.2) front = front ++ pairs by
    exact hfold [] h
  clear h
  induction pairs with
  | nil => exact fun front _ => (List.append_nil front).symm
  | cons pair pairs ih =>
    intro front h
    obtain ⟨-, -, hbefore⟩ := List.pairwise_append.mp h
    rw [List.foldl_cons, insert_of_forall_lt fun other hother =>
      hbefore other hother pair List.mem_cons_self]
    have happend : front ++ [pair] ++ pairs = front ++ pair :: pairs := by simp
    rw [← happend] at h ⊢
    exact ih _ h

end NameMap

end ChainClient
