/-!
# `ChainClient.NameMap` — values by name, in the order of the names

Names are compared character by character. A name has one value; a later one takes the place of an
earlier one.

## Contents
- **Maps.** `NameMap`, with `insert` and `find?`.
- **Laws.** `find?_insert` says what a map holds after an insertion; `mem_insert` bounds its pairs.
-/

namespace ChainClient

/-- Values by name, sorted by name. -/
abbrev NameMap (α : Type) := List (String × α)

namespace NameMap

variable {α : Type}

/-- The map with a value for a name. -/
def insert (name : String) (value : α) : NameMap α → NameMap α
  | [] => [(name, value)]
  | (n, v) :: rest =>
    if name = n then (name, value) :: rest
    else if name < n then (name, value) :: (n, v) :: rest
    else (n, v) :: insert name value rest

/-- The value of a name. -/
def find? (name : String) : NameMap α → Option α
  | [] => none
  | (n, v) :: rest => if name = n then some v else find? name rest

/-- The map of pairs of which later ones take the place of earlier ones. -/
def ofList (pairs : List (String × α)) : NameMap α :=
  pairs.foldl (fun map pair => map.insert pair.1 pair.2) []

/-- The values, in the order of their names. -/
def values (map : NameMap α) : List α := map.map (·.2)

/-- An insertion changes the value of its name and of no other. -/
theorem find?_insert (map : NameMap α) (name key : String) (value : α) :
    find? key (insert name value map) = if key = name then some value else find? key map := by
  induction map with
  | nil => simp [insert, find?]
  | cons pair rest ih =>
    obtain ⟨n, v⟩ := pair
    by_cases h : name = n
    · subst h
      by_cases hk : key = name <;> simp [insert, find?, hk]
    · by_cases hlt : name < n
      · simp [insert, find?, h, hlt]
      · by_cases hk : key = n
        · subst hk
          simp [insert, find?, h, hlt, Ne.symm h]
        · simp [insert, find?, h, hlt, hk, ih]

/-- An insertion adds its own pair and no other. -/
theorem mem_insert {map : NameMap α} {name : String} {value : α} {pair : String × α}
    (h : pair ∈ insert name value map) : pair = (name, value) ∨ pair ∈ map := by
  induction map with
  | nil => exact .inl (List.mem_singleton.mp h)
  | cons first rest ih =>
    obtain ⟨n, v⟩ := first
    rw [insert] at h
    split at h
    · exact (List.mem_cons.mp h).imp_right (List.mem_cons_of_mem _)
    · split at h
      · exact List.mem_cons.mp h
      · rcases List.mem_cons.mp h with hfirst | hrest
        · exact .inr (List.mem_cons.mpr (.inl hfirst))
        · exact (ih hrest).imp_right (List.mem_cons_of_mem _)

end NameMap

end ChainClient
