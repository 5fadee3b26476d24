import Mathlib.Data.List.Forall2

/-!
# `ChainClient.Proofs.Outcome` — computations that may fail, taken apart

Readers and signers run in `Except`, and readers of JSON in `Option`. A successful run is taken
apart step by step with the lemmas here, so that no proof unfolds a bind.

## Contents
- **Steps.** `pure_eq_ok_iff`, `bind_eq_ok_iff`, `map_eq_ok_iff` and `mapError_eq_ok_iff` give the
  results of the steps of a success. `run_bind_eq_ok_iff` does so for steps on a state.
  `bind_eq_error_iff` and `map_eq_error_iff` say which step failed. `bind_of_eq_some`,
  `run_bind_of_eq_ok` and `run_bind_of_eq_error` take a step whose result is known.
- **Runs.** `mapM_eq_ok_iff`, `mapM_eq_some_iff`: a run over a list succeeds when each of its steps
  does (`exists_mapM_eq_ok_iff`). `mapM_eq_error_iff`: it fails as the first of them that fails.
  `foldlM_invariant`: what each step keeps, a run keeps. `foldlM_eq_map_mapM` takes a run apart
  whose steps read and put.
-/

namespace ChainClient

namespace Outcome

variable {ε α β : Type}

/-! ## Steps -/

theorem pure_eq_ok_iff {a b : α} : (pure a : Except ε α) = .ok b ↔ b = a :=
  ⟨fun h => (Except.ok.inj h).symm, fun h => congrArg Except.ok h.symm⟩

/-- A step that checks what it returns. -/
theorem ite_pure_eq_ok_iff {p : Prop} [Decidable p] {a b : α} {e : ε} :
    (if p then pure a else throw e : Except ε α) = .ok b ↔ p ∧ b = a := by
  split
  · next hp => rw [pure_eq_ok_iff, and_iff_right hp]
  · next hp => exact ⟨fun h => (nomatch h), fun h => absurd h.1 hp⟩

theorem bind_eq_ok_iff {x : Except ε α} {f : α → Except ε β} {b : β} :
    x >>= f = .ok b ↔ ∃ a, x = .ok a ∧ f a = .ok b := by
  cases x with
  | ok a => simp [bind, Except.bind]
  | error e => simp [bind, Except.bind]

theorem bind_eq_error_iff {x : Except ε α} {f : α → Except ε β} {e : ε} :
    x >>= f = .error e ↔ x = .error e ∨ ∃ a, x = .ok a ∧ f a = .error e := by
  cases x with
  | ok a => simp [bind, Except.bind]
  | error e' => simp [bind, Except.bind]

theorem map_eq_ok_iff {x : Except ε α} {f : α → β} {b : β} :
    x.map f = .ok b ↔ ∃ a, x = .ok a ∧ f a = b := by
  cases x with
  | ok a => simp [Except.map]
  | error e => simp [Except.map]

theorem map_eq_error_iff {x : Except ε α} {f : α → β} {e : ε} :
    x.map f = .error e ↔ x = .error e := by
  cases x with
  | ok a => simp [Except.map]
  | error e' => simp [Except.map]

theorem mapError_eq_ok_iff {ε' : Type} {x : Except ε α} {f : ε → ε'} {a : α} :
    x.mapError f = .ok a ↔ x = .ok a := by
  cases x with
  | ok b => simp [Except.mapError]
  | error e => simp [Except.mapError]

/-- Steps on a state: the second one goes on from the state that the first one left. -/
theorem run_bind_eq_ok_iff {σ : Type} {x : StateT σ (Except ε) α} {f : α → StateT σ (Except ε) β}
    {s : σ} {b : β} {t : σ} :
    (x >>= f).run s = .ok (b, t) ↔ ∃ a r, x.run s = .ok (a, r) ∧ (f a).run r = .ok (b, t) := by
  rw [StateT.run_bind, bind_eq_ok_iff]
  constructor
  · rintro ⟨⟨a, r⟩, hx, hf⟩
    exact ⟨a, r, hx, hf⟩
  · rintro ⟨a, r, hx, hf⟩
    exact ⟨(a, r), hx, hf⟩

/-- A step on a state that is known to succeed hands its result and its state on. -/
theorem run_bind_of_eq_ok {σ : Type} {x : StateT σ (Except ε) α} {s t : σ} {a : α}
    (h : x.run s = .ok (a, t)) (f : α → StateT σ (Except ε) β) :
    (x >>= f).run s = (f a).run t := by
  rw [StateT.run_bind, h]
  rfl

/-- A step on a state that is known to fail ends the run. -/
theorem run_bind_of_eq_error {σ : Type} {x : StateT σ (Except ε) α} {s : σ} {e : ε}
    (h : x.run s = .error e) (f : α → StateT σ (Except ε) β) : (x >>= f).run s = .error e := by
  rw [StateT.run_bind, h]
  rfl

/-- A step that only returns leaves the state as it is. -/
theorem run_pure_eq_ok_iff {σ : Type} {a b : α} {s t : σ} :
    (pure a : StateT σ (Except ε) α).run s = .ok (b, t) ↔ a = b ∧ s = t := by
  constructor
  · intro h
    cases h
    exact ⟨rfl, rfl⟩
  · rintro ⟨rfl, rfl⟩
    rfl

/-- A step that is known to succeed hands its result on. -/
theorem bind_of_eq_some {x : Option α} {a : α} (h : x = some a) (f : α → Option β) :
    x >>= f = f a := by
  rw [h]
  rfl

/-! ## Runs -/

/-- **Runs over lists.** A run over a list succeeds with the results of its steps. -/
theorem mapM_eq_ok_iff {f : α → Except ε β} {as : List α} {bs : List β} :
    as.mapM f = .ok bs ↔ List.Forall₂ (fun a b => f a = .ok b) as bs := by
  induction as generalizing bs with
  | nil =>
    rw [List.mapM_nil, List.forall₂_nil_left_iff]
    exact ⟨fun h => by cases h; rfl, fun h => by rw [h]; rfl⟩
  | cons a as ih =>
    rw [List.mapM_cons, bind_eq_ok_iff, List.forall₂_cons_left_iff]
    constructor
    · rintro ⟨b, hb, h⟩
      obtain ⟨rest, hrest, hbs⟩ := bind_eq_ok_iff.mp h
      cases hbs
      exact ⟨b, rest, hb, ih.mp hrest, rfl⟩
    · rintro ⟨b, rest, hb, hrest, rfl⟩
      refine ⟨b, hb, bind_eq_ok_iff.mpr ⟨rest, ih.mpr hrest, rfl⟩⟩

/-- The same for steps that fail without an error. -/
theorem mapM_eq_some_iff {f : α → Option β} {as : List α} {bs : List β} :
    as.mapM f = some bs ↔ List.Forall₂ (fun a b => f a = some b) as bs := by
  induction as generalizing bs with
  | nil =>
    rw [List.mapM_nil, List.forall₂_nil_left_iff]
    exact ⟨fun h => by cases h; rfl, fun h => by rw [h]; rfl⟩
  | cons a as ih =>
    rw [List.mapM_cons, Option.bind_eq_bind, Option.bind_eq_some_iff, List.forall₂_cons_left_iff]
    constructor
    · rintro ⟨b, hb, h⟩
      obtain ⟨rest, hrest, hbs⟩ := Option.bind_eq_some_iff.mp h
      cases hbs
      exact ⟨b, rest, hb, ih.mp hrest, rfl⟩
    · rintro ⟨b, rest, hb, hrest, rfl⟩
      exact ⟨b, hb, Option.bind_eq_some_iff.mpr ⟨rest, ih.mpr hrest, rfl⟩⟩

/-- A run over a list fails with the error of the first step that does. -/
theorem mapM_eq_error_iff {f : α → Except ε β} {as : List α} {e : ε} :
    as.mapM f = .error e ↔ ∃ front bad rest, as = front ++ bad :: rest ∧
      (∀ a ∈ front, ∃ b, f a = .ok b) ∧ f bad = .error e := by
  induction as with
  | nil =>
    refine ⟨fun h => (nomatch h), ?_⟩
    rintro ⟨front, bad, rest, hsplit, -⟩
    exact absurd hsplit.symm (List.append_ne_nil_of_right_ne_nil _ (List.cons_ne_nil _ _))
  | cons a as ih =>
    rw [List.mapM_cons, bind_eq_error_iff]
    constructor
    · rintro (hfirst | ⟨b, hb, h⟩)
      · exact ⟨[], a, as, rfl, List.forall_mem_nil _, hfirst⟩
      · rcases bind_eq_error_iff.mp h with hrest | ⟨bs, _, hlast⟩
        · obtain ⟨front, bad, rest, rfl, hfront, hbad⟩ := ih.mp hrest
          exact ⟨a :: front, bad, rest, rfl, List.forall_mem_cons.mpr ⟨⟨b, hb⟩, hfront⟩, hbad⟩
        · cases hlast
    · rintro ⟨front, bad, rest, hsplit, hfront, hbad⟩
      cases front with
      | nil =>
        cases hsplit
        exact .inl hbad
      | cons first front =>
        cases hsplit
        obtain ⟨⟨b, hb⟩, hfront⟩ := List.forall_mem_cons.mp hfront
        have hrest := ih.mpr ⟨front, bad, rest, rfl, hfront, hbad⟩
        exact .inr ⟨b, hb, bind_eq_error_iff.mpr (.inl hrest)⟩

theorem exists_of_mapM_eq_error {f : α → Except ε β} {as : List α} {e : ε}
    (h : as.mapM f = .error e) : ∃ a ∈ as, f a = .error e := by
  obtain ⟨front, bad, rest, rfl, -, hbad⟩ := mapM_eq_error_iff.mp h
  exact ⟨bad, List.mem_append_right front List.mem_cons_self, hbad⟩

/-- A run over a list succeeds if each of its steps does. -/
theorem exists_mapM_eq_ok_iff {f : α → Except ε β} {as : List α} :
    (∃ bs, as.mapM f = .ok bs) ↔ ∀ a ∈ as, ∃ b, f a = .ok b := by
  constructor
  · rintro ⟨bs, h⟩ a ha
    obtain ⟨i, hi, rfl⟩ := List.getElem_of_mem ha
    have hruns := mapM_eq_ok_iff.mp h
    exact ⟨_, List.Forall₂.get hruns hi (hruns.length_eq ▸ hi)⟩
  · intro h
    cases hrun : as.mapM f with
    | ok bs => exact ⟨bs, rfl⟩
    | error e =>
      obtain ⟨a, ha, hfail⟩ := exists_of_mapM_eq_error hrun
      obtain ⟨b, hb⟩ := h a ha
      rw [hfail] at hb
      cases hb

/-- A run whose steps read first, and then put what they read into the state. -/
theorem foldlM_eq_map_mapM {γ : Type} {f : β → α → Except ε β} {read : α → Except ε γ}
    {put : β → γ → β} (h : ∀ b a, f b a = (read a).map (put b)) (as : List α) (b : β) :
    as.foldlM f b = (as.mapM read).map fun items => items.foldl put b := by
  induction as generalizing b with
  | nil => rfl
  | cons a as ih =>
    rw [List.foldlM_cons, h, List.mapM_cons]
    cases read a with
    | error e => rfl
    | ok item =>
      refine (ih (put b item)).trans ?_
      simp only [bind, Except.bind]
      cases as.mapM read with
      | error e => rfl
      | ok items => rfl

/-- **Invariants.** What every step of a run keeps holds at its end if it holds at its start. -/
theorem foldlM_invariant {motive : β → Prop} {f : β → α → Except ε β}
    (hstep : ∀ b a next, motive b → f b a = .ok next → motive next) {as : List α} {b last : β}
    (hfirst : motive b) (h : as.foldlM f b = .ok last) : motive last := by
  induction as generalizing b with
  | nil =>
    cases h
    exact hfirst
  | cons a as ih =>
    rw [List.foldlM_cons] at h
    obtain ⟨next, hnext, hrest⟩ := bind_eq_ok_iff.mp h
    exact ih (hstep b a next hfirst hnext) hrest

end Outcome

end ChainClient
