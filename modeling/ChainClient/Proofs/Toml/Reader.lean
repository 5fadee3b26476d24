import ChainClient.Toml.Reader
import Mathlib.Data.List.Infix

/-!
# `ChainClient.Proofs.Toml.Reader` — what steps of reading take and refuse

A step takes characters from the front of a text, or refuses it. The laws of the combinators follow
from these two judgements alone, so that the proofs about a format name what stands where, and never
open a step.

## Contents
- **Judgements.** `Reads` and `Refuses`.
- **Chains.** One law a combinator: `bind`, `map`, `seqRight`, `seqLeft`, `orElse`.
- **Pieces.** Characters, words and spans.
- **Repetition.** `Reads.many` goes past one piece, and `reads_many_nil` ends.
-/

namespace ChainClient.Toml.Reader

variable {α β : Type}

/-! ## Judgements -/

/-- What a step takes from the front of a text, and what it leaves. -/
def Reads (step : Reader α) (cs : List Char) (a : α) (rest : List Char) : Prop :=
  step.run cs = some (a, rest)

/-- A step takes nothing from a text. -/
def Refuses (step : Reader α) (cs : List Char) : Prop := step.run cs = none

variable {x : Reader α} {y : Reader β} {f : α → Reader β} {a : α} {b : β} {cs mid rest : List Char}

/-! ## Chains -/

theorem reads_pure (a : α) (cs : List Char) : Reads (pure a) cs a cs := rfl

theorem refuses_failure (cs : List Char) : Refuses (failure : Reader α) cs := rfl

theorem Reads.bind (hx : Reads x cs a mid) (hf : Reads (f a) mid b rest) :
    Reads (x >>= f) cs b rest := by
  rw [Reads, StateT.run_bind, hx]
  exact hf

theorem Refuses.bind (hx : Refuses x cs) (f : α → Reader β) : Refuses (x >>= f) cs := by
  rw [Refuses, StateT.run_bind, hx]
  rfl

/-- A chain refuses what its second step refuses. -/
theorem Reads.bind_refuses (hx : Reads x cs a mid) (hf : Refuses (f a) mid) :
    Refuses (x >>= f) cs := by
  rw [Refuses, StateT.run_bind, hx]
  exact hf

theorem Reads.map (hx : Reads x cs a rest) (g : α → β) : Reads (g <$> x) cs (g a) rest := by
  rw [Reads, StateT.run_map, hx]
  rfl

theorem Refuses.map (hx : Refuses x cs) (g : α → β) : Refuses (g <$> x) cs := by
  rw [Refuses, StateT.run_map, hx]
  rfl

theorem Reads.discard (hx : Reads x cs a rest) : Reads (discard x) cs () rest := hx.map _

theorem Refuses.discard (hx : Refuses x cs) : Refuses (discard x) cs := hx.map _

theorem Reads.seqRight (hx : Reads x cs a mid) (hy : Reads y mid b rest) :
    Reads (x *> y) cs b rest := hx.bind hy

theorem Refuses.seqRight (hx : Refuses x cs) (y : Reader β) : Refuses (x *> y) cs := hx.bind _

theorem Reads.seqRight_refuses (hx : Reads x cs a mid) (hy : Refuses y mid) :
    Refuses (x *> y) cs := hx.bind_refuses hy

theorem Reads.seqLeft (hx : Reads x cs a mid) (hy : Reads y mid b rest) :
    Reads (x <* y) cs a rest := hx.bind (hy.bind (reads_pure a rest))

theorem Refuses.seqLeft (hx : Refuses x cs) (y : Reader β) : Refuses (x <* y) cs := hx.bind _

variable {z : Reader α}

theorem Reads.orElse (hx : Reads x cs a rest) (z : Reader α) : Reads (x <|> z) cs a rest := by
  show (x.run cs <|> z.run cs) = _
  rw [hx]
  rfl

/-- What the first of two steps refuses is left to the second one. -/
theorem Refuses.run_orElse (hx : Refuses x cs) (z : Reader α) : (x <|> z).run cs = z.run cs := by
  show (x.run cs <|> z.run cs) = _
  rw [hx]
  rfl

theorem Refuses.orElse_reads (hx : Refuses x cs) (hz : Reads z cs a rest) :
    Reads (x <|> z) cs a rest := (hx.run_orElse z).trans hz

theorem Refuses.orElse (hx : Refuses x cs) (hz : Refuses z cs) : Refuses (x <|> z) cs :=
  (hx.run_orElse z).trans hz

/-! ## Pieces -/

variable {kind : Char → Bool} {c d : Char}

theorem reads_char (h : kind c = true) (rest : List Char) : Reads (char kind) (c :: rest) c rest :=
  if_pos h

theorem refuses_char_cons (h : kind c = false) (rest : List Char) :
    Refuses (char kind) (c :: rest) := if_neg (Bool.eq_false_iff.mp h)

theorem refuses_char (h : ∀ c ∈ cs.head?, kind c = false) : Refuses (char kind) cs := by
  cases cs with
  | nil => rfl
  | cons c cs => exact refuses_char_cons (h c rfl) cs

theorem reads_only (c : Char) (rest : List Char) : Reads (only c) (c :: rest) () rest :=
  (reads_char (beq_self_eq_true c) rest).discard

theorem refuses_only (h : cs.head? ≠ some c) : Refuses (only c) cs := by
  refine (refuses_char fun d hd => ?_).discard
  rw [beq_eq_false_iff_ne]
  rintro rfl
  exact h hd

theorem refuses_only_cons (h : d ≠ c) (rest : List Char) : Refuses (only c) (d :: rest) :=
  refuses_only fun hhead => h (Option.some.inj hhead)

theorem refuses_word {text : String} (h : ¬ text.toList <+: cs) : Refuses (word text) cs := by
  show (text.toList.isPrefixOf? cs).map _ = none
  rw [Option.map_eq_none_iff, Option.eq_none_iff_forall_ne_some]
  intro rest hrest
  exact h ⟨rest, List.isPrefixOf?_eq_some_iff_append_eq.mp hrest⟩

theorem reads_span {front : List Char} (h : ∀ c ∈ front, kind c = true)
    (hrest : ∀ c ∈ rest.head?, kind c = false) : Reads (span kind) (front ++ rest) front rest := by
  have hstop : rest.takeWhile kind = [] ∧ rest.dropWhile kind = rest := by
    cases rest with
    | nil => exact ⟨rfl, rfl⟩
    | cons c rest =>
      have hc : ¬ kind c = true := Bool.eq_false_iff.mp (hrest c rfl)
      exact ⟨List.takeWhile_cons_of_neg hc, List.dropWhile_cons_of_neg hc⟩
  show some (_, _) = _
  rw [List.takeWhile_append_of_pos h, List.dropWhile_append_of_pos h, hstop.1, hstop.2,
    List.append_nil]

/-! ## Repetition -/

theorem reads_opt_some (hx : Reads x cs a rest) : Reads (opt x) cs (some a) rest :=
  (hx.map some).orElse _

theorem reads_opt_none (hx : Refuses x cs) : Reads (opt x) cs none cs :=
  (hx.map some).orElse_reads (reads_pure none cs)

theorem reads_many_nil (hx : Refuses x cs) : Reads (many x) cs [] cs := by
  have hrun : x cs = none := hx
  show many x cs = _
  rw [many, hrun]

/-- One piece, which has a character, and those behind it. -/
theorem Reads.many {text : List Char} {as : List α} (hx : Reads x (text ++ mid) a mid)
    (hne : text ≠ []) (hmid : Reads (many x) mid as rest) :
    Reads (many x) (text ++ mid) (a :: as) rest := by
  have hrun : x (text ++ mid) = some (a, mid) := hx
  have hmany : Reader.many x mid = some (as, rest) := hmid
  have hlt : mid.length < (text ++ mid).length := by
    rw [List.length_append]
    exact Nat.lt_add_of_pos_left (List.length_pos_iff.mpr hne)
  show Reader.many x (text ++ mid) = _
  rw [Reader.many, hrun]
  simp only [dif_pos hlt, hmany]
  rfl

end ChainClient.Toml.Reader
