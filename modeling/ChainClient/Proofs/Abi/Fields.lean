import ChainClient.Abi.Type.Notation
import ChainClient.Proofs.Text.Utf8

/-!
# `ChainClient.Proofs.Abi.Fields` — the pass through the fields of a tuple

The reader of names takes a tuple apart in one pass, which counts open parentheses, remembers the
byte that the current field starts at and cuts a field off at a comma. The recursion `splitFields`
on the characters says the same without bytes: what it returns are the fields still to come, the
first of which goes on from the current one.

## Contents
- **Recursion.** `splitFields`, with `pushFront` and `pushAll` for characters that go into the first
  field.
- **Steps.** What `FieldPass.next` does at a parenthesis, at a comma that cuts, and elsewhere.
- **Pass.** `run_eq`: from anywhere in a text, the pass ends with the fields in front, the current
  field, and those to come. `tupleFields_eq_ok_iff` and `tupleFields_eq_error_iff` say so of the
  whole pass.
-/

namespace ChainClient

namespace AbiType

/-! ## Recursion -/

/-- Puts a character in front of the first field. -/
def pushFront (c : Char) : List (List Char) → List (List Char)
  | [] => [[c]]
  | field :: fields => (c :: field) :: fields

/-- Puts characters in front of the first field. -/
def pushAll (cs : List Char) (fields : List (List Char)) : List (List Char) :=
  cs.foldr pushFront fields

theorem pushAll_cons (cs field : List Char) (fields : List (List Char)) :
    pushAll cs (field :: fields) = (cs ++ field) :: fields := by
  induction cs with
  | nil => rfl
  | cons c cs ih => rw [pushAll, List.foldr_cons, ← pushAll, ih]; rfl

theorem pushAll_unit (cs : List Char) : pushAll cs [[]] = [cs] := by
  rw [pushAll_cons, List.append_nil]

theorem pushAll_concat (cs : List Char) (c : Char) (fields : List (List Char)) :
    pushAll (cs ++ [c]) fields = pushAll cs (pushFront c fields) := List.foldr_append

/-- The fields between the commas that stand outside parentheses, when `depth` parentheses are open;
    none if the parentheses do not match. -/
def splitFields : (depth : Nat) → List Char → Option (List (List Char))
  | 0, [] => some [[]]
  | _ + 1, [] => none
  | depth, '(' :: rest => (splitFields (depth + 1) rest).map (pushFront '(')
  | 0, ')' :: _ => none
  | depth + 1, ')' :: rest => (splitFields depth rest).map (pushFront ')')
  | 0, ',' :: rest => (splitFields 0 rest).map ([] :: ·)
  | depth, c :: rest => (splitFields depth rest).map (pushFront c)

/-- A character that neither opens nor closes anything, and is no comma outside parentheses. -/
theorem splitFields_cons {depth : Nat} {c : Char} (hopen : c ≠ '(') (hclose : c ≠ ')')
    (hcomma : c = ',' → depth ≠ 0) (rest : List Char) :
    splitFields depth (c :: rest) = (splitFields depth rest).map (pushFront c) := by
  rw [splitFields]
  · exact hopen
  · exact fun _ => hclose
  · exact fun _ _ => hclose
  · exact fun hdepth hc => hcomma hc hdepth

/-! ## Steps -/

namespace FieldPass

variable {body : List Char} {pass : FieldPass}

theorem next_close {depth : Nat} (h : pass.depth = depth + 1) (index : Nat) :
    pass.next body (index, ')') = .ok { pass with depth } := by
  rw [next, h]

theorem next_close_of_zero (h : pass.depth = 0) (index : Nat) :
    pass.next body (index, ')') = notAType body := by
  rw [next, h]

theorem next_comma (h : pass.depth = 0) (index : Nat) :
    pass.next body (index, ',') = .ok { pass with
      start := index + 1, fields := pass.fields ++ [Utf8.slice pass.start index body] } := if_pos h

theorem next_other {c : Char} (hopen : c ≠ '(') (hclose : c ≠ ')')
    (hcomma : c = ',' → pass.depth ≠ 0) (index : Nat) : pass.next body (index, c) = .ok pass := by
  unfold next
  split
  · next h => exact absurd (Prod.mk.inj h).2 hopen
  · next h => exact absurd (Prod.mk.inj h).2 hclose
  · next h => exact if_neg (hcomma (Prod.mk.inj h).2)
  · rfl

/-! ## Pass -/

/-- The end of a pass with characters of the current field behind it, and the rest of the text to
    come. -/
def outcome (body : List Char) (pass : FieldPass) (current rest : List Char) :
    Except AbiError (List (List Char)) :=
  match splitFields pass.depth rest with
  | some fields => .ok (pass.fields ++ pushAll current fields)
  | none => notAType body

/-- A character that goes into the current field. -/
theorem outcome_push {c : Char} {later : FieldPass} {current rest : List Char}
    (hfields : later.fields = pass.fields)
    (hsplit : splitFields pass.depth (c :: rest) =
      (splitFields later.depth rest).map (pushFront c)) :
    later.outcome body (current ++ [c]) rest = pass.outcome body current (c :: rest) := by
  rw [outcome, outcome, hsplit, hfields]
  cases splitFields later.depth rest with
  | none => rfl
  | some fields => simp only [Option.map_some, pushAll_concat]

/-- A comma that cuts the current field off. -/
theorem outcome_cut {later : FieldPass} {current rest : List Char} (hdepth : pass.depth = 0)
    (hlater : later.depth = 0) (hfields : later.fields = pass.fields ++ [current]) :
    later.outcome body [] rest = pass.outcome body current (',' :: rest) := by
  rw [outcome, outcome, hdepth, hlater, hfields, splitFields]
  cases splitFields 0 rest with
  | none => rfl
  | some fields =>
    simp only [Option.map_some, pushAll_cons, List.append_assoc, List.append_nil]
    rfl

/-- **The pass.** In the invariant, the text consists of fields that are cut off (`closed`, with
    their commas), the front of the current field, and the rest; and the current field starts at the
    byte behind the former. -/
theorem run_eq {closed current rest : List Char} (hbody : body = closed ++ current ++ rest)
    (hstart : pass.start = (Utf8.encode closed).length) :
    ((Utf8.positions (Utf8.encode (closed ++ current)).length rest).foldlM (next body) pass >>=
      finish body) = pass.outcome body current rest := by
  induction rest generalizing pass closed current with
  | nil =>
    show pass.finish body = _
    have hcut : Utf8.slice pass.start (Utf8.encode body).length body = current := by
      rw [hstart, hbody, List.append_nil]
      exact (congrArg _ (List.append_nil _).symm).trans (Utf8.slice_append closed current [])
    rw [finish, outcome, hcut]
    cases pass.depth with
    | zero => simp only [if_true, splitFields, pushAll_unit]
    | succ depth => rw [if_neg (Nat.succ_ne_zero depth), splitFields]
  | cons c rest ih =>
    rw [Utf8.positions, List.foldlM_cons, ← Utf8.length_encode_concat]
    have hmore : body = closed ++ (current ++ [c]) ++ rest := by
      rw [hbody]
      simp only [List.append_assoc, List.singleton_append]
    have hpush {later : FieldPass} (hnext : ∀ index, pass.next body (index, c) = .ok later)
        (hlater : later.start = pass.start) (hfields : later.fields = pass.fields)
        (hsplit : splitFields pass.depth (c :: rest) =
          (splitFields later.depth rest).map (pushFront c)) :
        ((pass.next body ((Utf8.encode (closed ++ current)).length, c) >>= fun later =>
          (Utf8.positions (Utf8.encode (closed ++ current ++ [c])).length rest).foldlM (next body)
            later) >>= finish body) = pass.outcome body current (c :: rest) := by
      rw [hnext, List.append_assoc]
      exact (ih hmore (hlater.trans hstart)).trans (outcome_push hfields hsplit)
    by_cases hopen : c = '('
    · subst hopen
      exact hpush (fun _ => rfl) rfl rfl (by rw [splitFields])
    by_cases hclose : c = ')'
    · subst hclose
      cases hdepth : pass.depth with
      | zero =>
        rw [next_close_of_zero hdepth, outcome, hdepth, splitFields]
        rfl
      | succ depth =>
        exact hpush (next_close hdepth) rfl rfl (by rw [hdepth, splitFields])
    by_cases hcomma : c = ',' ∧ pass.depth = 0
    · -- the current field is cut off, and the next one is empty so far
      obtain ⟨rfl, hdepth⟩ := hcomma
      have hcut :
          Utf8.slice pass.start (Utf8.encode (closed ++ current)).length body = current := by
        rw [hstart, hbody]
        exact Utf8.slice_append closed current (',' :: rest)
      rw [next_comma hdepth, hcut, ← List.append_nil (closed ++ current ++ [','])]
      refine (@ih _ (closed ++ current ++ [',']) [] ?_ ?_).trans (outcome_cut hdepth hdepth rfl)
      · rw [hbody, List.append_nil, List.append_assoc _ [','], List.singleton_append]
      · rw [Utf8.length_encode_concat]
        rfl
    · have hother : c = ',' → pass.depth ≠ 0 := fun hc hdepth => hcomma ⟨hc, hdepth⟩
      exact hpush (next_other hopen hclose hother) rfl rfl
        (splitFields_cons hopen hclose hother rest)

end FieldPass

theorem tupleFields_eq (body : List Char) :
    tupleFields body =
      match splitFields 0 body with
      | some fields => .ok fields
      | none => notAType body :=
  @FieldPass.run_eq body {} [] [] body rfl rfl

theorem tupleFields_eq_ok_iff {body : List Char} {fields : List (List Char)} :
    tupleFields body = .ok fields ↔ splitFields 0 body = some fields := by
  rw [tupleFields_eq]
  split
  · next found hfound => rw [hfound, Except.ok.injEq, Option.some.injEq]
  · next hnone => exact ⟨fun h => (nomatch h), fun h => (nomatch hnone.symm.trans h)⟩

theorem tupleFields_eq_error_iff {body : List Char} {e : AbiError} :
    tupleFields body = .error e ↔
      splitFields 0 body = none ∧ e = .typeParse (String.ofList body) := by
  rw [tupleFields_eq]
  split
  · next found hfound => exact ⟨fun h => (nomatch h), fun h => (nomatch hfound.symm.trans h.1)⟩
  · next hnone => exact ⟨fun h => ⟨hnone, (Except.error.inj h).symm⟩, fun h => by rw [h.2]; rfl⟩

end AbiType

end ChainClient
