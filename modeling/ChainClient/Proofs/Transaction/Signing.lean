import ChainClient.Proofs.Outcome
import ChainClient.Transaction.Signing

/-!
# `ChainClient.Proofs.Transaction.Signing` — signing does everything or nothing

Signing works on a transaction in place: whatever it sets before it fails stays set. That nothing is
set before the last signature is there is what keeps a transaction whole, whichever signer fails.

## Contents
- **Steps.** `signInPlace_eq` is the attempt as a case distinction, and `run_forM_addCosigner` the
  loop that adds the cosigners.
- **Failures.** `Transaction.SigningFails` is the first thing to go wrong, by its place among the
  signers; `signEach_eq_error_iff` finds it.
- **One attempt.** `signInPlace_all_or_nothing`.
- **Any number of attempts.** `Transaction.attempts` signs again and again. `signingHash_attempts`:
  the hash stays; `cosigned_attempts`: signatures and keys stay side by side.
-/

namespace ChainClient

namespace Transaction

/-! ## Steps -/

/-- A step that only computes leaves the transaction as it is, and ends the run if it fails. -/
theorem runOn_lift_bind {α β : Type} (tx : Transaction) (x : Except ClientError α)
    (f : α → SigningM β) :
    tx.runOn (liftM x >>= f) =
      match x with
      | .error e => (.error e, tx)
      | .ok a => tx.runOn (f a) := by
  cases x <;> rfl

/-- The loop adds the signatures and keys in their order. -/
theorem run_forM_addCosigner (pairs : List (String × String)) (tx : Transaction) :
    tx.runOn (pairs.forM addCosigner) =
      (.ok (), { tx with
        cosignatures := tx.cosignatures ++ pairs.map Prod.fst
        cosignerKeys := tx.cosignerKeys ++ pairs.map Prod.snd }) := by
  induction pairs generalizing tx with
  | nil =>
    rw [List.map_nil, List.map_nil, List.append_nil, List.append_nil]
    rfl
  | cons pair pairs ih =>
    have hstep : tx.runOn ((pair :: pairs).forM addCosigner) =
        runOn { tx with
          cosignatures := tx.cosignatures ++ [pair.1]
          cosignerKeys := tx.cosignerKeys ++ [pair.2] } (pairs.forM addCosigner) := rfl
    rw [hstep, ih, List.append_assoc, List.append_assoc]
    rfl

/-- **The steps of signing.** Up to the last signature, a failure leaves the transaction as it
    was. -/
theorem signInPlace_eq (tx : Transaction) (base : UInt64) (signer : Signer)
    (cosigners : List Signer) :
    tx.signInPlace base signer cosigners =
      match tx.signingHash base with
      | .error e => (.error e, tx)
      | .ok hash =>
        match signer.sign hash with
        | .error e => (.error e, tx)
        | .ok signature =>
          match signEach hash cosigners with
          | .error e => (.error e, tx)
          | .ok pairs =>
            (.ok (), { tx with
              signature := Hex.marked signature
              publicKey := Hex.marked signer.publicKey
              cosignatures := tx.cosignatures ++ pairs.map Prod.fst
              cosignerKeys := tx.cosignerKeys ++ pairs.map Prod.snd }) := by
  -- three steps that only compute, and then the steps that set fields, none of which can fail
  show tx.runOn (liftM (tx.signingHash base) >>= fun hash =>
    liftM (signer.sign hash) >>= fun signature => liftM (signEach hash cosigners) >>= _) = _
  rw [runOn_lift_bind]
  cases tx.signingHash base with
  | error e => rfl
  | ok hash =>
    simp only
    rw [runOn_lift_bind]
    cases signer.sign hash with
    | error e => rfl
    | ok signature =>
      simp only
      rw [runOn_lift_bind]
      cases signEach hash cosigners with
      | error e => rfl
      | ok pairs => exact run_forM_addCosigner pairs _

/-! ## Failures -/

/-- The first of several signers that cannot sign a hash, and its error. -/
def FirstFailure (hash : Digest) (signers : List Signer) (e : ClientError) : Prop :=
  ∃ before failing after, signers = before ++ failing :: after ∧
    (∀ signer ∈ before, ∃ signature, signer.sign hash = .ok signature) ∧
    failing.sign hash = .error e

/-- **What goes wrong first.** The hash cannot be made, or one signer cannot sign it and all before
    it can. The signer of the transaction comes before its cosigners. -/
inductive SigningFails (tx : Transaction) (base : UInt64) (signer : Signer)
    (cosigners : List Signer) (e : ClientError) : Prop where
  | hash (h : tx.signingHash base = .error e)
  | signature {hash : Digest} (hhash : tx.signingHash base = .ok hash)
      (h : FirstFailure hash (signer :: cosigners) e)

/-- The texts of a signature and of the public key of its signer. -/
def pairText (signed : Signer × Bytes) : String × String :=
  (Hex.marked signed.2, Hex.marked signed.1.publicKey)

theorem signEach_eq_ok_iff {hash : Digest} {signers : List Signer}
    {pairs : List (String × String)} :
    signEach hash signers = .ok pairs ↔
      ∃ signatures,
        List.Forall₂ (fun s signature => s.sign hash = .ok signature) signers signatures ∧
        pairs = (signers.zip signatures).map pairText := by
  induction signers generalizing pairs with
  | nil =>
    constructor
    · intro h
      cases h
      exact ⟨[], .nil, rfl⟩
    · rintro ⟨signatures, hall, rfl⟩
      cases hall
      rfl
  | cons s signers ih =>
    rw [signEach, Outcome.bind_eq_ok_iff]
    constructor
    · rintro ⟨signature, hsignature, h⟩
      obtain ⟨rest, hrest, h⟩ := Outcome.bind_eq_ok_iff.mp h
      cases h
      obtain ⟨signatures, hall, rfl⟩ := ih.mp hrest
      exact ⟨signature :: signatures, .cons hsignature hall, rfl⟩
    · rintro ⟨signatures, hall, rfl⟩
      cases hall with
      | cons hsignature hall =>
        refine ⟨_, hsignature, ?_⟩
        rw [ih.mpr ⟨_, hall, rfl⟩]
        rfl

/-- The signatures of as many signers, in their order. -/
theorem map_fst_pairText {signers : List Signer} {signatures : List Bytes}
    (h : signers.length = signatures.length) :
    ((signers.zip signatures).map pairText).map Prod.fst = signatures.map Hex.marked := by
  rw [List.map_map]
  show (signers.zip signatures).map (Hex.marked ∘ Prod.snd) = _
  rw [← List.map_map, List.map_snd_zip (Nat.le_of_eq h.symm)]

/-- The public keys of the signers, in their order. -/
theorem map_snd_pairText {signers : List Signer} {signatures : List Bytes}
    (h : signers.length = signatures.length) :
    ((signers.zip signatures).map pairText).map Prod.snd =
      signers.map fun s => Hex.marked s.publicKey := by
  rw [List.map_map]
  show (signers.zip signatures).map ((fun s => Hex.marked s.publicKey) ∘ Prod.fst) = _
  rw [← List.map_map, List.map_fst_zip (Nat.le_of_eq h)]

/-- Either the first signer fails, or it signs and a later one is the first to fail. -/
theorem firstFailure_cons_iff {hash : Digest} {s : Signer} {signers : List Signer}
    {e : ClientError} :
    FirstFailure hash (s :: signers) e ↔
      s.sign hash = .error e ∨
        (∃ signature, s.sign hash = .ok signature) ∧ FirstFailure hash signers e := by
  constructor
  · rintro ⟨before, failing, after, hsplit, hbefore, hfailing⟩
    cases before with
    | nil =>
      obtain ⟨rfl, rfl⟩ := List.cons.inj hsplit
      exact .inl hfailing
    | cons first before =>
      obtain ⟨rfl, rfl⟩ := List.cons.inj hsplit
      refine .inr ⟨hbefore s List.mem_cons_self, before, failing, after, rfl, ?_, hfailing⟩
      exact fun other hother => hbefore other (List.mem_cons_of_mem s hother)
  · rintro (h | ⟨hs, before, failing, after, rfl, hbefore, hfailing⟩)
    · exact ⟨[], s, signers, rfl, by simp, h⟩
    · refine ⟨s :: before, failing, after, rfl, ?_, hfailing⟩
      intro other hother
      rcases List.mem_cons.mp hother with rfl | hother
      · exact hs
      · exact hbefore other hother

/-- The signatures are asked for in order, and the first failure ends the asking. -/
theorem signEach_eq_error_iff {hash : Digest} {signers : List Signer} {e : ClientError} :
    signEach hash signers = .error e ↔ FirstFailure hash signers e := by
  induction signers with
  | nil =>
    constructor
    · intro h
      cases h
    · rintro ⟨before, failing, after, hsplit, _⟩
      exact absurd hsplit.symm (List.append_ne_nil_of_right_ne_nil before (List.cons_ne_nil _ _))
  | cons s signers ih =>
    rw [firstFailure_cons_iff, ← ih, signEach]
    cases s.sign hash with
    | error e' => simp [bind, Except.bind]
    | ok signature =>
      cases signEach hash signers with
      | error e' => simp [bind, Except.bind]
      | ok rest => simp [bind, Except.bind, pure, Except.pure]

/-! ## One attempt -/

/-- **What signing leaves.** The signature and the key of the signer are set. Those of the cosigners
    follow the ones that were there, in the order of the cosigners. All signatures are over the one
    hash, and no other field is set. -/
inductive SignedAs (tx : Transaction) (base : UInt64) (signer : Signer) (cosigners : List Signer) :
    Transaction → Prop where
  | intro {hash : Digest} {signature : Bytes} {cosignatures : List Bytes}
      (hhash : tx.signingHash base = .ok hash)
      (hsignature : signer.sign hash = .ok signature)
      (hcosignatures :
        List.Forall₂ (fun s cosignature => s.sign hash = .ok cosignature) cosigners cosignatures) :
      SignedAs tx base signer cosigners { tx with
        signature := Hex.marked signature
        publicKey := Hex.marked signer.publicKey
        cosignatures := tx.cosignatures ++ cosignatures.map Hex.marked
        cosignerKeys := tx.cosignerKeys ++ cosigners.map fun s => Hex.marked s.publicKey }

/-- Signatures do not enter the hash that is signed. -/
theorem SignedAs.signingHash_eq {tx signed : Transaction} {base : UInt64} {signer : Signer}
    {cosigners : List Signer} (h : tx.SignedAs base signer cosigners signed) (base' : UInt64) :
    signed.signingHash base' = tx.signingHash base' := by
  cases h
  rfl

/-- **Failed attempts.** The first error is the outcome, and the transaction is as it was. -/
theorem signInPlace_of_fails {tx : Transaction} {base : UInt64} {signer : Signer}
    {cosigners : List Signer} {e : ClientError} (h : tx.SigningFails base signer cosigners e) :
    tx.signInPlace base signer cosigners = (.error e, tx) := by
  rw [signInPlace_eq]
  cases h with
  | hash h => rw [h]
  | @signature hash hhash h =>
    rw [hhash]
    -- the signer comes first; a cosigner is asked only after it signed
    rcases firstFailure_cons_iff.mp h with h | ⟨⟨signature, hsignature⟩, h⟩
    · simp only [h]
    · simp only [hsignature, signEach_eq_error_iff.mpr h]

/-- **Attempts that do not fail.** The hash is made, every signer signs it, and the signatures and
    keys go to their places. -/
theorem signInPlace_of_not_fails {tx : Transaction} {base : UInt64} {signer : Signer}
    {cosigners : List Signer} (hfails : ∀ e, ¬ tx.SigningFails base signer cosigners e) :
    ∃ signed, tx.SignedAs base signer cosigners signed ∧
      tx.signInPlace base signer cosigners = (.ok (), signed) := by
  rw [signInPlace_eq]
  cases hhash : tx.signingHash base with
  | error e => exact absurd (.hash hhash) (hfails e)
  | ok hash =>
    cases hsignature : signer.sign hash with
    | error e =>
      have hfirst : FirstFailure hash (signer :: cosigners) e :=
        firstFailure_cons_iff.mpr (.inl hsignature)
      exact absurd (.signature hhash hfirst) (hfails e)
    | ok signature =>
      cases hpairs : signEach hash cosigners with
      | error e =>
        have hlater := signEach_eq_error_iff.mp hpairs
        have hfirst : FirstFailure hash (signer :: cosigners) e :=
          firstFailure_cons_iff.mpr (.inr ⟨⟨signature, hsignature⟩, hlater⟩)
        exact absurd (.signature hhash hfirst) (hfails e)
      | ok pairs =>
        obtain ⟨cosignatures, hall, rfl⟩ := signEach_eq_ok_iff.mp hpairs
        refine ⟨_, .intro hhash hsignature hall, ?_⟩
        simp only [hsignature, hpairs, map_fst_pairText hall.length_eq,
          map_snd_pairText hall.length_eq]

/-- **Signing is all or nothing.** Whatever fails first, its error is the outcome and the
    transaction is as it was. If nothing fails, the transaction is signed by the signer and the
    cosigners, its other fields are as they were, and so is its hash. -/
theorem signInPlace_all_or_nothing (tx : Transaction) (base : UInt64) (signer : Signer)
    (cosigners : List Signer) :
    (∀ e, tx.SigningFails base signer cosigners e →
      tx.signInPlace base signer cosigners = (.error e, tx)) ∧
    ((∀ e, ¬ tx.SigningFails base signer cosigners e) →
      ∃ signed, tx.SignedAs base signer cosigners signed ∧
        tx.signInPlace base signer cosigners = (.ok (), signed) ∧
        signed.signingHash base = tx.signingHash base) := by
  refine ⟨fun e => signInPlace_of_fails, ?_⟩
  intro hfails
  obtain ⟨signed, hsigned, hrun⟩ := signInPlace_of_not_fails hfails
  exact ⟨signed, hsigned, hrun, hsigned.signingHash_eq base⟩

/-- A transaction whose second cosigner refuses, and the same one with the first cosigner alone. -/
theorem signInPlace_all_or_nothing_of_refusal :
    signInPlace { chain := "2", nonce := "5", value := "7" } 50000 ⟨fun _ => .ok [1], [2]⟩
        [⟨fun _ => .ok [3], [4]⟩, ⟨fun _ => .error (.signingFailed "unplugged"), [6]⟩] =
      (.error (.signingFailed "unplugged"), { chain := "2", nonce := "5", value := "7" }) ∧
    ∃ signed : Transaction,
      signInPlace { chain := "2", nonce := "5", value := "7" } 50000 ⟨fun _ => .ok [1], [2]⟩
        [⟨fun _ => .ok [3], [4]⟩] = (.ok (), signed) ∧
      signed.cosignerKeys = [Hex.marked [4]] := by
  have hhash : signingHash { chain := "2", nonce := "5", value := "7" } 50000 = .ok _ := rfl
  constructor
  · refine (signInPlace_all_or_nothing _ _ _ _).1 _ (.signature hhash ?_)
    refine ⟨[⟨fun _ => .ok [1], [2]⟩, ⟨fun _ => .ok [3], [4]⟩], _, [], rfl, ?_, rfl⟩
    intro signer hsigner
    rcases List.mem_pair.mp hsigner with rfl | rfl
    · exact ⟨[1], rfl⟩
    · exact ⟨[3], rfl⟩
  · have hfails : ∀ e, ¬ SigningFails { chain := "2", nonce := "5", value := "7" } 50000
        ⟨fun _ => .ok [1], [2]⟩ [⟨fun _ => .ok [3], [4]⟩] e := by
      intro e he
      cases he with
      | hash h =>
        rw [hhash] at h
        cases h
      | signature _ h =>
        obtain ⟨before, failing, after, hsplit, _, hfailing⟩ := h
        have hmem : failing ∈ before ++ failing :: after :=
          List.mem_append_right before List.mem_cons_self
        rw [← hsplit] at hmem
        rcases List.mem_pair.mp hmem with rfl | rfl
        · cases hfailing
        · cases hfailing
    obtain ⟨signed, hsigned, hrun, _⟩ := (signInPlace_all_or_nothing _ _ _ _).2 hfails
    refine ⟨signed, hrun, ?_⟩
    cases hsigned
    rfl

/-! ## Any number of attempts -/

/-- The transaction after attempts at signing it, each by a signer and cosigners. -/
def attempts (base : UInt64) (tx : Transaction) (signers : List (Signer × List Signer)) :
    Transaction :=
  signers.foldl (fun tx attempt => (tx.signInPlace base attempt.1 attempt.2).2) tx

/-- A pair of texts is the signature and the key of one of several signers, over the hash of a
    transaction. -/
def IsCosignature (tx : Transaction) (base : UInt64) (signers : List Signer)
    (pair : String × String) : Prop :=
  ∃ hash s signature, tx.signingHash base = .ok hash ∧ s ∈ signers ∧
    s.sign hash = .ok signature ∧ pair = pairText (s, signature)

/-- Pairs that stand behind those of one transaction in the two lists of another. -/
def Extends (tx after : Transaction) (added : List (String × String)) : Prop :=
  after.cosignatures = tx.cosignatures ++ added.map Prod.fst ∧
    after.cosignerKeys = tx.cosignerKeys ++ added.map Prod.snd

theorem Extends.trans {tx middle after : Transaction} {front back : List (String × String)}
    (hfront : Extends tx middle front) (hback : Extends middle after back) :
    Extends tx after (front ++ back) := by
  obtain ⟨hsignatures, hkeys⟩ := hfront
  obtain ⟨hsignatures', hkeys'⟩ := hback
  refine ⟨?_, ?_⟩
  · rw [hsignatures', hsignatures, List.map_append, List.append_assoc]
  · rw [hkeys', hkeys, List.map_append, List.append_assoc]

/-- An attempt keeps the hash, and adds signatures and keys side by side. -/
theorem signInPlace_extends (tx : Transaction) (base : UInt64) (signer : Signer)
    (cosigners : List Signer) :
    (tx.signInPlace base signer cosigners).2.signingHash base = tx.signingHash base ∧
    ∃ added, Extends tx (tx.signInPlace base signer cosigners).2 added ∧
      ∀ pair ∈ added, tx.IsCosignature base cosigners pair := by
  by_cases hfails : ∃ e, tx.SigningFails base signer cosigners e
  · obtain ⟨e, he⟩ := hfails
    rw [signInPlace_of_fails he]
    refine ⟨rfl, [], ⟨?_, ?_⟩, by simp⟩
    · exact (List.append_nil _).symm
    · exact (List.append_nil _).symm
  · obtain ⟨signed, hsigned, hrun⟩ := signInPlace_of_not_fails (not_exists.mp hfails)
    rw [hrun]
    refine ⟨hsigned.signingHash_eq base, ?_⟩
    cases hsigned with
    | @intro hash signature cosignatures hhash _ hall =>
      refine ⟨(cosigners.zip cosignatures).map pairText, ⟨?_, ?_⟩, ?_⟩
      · rw [map_fst_pairText hall.length_eq]
      · rw [map_snd_pairText hall.length_eq]
      · intro pair hpair
        obtain ⟨⟨s, cosignature⟩, hmem, rfl⟩ := List.mem_map.mp hpair
        have hsign := (List.forall₂_iff_zip.mp hall).2 hmem
        exact ⟨hash, s, cosignature, hhash, (List.of_mem_zip hmem).1, hsign, rfl⟩

/-- **The hash stays.** However often a transaction is signed, the hash that is signed is the
    same. -/
theorem signingHash_attempts (base : UInt64) (tx : Transaction)
    (signers : List (Signer × List Signer)) :
    (attempts base tx signers).signingHash base = tx.signingHash base := by
  induction signers generalizing tx with
  | nil => rfl
  | cons attempt signers ih =>
    rw [attempts, List.foldl_cons, ← attempts, ih]
    exact (signInPlace_extends tx base attempt.1 attempt.2).1

/-- **Signatures and keys stay side by side.** After any number of attempts, failed ones among them,
    the two lists hold what they held and then pairs, each of a signature over the hash and the key
    of the cosigner who made it. -/
theorem cosigned_attempts (base : UInt64) (tx : Transaction)
    (signers : List (Signer × List Signer)) :
    ∃ added, Extends tx (attempts base tx signers) added ∧
      ∀ pair ∈ added, tx.IsCosignature base (signers.flatMap Prod.snd) pair := by
  induction signers generalizing tx with
  | nil => exact ⟨[], ⟨(List.append_nil _).symm, (List.append_nil _).symm⟩, by simp⟩
  | cons attempt signers ih =>
    obtain ⟨hhash, front, hfront, hfrontpairs⟩ :=
      signInPlace_extends tx base attempt.1 attempt.2
    obtain ⟨back, hback, hbackpairs⟩ := ih (tx.signInPlace base attempt.1 attempt.2).2
    refine ⟨front ++ back, hfront.trans hback, ?_⟩
    intro pair hpair
    rw [List.flatMap_cons]
    rcases List.mem_append.mp hpair with hpair | hpair
    · obtain ⟨hash, s, cosignature, h, hmem, hsign, rfl⟩ := hfrontpairs pair hpair
      exact ⟨hash, s, cosignature, h, List.mem_append_left _ hmem, hsign, rfl⟩
    · obtain ⟨hash, s, cosignature, h, hmem, hsign, rfl⟩ := hbackpairs pair hpair
      exact ⟨hash, s, cosignature, hhash ▸ h, List.mem_append_right _ hmem, hsign, rfl⟩

end Transaction

end ChainClient
