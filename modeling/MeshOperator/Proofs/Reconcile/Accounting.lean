import MeshOperator.Proofs.Reconcile.Deletion
import MeshOperator.Proofs.Reconcile.Sequence

/-!
# Every call is accounted for

A handler counts the result of its reconcile once and takes its duration once, whichever way the reconcile ends.
Nothing that is done on the way counts results or durations, and the two that are counted at the end follow from
how it ends.

* `Entry.isAccount`: the count of the result or of the duration of a reconcile.
* `Action.Unaccounted`: an action that counts neither.
* `Reconcile.unaccounted_attempt`: what is done on the way counts neither.
* `Reconcile.resultOf`: the result that a reconcile is counted with.
* `Reconcile.accounted`: what a handler counts, and what it raises.
-/

namespace MeshOperator

/-- whether an entry counts the result of a reconcile, or its duration -/
def Entry.isAccount : Entry → Bool
  | .count (.reconcile _) | .count .duration => true
  | _ => false

namespace Entry

/-- only notes count results and durations -/
theorem isAccount_of_deed {e : Entry} (h : e.deed ≠ .note) : e.isAccount = false := by
  unfold isAccount
  split
  · exact absurd rfl h
  · exact absurd rfl h
  · rfl

/-- remarks on work on charts count operations on charts only -/
theorem isAccount_of_isRemark {e : Entry} (h : e.isRemark = true) : e.isAccount = false := by
  unfold isRemark at h
  split at h
  · rfl
  · rfl
  · cases h

end Entry

/-- The action counts no result of a reconcile, and no duration. -/
def Action.Unaccounted {α : Type} (a : Action α) : Prop := a.Writes fun e => e.isAccount = false

theorem Action.Unaccounted.picked_eq_nil {α : Type} {a : Action α} (h : a.Unaccounted) (c : Cluster) :
    a.picked Entry.isAccount c = [] :=
  List.filter_eq_nil_iff.2 fun e he => by simp [h.holds c e he]

namespace Reconcile

variable {cfg : Config} {c : Cluster} {k : Key} {retry : Int}

/-! ### On the way -/

theorem unaccounted_finalize (cfg : Config) (r : Revision) : (finalize cfg r).Unaccounted :=
  (steady_finalize id (fun _ => Entry.isAccount_of_isRemark) (fun _ _ => rfl) cfg).writes

theorem unaccounted_converge (cfg : Config) (r : Revision) : (converge cfg r).Unaccounted := by
  have hpatch (e : Entry) (he : e.deed = .objectPatch) : e.isAccount = false :=
    Entry.isAccount_of_deed fun hnote => by cases he.symm.trans hnote
  have hbeside (e : Entry) (he : e.deed ∈ [Deed.reading, .event, .statusPatch]) : e.isAccount = false :=
    Entry.isAccount_of_deed fun hnote => by
      rw [hnote] at he
      exact absurd he (by decide)
  refine writes_converge (fun _ => rfl) hbeside ?_
  exact (steady_installPhase id hpatch (fun _ => Entry.isAccount_of_isRemark) (fun _ _ => rfl) cfg).writes

/-- whichever way a reconcile takes, nothing on it counts a result or a duration -/
theorem unaccounted_attempt (cfg : Config) (k : Key) : (attempt cfg k).Unaccounted := by
  have hread : (Api.getRevision k).Unaccounted := ⟨fun c e he => by
    rw [Api.journal_getRevision, List.mem_singleton] at he
    rw [he]
    rfl⟩
  refine hread.bind fun found => ?_
  cases found with
  | none => exact (Action.Writes.log _ _ _ fun _ => rfl).bind fun _ => .pure _
  | some r =>
    dsimp only
    split
    · exact (unaccounted_finalize cfg r).bind fun _ => .pure _
    · exact (unaccounted_converge cfg r).bind fun _ => .pure _

/-! ### At the end -/

/-- the result that a reconcile is counted with -/
def resultOf (cfg : Config) (k : Key) (c : Cluster) : ReconcileResult :=
  match (attempt cfg k).outcome c with
  | .ok result => result
  | .error _ => .error

/-- a reconcile counts its result, and takes its duration -/
theorem accounts_reconcile (cfg : Config) (k : Key) (c : Cluster) :
    (reconcile cfg k).picked Entry.isAccount c =
      [.count (.reconcile (resultOf cfg k c)), .count .duration] := by
  have hattempt := (unaccounted_attempt cfg k).picked_eq_nil c
  rw [reconcile, Action.picked_tryCatch, Action.picked_bind, Action.outcome_bind, hattempt, resultOf]
  cases (attempt cfg k).outcome c with
  | ok result => rfl
  | error f => rfl

/-- a handler counts nothing on its own -/
theorem accounts_handler (cfg : Config) (k : Key) (retry : Int) (c : Cluster) :
    (Handler.revision cfg k retry).picked Entry.isAccount c =
      [.count (.reconcile (resultOf cfg k c)), .count .duration] := by
  rw [Handler.revision, Action.picked_tryCatch, accounts_reconcile]
  cases (reconcile cfg k).outcome c with
  | ok u => rfl
  | error f => rfl

/-! ### Which result it is -/

/-- reading the revision is answered with the words that nothing is there -/
def Misses (c : Cluster) (k : Key) : Prop :=
  (c.answer .getRevision = .ok () ∧ c.revision? k = none) ∨
    ∃ code reason, c.answer .getRevision = .error (.api code reason) ∧ code.same Api.notFound = true

theorem outcome_getRevision_eq_none : (Api.getRevision k).outcome c = .ok none ↔ Misses c k := by
  rw [Api.outcome_getRevision, Cluster.seen, Misses]
  cases c.answer .getRevision with
  | ok u =>
    cases c.revision? k with
    | none => simp
    | some d =>
      dsimp only
      cases Revision.ofData d <;> simp [Except.map]
  | error f =>
    cases f with
    | api code reason => cases hcode : code.same Api.notFound <;> simp [hcode]
    | _ => simp

/-- how a reconcile goes before its result is counted -/
theorem outcome_attempt :
    (attempt cfg k).outcome c =
      match (Api.getRevision k).outcome c with
      | .error f => .error f
      | .ok none => .ok .skipped
      | .ok (some r) =>
        match (if r.isTerminating then finalize cfg r else converge cfg r).outcome c with
        | .error f => .error f
        | .ok () => .ok .success := by
  cases hread : (Api.getRevision k).outcome c with
  | error f =>
    rw [attempt, (Api.quiet_getRevision k).outcome_bind, hread]
    rfl
  | ok found =>
    cases found with
    | none =>
      rw [attempt, (Api.quiet_getRevision k).outcome_bind, hread]
      rfl
    | some r =>
      have hend : (attempt cfg k).outcome c = _ := congrArg Prod.fst (ends_attempt_of_read hread)
      rw [hend]
      dsimp only
      cases (if r.isTerminating then finalize cfg r else converge cfg r).outcome c <;> rfl

/-- a reconcile is skipped if there is no revision to read, and only then -/
theorem resultOf_eq_skipped : resultOf cfg k c = .skipped ↔ Misses c k := by
  rw [← outcome_getRevision_eq_none, resultOf, outcome_attempt]
  cases (Api.getRevision k).outcome c with
  | error f => simp
  | ok found =>
    cases found with
    | none => simp
    | some r =>
      dsimp only
      cases (if r.isTerminating then finalize cfg r else converge cfg r).outcome c with
      | ok u => simp
      | error f => simp

theorem outcome_reconcile_eq_error {f : Fault} :
    (reconcile cfg k).outcome c = .error f ↔ (attempt cfg k).outcome c = .error f := by
  have hend : (reconcile cfg k).outcome c = _ := congrArg Prod.fst ends_reconcile
  rw [hend]
  cases (attempt cfg k).outcome c with
  | ok result => simp [bind, Except.bind]
  | error g => simp [bind, Except.bind]

/-- it is counted as an error exactly if it ends with a fault -/
theorem resultOf_eq_error : resultOf cfg k c = .error ↔ ∃ f, (reconcile cfg k).outcome c = .error f := by
  simp only [outcome_reconcile_eq_error]
  rw [resultOf, outcome_attempt]
  cases (Api.getRevision k).outcome c with
  | error f => simp
  | ok found =>
    cases found with
    | none => simp
    | some r =>
      dsimp only
      cases (if r.isTerminating then finalize cfg r else converge cfg r).outcome c with
      | ok u => simp
      | error f => simp

/-- **Accounting.**  In whatever cluster a handler is called, and after however many tries, it counts one result of a
reconcile and takes one duration, and no more of either. The result is that the reconcile was skipped exactly if there
is no revision to read, and that it failed exactly if it ended with a fault; otherwise it is a success. A handler
returns unless a failure was counted, and asks for another try in place of every fault, after the delay for this many
tries, with the fault as the cause and with its sentence. -/
theorem accounted (cfg : Config) (k : Key) (retry : Int) (c : Cluster) :
    (Handler.revision cfg k retry).picked Entry.isAccount c =
      [.count (.reconcile (resultOf cfg k c)), .count .duration] ∧
    (resultOf cfg k c = .skipped ↔ Misses c k) ∧
    (resultOf cfg k c = .error ↔ ∃ f, (reconcile cfg k).outcome c = .error f) ∧
    ((Handler.revision cfg k retry).outcome c = .ok () ↔ resultOf cfg k c ≠ .error) ∧
    ∀ f, (reconcile cfg k).outcome c = .error f →
      (Handler.revision cfg k retry).outcome c = .error (.requeue f (cfg.backoff retry)) ∧
      (Fault.requeue f (cfg.backoff retry)).message = f.message := by
  refine ⟨accounts_handler cfg k retry c, resultOf_eq_skipped, resultOf_eq_error, ?_, fun f hf => ⟨?_, rfl⟩⟩
  · have hcall : Reconciles cfg k (Handler.revision cfg k retry) := .inr ⟨retry, rfl⟩
    rw [hcall.outcome_eq_ok, Ne, resultOf_eq_error]
    cases (reconcile cfg k).outcome c <;> simp
  · exact outcome_handler_eq_error.2 hf

end Reconcile

namespace Cluster

open Reconcile

/-- A revision whose first chart is not installed to the end is counted as a failure, and asked for again. -/
theorem accounted_halfInstalled :
    (Handler.revision .standard .sole 3).picked Entry.isAccount halfInstalled =
      [.count (.reconcile .error), .count .duration] ∧
    ∃ f, (Handler.revision .standard .sole 3).outcome halfInstalled =
        .error (.requeue f (Config.standard.backoff 3)) ∧
      f.message = "failed to install chart base: Error: timed out" := by
  have hcomplaint : (reconcile .standard .sole).complaint? halfInstalled =
      some "failed to install chart base: Error: timed out" := by decide +kernel
  obtain ⟨f, hf, hmessage⟩ := Action.exists_of_complaint? hcomplaint
  obtain ⟨haccounts, -, herror, -, hraises⟩ := accounted .standard .sole 3 halfInstalled
  rw [herror.2 ⟨f, hf⟩] at haccounts
  exact ⟨haccounts, f, (hraises f hf).1, hmessage⟩

end Cluster

end MeshOperator
