import MeshOperator.Proofs.Reconcile.Deletion
import MeshOperator.Proofs.Reconcile.Sequence

/-!
# The writes of a reconcile

A reconcile writes a status in one place only, where it updates the status of the revision that it read,
and there at most once.

* `Action.statusPatches`: the writes of statuses that an action tries.
* `Reconcile.statusPatches_updateStatus`: what an update of the status tries to write.
* `Reconcile.picked_converge`: what a reconcile does where it updates the status.
* `Cluster.Holds.statusPatches_reconcile`: what a reconcile tries to write.
-/

namespace MeshOperator

/-- the deeds that are no writes of statuses, and that a reconcile does beside them -/
def Deed.aside : List Deed := [.note, .reading, .event, .toolRun, .objectPatch]

/-- the deeds of a reconcile before it updates the status, once it has read the revision -/
def Deed.before : List Deed := [.note, .event, .toolRun, .objectPatch]

namespace Action

variable {α β : Type} {a : Action α} {f : α → Action β} (c : Cluster)

/-- the writes of statuses that an action tries -/
def statusPatches (a : Action α) (c : Cluster) : List Entry :=
  a.picked (fun e => e.deed = .statusPatch) c

theorem not_statusPatch_of_aside (e : Entry) (h : e.deed ∈ Deed.aside) :
    decide (e.deed = .statusPatch) = false := by
  revert h
  cases e.deed <;> decide

theorem Makes.statusPatches_aside (h : a.Makes Deed.aside) : a.statusPatches c = [] :=
  h.picked_eq_nil c not_statusPatch_of_aside

theorem statusPatches_bind_aside (hf : ∀ x, (f x).Makes Deed.aside) :
    (a >>= f).statusPatches c = a.statusPatches c :=
  picked_bind_of_makes c hf not_statusPatch_of_aside

theorem statusPatches_tryCatch_aside {h : Fault → Action α} (hh : ∀ e, (h e).Makes Deed.aside) :
    (tryCatch a h).statusPatches c = a.statusPatches c :=
  picked_tryCatch_of_makes c hh not_statusPatch_of_aside

/-- after an action that changes nothing and writes no status, only the next one's writes count -/
theorem statusPatches_bind_of_aside (hquiet : a.Quiet) (haside : a.Makes Deed.aside)
    (f : α → Action β) : (a >>= f).statusPatches c =
      match a.outcome c with
      | .ok x => (f x).statusPatches c
      | .error _ => [] :=
  hquiet.picked_bind_of_makes c haside not_statusPatch_of_aside

end Action

namespace Reconcile

open MeshOperator.Action (Makes)

variable {cfg : Config} {c : Cluster} {k : Key} {r : Revision} {v : Values}
variable {failure : Option Fault} {s : Status}

theorem aside_log (l : Log.Level) (m : String) (fs : List (String × Data)) :
    (Action.log l m fs).Makes Deed.aside :=
  (Makes.log l m fs).mono (by decide)

/-! ### What is written -/

/-- the write of a status -/
def statusPatch (r : Revision) (s : Status) : Entry :=
  .call (.patchStatus r.ns r.name (.object
    [("metadata", .object [("resourceVersion", r.resourceVersion)]), ("status", s.toData)]))

theorem statusPatches_writeStatus :
    (writeStatus r s failure).statusPatches c = [statusPatch r s] := by
  have hcall : (Api.patchStatus r s.toData).statusPatches c = [statusPatch r s] :=
    Action.statusPatches_bind_aside c fun _ =>
      Makes.cluster.bind fun _ => (Api.makes_found _).bind fun _ => .change _
  refine (Action.statusPatches_tryCatch_aside c fun e => ?_).trans hcall
  -- a refusal is logged, and raised if there is nothing to raise yet
  split
  · refine (aside_log ..).bind fun _ => ?_
    split
    · exact .throw _
    · exact .pure _
  · exact .throw _

/-- an update tries to write the new status, unless it is the same as the one that was read -/
theorem statusPatches_updateStatus :
    (updateStatus r v failure).statusPatches c =
      match newStatus c r v failure with
      | .error _ => []
      | .ok s => if s.same r.status then [] else [statusPatch r s] := by
  have hevaluate : (Readiness.evaluate r v).Makes Deed.aside :=
    (makes_evaluate r v).mono (by decide)
  unfold updateStatus newStatus
  rw [Action.statusPatches_bind_of_aside c (quiet_evaluate r v) hevaluate]
  cases (Readiness.evaluate r v).outcome c with
  | error f => rfl
  | ok ready =>
    dsimp only
    rw [Action.statusPatches_bind_of_aside c .cluster .cluster, Action.outcome_cluster]
    dsimp only
    rw [Action.statusPatches_bind_of_aside c (.of _) (.of _), Action.outcome_of, ok_bind]
    cases r.status.computeTimed r.generation _ ready (stamp c) with
    | error f => rfl
    | ok s =>
      dsimp only
      split
      · rfl
      · exact statusPatches_writeStatus

section Picked

variable {p : Entry → Bool} (hp : ∀ e : Entry, e.deed ∈ Deed.before → p e = false)
include hp

theorem picked_log_bind {α : Type} (l : Log.Level) (m : String) (fs : List (String × Data))
    (f : Unit → Action α) : (Action.log l m fs >>= f).picked p c = (f ()).picked p c := by
  have hlog : (Action.log l m fs).Makes Deed.before := (Makes.log l m fs).mono (by decide)
  rw [(Action.Quiet.log l m fs).picked_bind_of_makes c hlog hp, Action.outcome_log]

theorem picked_emitEvent_bind {α : Type} (r : Revision) (reason message type : String)
    (f : Unit → Action α) : (Api.emitEvent r reason message type >>= f).picked p c =
      match c.eventOutcome with
      | .error _ => []
      | .ok () => (f ()).picked p c := by
  have hevent : (Api.emitEvent r reason message type).Makes Deed.before :=
    (Api.makes_emitEvent r reason message type).mono (by decide)
  rw [(Api.quiet_emitEvent ..).picked_bind_of_makes c hevent hp, Api.outcome_emitEvent]
  cases c.eventOutcome <;> rfl

theorem picked_refuse :
    (refuse r).picked p c =
      match announced c (some noVersion) with
      | .error _ => []
      | .ok () => (updateStatus r .empty (some noVersion)).picked p c := by
  unfold refuse
  rw [picked_log_bind hp, picked_emitEvent_bind hp, announced_some]
  cases c.eventOutcome <;> rfl

/-- once a fault of the installation was told, all but a note is done where the status is updated -/
theorem picked_record (r : Revision) (v : Values) (failure : Option Fault) : (do
    Action.log .info "Reconciliation done. Updating status."
      (aboutRevision r "reconcile" (if failure.isNone then "ReconcileSucceeded" else "InstallFailed"))
    updateStatus r v failure
    if let some f := failure then throw f : Action Unit).picked p c =
      (updateStatus r v failure).picked p c := by
  rw [picked_log_bind hp]
  refine Action.picked_bind_of_makes c (fun _ => ?_) hp
  cases failure with
  | none => exact .pure _
  | some f => exact .throw f

theorem picked_installAndRecord (h : r.version.truthy = true) :
    (installAndRecord cfg r).picked p c =
      match announced c (installation cfg r c).fault with
      | .error _ => []
      | .ok () => (updateStatus r (installation cfg r c).values
          (installation cfg r c).fault).picked p c := by
  unfold installAndRecord
  have hinstall : (installPhase cfg r).Makes Deed.before := (makes_installPhase cfg r).mono (by decide)
  rw [(quiet_installPhase cfg r).picked_bind_of_makes c hinstall hp, outcome_installPhase h]
  generalize installation cfg r c = i
  obtain ⟨v, failure⟩ := i
  cases failure with
  | none => exact picked_record hp r v none
  | some f =>
    dsimp only
    rw [picked_emitEvent_bind hp, announced_some]
    cases c.eventOutcome with
    | error e => rfl
    | ok u => exact picked_record hp r v (some f)

/-- Installing, telling and noting aside, a reconcile does what updating the status does, if it could tell of
the fault, and nothing otherwise. -/
theorem picked_converge :
    (converge cfg r).picked p c =
      match announced c (installation cfg r c).fault with
      | .error _ => []
      | .ok () => (updateStatus r (installation cfg r c).values
          (installation cfg r c).fault).picked p c := by
  unfold converge
  rw [picked_log_bind hp]
  by_cases h : r.version.truthy = true
  · rw [if_pos h, picked_installAndRecord hp h]
  · rw [if_neg h, picked_refuse hp, installation_of_noVersion h]

end Picked

/-- a reconcile that could tell of the fault updates the status, and writes none but there -/
theorem statusPatches_converge :
    (converge cfg r).statusPatches c =
      match announced c (installation cfg r c).fault with
      | .error _ => []
      | .ok () => (updateStatus r (installation cfg r c).values
          (installation cfg r c).fault).statusPatches c :=
  picked_converge fun e he =>
    Action.not_statusPatch_of_aside e ((by decide : Deed.before ⊆ Deed.aside) he)

theorem aside_finalize (cfg : Config) (r : Revision) : (finalize cfg r).Makes Deed.aside :=
  (makes_finalize cfg r).mono (by decide)

theorem statusPatches_reconcile :
    (reconcile cfg k).statusPatches c =
      match (Api.getRevision k).outcome c with
      | .ok (some r) => if r.isTerminating then [] else (converge cfg r).statusPatches c
      | _ => [] := by
  have hpicked : (reconcile cfg k).statusPatches c = _ := picked_reconcile fun e he =>
    Action.not_statusPatch_of_aside e ((by decide : [Deed.note, .reading] ⊆ Deed.aside) he)
  rw [hpicked]
  cases (Api.getRevision k).outcome c with
  | error f => rfl
  | ok found =>
    cases found with
    | none => rfl
    | some r =>
      dsimp only
      split
      · exact (aside_finalize cfg r).statusPatches_aside c
      · rfl

theorem Reconciles.statusPatches_eq {call : Action Unit} (hcall : Reconciles cfg k call) :
    call.statusPatches c = (reconcile cfg k).statusPatches c :=
  hcall.picked_eq fun e he =>
    Action.not_statusPatch_of_aside e ((by decide : [Deed.note] ⊆ Deed.aside) he)

end Reconcile

theorem Cluster.Holds.statusPatches_reconcile {cfg : Config} {c : Cluster} {k : Key} {r : Revision}
    (held : c.Holds k r) : (Reconcile.reconcile cfg k).statusPatches c =
      if r.isTerminating then [] else (Reconcile.converge cfg r).statusPatches c := by
  rw [Reconcile.statusPatches_reconcile, held.outcome_getRevision]

end MeshOperator
