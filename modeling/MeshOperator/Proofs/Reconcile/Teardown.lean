import MeshOperator.Proofs.Reconcile.Writes

/-!
# Taking a revision down

A call for a revision that is being deleted reads the revision and, if the revision waits for the operator,
removes the releases of all charts, one after the other. Beside notes it does nothing else: it installs
nothing, patches no object, writes no status and sends no event.

* `Reconcile.deeds_of_dying`: what such a call may do at all.
* `Reconcile.works_finalize`: the works of taking a revision down are the removals of its charts.
* `Reconcile.takesDown`: what is done in which order, when the call returns, and what it raises otherwise.
-/

namespace MeshOperator

/-- what a call for a revision that is being deleted may do -/
def Deed.removing : List Deed := [.note, .reading, .toolRun]

namespace Reconcile

open MeshOperator.Chart (Removes removes_uninstall)

variable {cfg : Config} {c : Cluster} {k : Key} {r : Revision} {call : Action Unit}

/-! ### Taking down -/

theorem works_finalize (waits : r.hasFinalizer = true) :
    (finalize cfg r).works c = (Chart.uninstall cfg r.key (cniCharts ++ controlCharts)).works c := by
  rw [finalize, if_pos waits, uninstallCharts_eq,
    Action.works_bind_of_idle c (.log ..) (idle_log ..) (Action.outcome_log ..)]
  exact Action.works_bind_idle c fun _ => idle_log ..

/-- a revision that does not wait for the operator is passed over -/
theorem finalize_of_free (free : r.hasFinalizer = false) : finalize cfg r = pure () := by
  rw [finalize, free]
  rfl

theorem removes_finalize (waits : r.hasFinalizer = true) :
    Removes cfg c r.key (cniCharts ++ controlCharts) ((finalize cfg r).works c)
      ((finalize cfg r).outcome c = .ok ()) (fun f => (finalize cfg r).outcome c = .error f) := by
  rw [works_finalize waits, outcome_finalize waits]
  exact removes_uninstall _

/-! ### From the key on -/

section Dying

variable (read : (Api.getRevision k).outcome c = .ok (some r)) (dying : r.isTerminating = true)
include read dying

theorem outcome_reconcile_of_dying : (reconcile cfg k).outcome c = (finalize cfg r).outcome c := by
  rw [outcome_reconcile_of_read read, if_pos dying]

theorem after_reconcile_of_dying : (reconcile cfg k).after c = c := by
  have hafter : (reconcile cfg k).after c = _ := congrArg Prod.snd (ends_reconcile_of_read read)
  rw [hafter, if_pos dying, Action.ends, (quiet_finalize cfg r).after_eq]

/-- reading and noting aside, a call does what taking the revision down does -/
theorem picked_of_dying {p : Entry → Bool} (hcall : Reconciles cfg k call)
    (hp : ∀ e : Entry, e.deed ∈ [Deed.note, .reading] → p e = false) :
    call.picked p c = (finalize cfg r).picked p c := by
  have hnote : [Deed.note] ⊆ [Deed.note, .reading] := by decide
  rw [hcall.picked_eq fun e he => hp e (hnote he), picked_reconcile hp, read]
  dsimp only
  rw [if_pos dying]

theorem deeds_of_dying (hcall : Reconciles cfg k call) :
    ∀ e ∈ call.journal c, e.deed ∈ Deed.removing := by
  -- no entry of another sort is left over
  have hnone : call.picked (fun e => decide (e.deed ∉ Deed.removing)) c = [] := by
    rw [picked_of_dying read dying hcall fun e he => ?_]
    · refine (makes_finalize cfg r).picked_eq_nil c fun e he => ?_
      exact decide_eq_false (not_not_intro ((by decide : [Deed.note, .toolRun] ⊆ Deed.removing) he))
    · exact decide_eq_false (not_not_intro ((by decide : [Deed.note, .reading] ⊆ Deed.removing) he))
  intro e he
  have hnot := List.filter_eq_nil_iff.1 hnone e he
  exact Classical.not_not.1 fun h => hnot (decide_eq_true h)

theorem works_of_dying (hcall : Reconciles cfg k call) :
    call.works c = (finalize cfg r).works c := by
  have hidle : [Deed.note, .reading] ⊆ Deed.idle := by decide
  exact picked_of_dying read dying hcall fun e he => Action.isWork_of_idle e (hidle he)

/-- **Taking down.**  A call for a revision that is being deleted does nothing but notes, the reading and
runs of the chart tool, and leaves the cluster as it is. It does no works and returns if the revision does
not wait for the operator. Otherwise it removes the releases of the charts in order, the node agent's
first: it returns if all are tried and every reply is passed over, and else it stops at the first other
reply and raises the fault of that chart, in a handler by asking for another try. -/
theorem takesDown (hcall : Reconciles cfg k call) :
    (∀ e ∈ call.journal c, e.deed ∈ Deed.removing) ∧ call.after c = c ∧
    (r.hasFinalizer = false → call.works c = [] ∧ call.outcome c = .ok ()) ∧
    (r.hasFinalizer = true →
      Removes cfg c r.key (cniCharts ++ controlCharts) (call.works c) (call.outcome c = .ok ())
        (fun f => Raises cfg k c f call)) := by
  have hworks : call.works c = (finalize cfg r).works c := works_of_dying read dying hcall
  have houtcome : (reconcile cfg k).outcome c = (finalize cfg r).outcome c :=
    outcome_reconcile_of_dying read dying
  refine ⟨deeds_of_dying read dying hcall, ?_, ?_, ?_⟩
  · rw [hcall.after_eq, after_reconcile_of_dying read dying]
  · intro free
    rw [hworks, hcall.outcome_eq_ok, houtcome, finalize_of_free free]
    exact ⟨rfl, rfl⟩
  · intro waits
    refine (removes_finalize waits).of_works hworks ?_ fun f hf => ?_
    · rw [hcall.outcome_eq_ok, houtcome]
    · exact hcall.raises (houtcome.trans hf)

end Dying

end Reconcile

/-- The cluster of `Cluster.dying`, where the node agent was never installed and the chart tool does not
end when it is to remove the last chart. -/
def Cluster.obstructed : Cluster :=
  { dying "" with replies := [
      ("uninstall default-cni",
        .ended 1 "" "Error: uninstall: Release not loaded: default-cni: release: not found"),
      ("uninstall default-istiod", .tooSlow)] }

open Reconcile in
/-- all three removals are tried, and the handler asks for another try because of the last -/
theorem Cluster.takesDown_obstructed :
    (Handler.revision .standard .sole 0).works obstructed =
      Chart.removals .standard .sole ["cni", "base", "istiod"] ∧
    Raises .standard .sole obstructed (.chart "istiod" "uninstall" "helm timed out after 300.0s")
      (Handler.revision .standard .sole 0) := by
  have held : obstructed.Holds .sole .dying := ⟨rfl, ⟨_, rfl, rfl⟩, rfl⟩
  obtain ⟨-, -, -, hremoves⟩ := takesDown held.outcome_getRevision rfl
    (.inr ⟨0, rfl⟩ : Reconciles .standard .sole (Handler.revision .standard .sole 0))
  obtain ⟨hworks, f, hone, hraises⟩ := (hremoves (by decide)).stops ["cni", "base"] "istiod" [] rfl
    (by decide +kernel) (by decide +kernel)
  have hslow : (Chart.uninstallOne .standard .sole "istiod").outcome obstructed =
      .error (.chart "istiod" "uninstall" "helm timed out after 300.0s") := rfl
  cases hone.symm.trans hslow
  exact ⟨hworks, hraises⟩

end MeshOperator
