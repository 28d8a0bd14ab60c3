import MeshOperator.Proofs.Chart.Removal
import MeshOperator.Proofs.Reconcile.Course

/-!
# Letting go of a revision

A revision that is being deleted and waits for the operator is let go when a call for it returns. That
is after the releases of all its charts were removed, were not there, or were taken for not there.

* `Reconcile.outcome_finalize_eq_ok`: when the charts of a revision are taken down.
* `Cluster.Holds.letsGo_iff`: when a call that reconciles such a revision returns.
-/

namespace MeshOperator

namespace Reconcile

variable {cfg : Config} {c : Cluster} {r : Revision}

/-- the charts are removed in a row -/
theorem uninstallCharts_eq (cfg : Config) (r : Revision) :
    uninstallCharts cfg r = Chart.uninstall cfg r.key (cniCharts ++ controlCharts) :=
  Chart.uninstall_append ..

/-- A revision is taken down with a look at the tools only, by runs about the releases that the revision
can have. -/
theorem steady_finalize {R : Cluster → Cluster → Prop} {p : Entry → Prop}
    (htools : ∀ {c d}, R c d → c.SameTools d) (hremark : ∀ e : Entry, e.isRemark = true → p e)
    (hrun : ∀ run : ToolRun, run.command.target ∈ r.key.releases → p (.tool run)) (cfg : Config) :
    (finalize cfg r).Steady R p := by
  unfold finalize
  split
  · refine (Action.Steady.log _ _ _ fun _ => hremark _ rfl).bind fun _ => ?_
    rw [uninstallCharts_eq]
    refine Action.Steady.bind ?_ fun _ => .log _ _ _ fun _ => hremark _ rfl
    refine Chart.steady_uninstall cfg hremark htools r.key fun chart hchart run heq => hrun run ?_
    rw [heq]
    exact Key.releaseOf_mem hchart
  · exact .pure _

theorem quiet_finalize (cfg : Config) (r : Revision) : (finalize cfg r).Quiet :=
  (steady_finalize (p := fun _ => True) id (fun _ _ => trivial) (fun _ _ => trivial) cfg).quiet

/-- it runs the chart tool and does nothing else -/
theorem makes_finalize (cfg : Config) (r : Revision) : (finalize cfg r).Makes [.note, .toolRun] := by
  refine (steady_finalize id ?_ ?_ cfg).makes
  · intro e he
    simp [Entry.deed_of_isRemark he]
  · intro run _
    simp [Entry.deed]

/-- it ends as the removal of all charts does -/
theorem outcome_finalize (waits : r.hasFinalizer = true) :
    (finalize cfg r).outcome c =
      (Chart.uninstall cfg r.key (cniCharts ++ controlCharts)).outcome c := by
  rw [finalize, if_pos waits, uninstallCharts_eq, (Action.Quiet.log ..).outcome_bind,
    Action.outcome_log, ok_bind, (Chart.quiet_uninstall ..).outcome_bind]
  cases (Chart.uninstall cfg r.key (cniCharts ++ controlCharts)).outcome c <;> rfl

/-- the charts are taken down if the reply to each removal is passed over -/
theorem outcome_finalize_eq_ok (waits : r.hasFinalizer = true) :
    (finalize cfg r).outcome c = .ok () ↔
      ∀ chart ∈ cniCharts ++ controlCharts, Chart.Passes (Chart.uninstallReply c r.key chart) := by
  rw [outcome_finalize waits, Chart.outcome_uninstall_eq_ok]

end Reconcile

namespace Cluster.Holds

open Reconcile Chart

variable {cfg : Config} {c : Cluster} {k : Key} {r : Revision} {call : Action Unit}

/-- **Letting go.**  Uninstalling a list of charts succeeds exactly when no removal of a release fails, or
its failure is misread; a complaint that is neither ends the work at its chart. So a call for a revision
that is being deleted and waits for the operator returns exactly when this holds of all its charts. -/
theorem letsGo_iff (held : c.Holds k r) (dying : r.isTerminating = true)
    (waits : r.hasFinalizer = true) (hcall : Reconciles cfg k call) :
    (∀ (o : Key) (charts : List String), (uninstall cfg o charts).outcome c = .ok () ↔
      ∀ chart ∈ charts, ¬ Fails (uninstallReply c o chart) ∨ IsMisread (uninstallReply c o chart)) ∧
    (∀ (o : Key) (done charts : List String) (chart : String) (code : Int) (output errors : String),
      (∀ d ∈ done, ¬ Fails (uninstallReply c o d) ∨ IsMisread (uninstallReply c o d)) →
      uninstallReply c o chart = .ended code output errors →
      Fails (.ended code output errors) → ¬ IsMisread (.ended code output errors) →
      (uninstall cfg o (done ++ chart :: charts)).outcome c =
        .error (fault chart .uninstall (Text.strip errors))) ∧
    (call.outcome c = .ok () ↔ ∀ chart ∈ cniCharts ++ controlCharts,
      ¬ Fails (uninstallReply c k chart) ∨ IsMisread (uninstallReply c k chart)) := by
  simp only [← passes_iff]
  refine ⟨fun o charts => outcome_uninstall_eq_ok, ?_, ?_⟩
  · intro o done charts chart code output errors hdone hreply hfails hmisread
    rw [outcome_uninstall_append hdone]
    refine outcome_uninstall_of_failed hreply fun hpasses => ?_
    exact (passes_iff.1 hpasses).elim (fun h => h hfails) hmisread
  · rw [hcall.outcome_eq_ok, held.outcome_reconcile, dying, if_pos rfl, outcome_finalize_eq_ok waits,
      held.own]

end Cluster.Holds

/-! ### A revision that is being deleted -/

/-- A cluster with one revision, which is being deleted and waits for the operator. The chart tool replies
to each removal with a complaint. -/
def Cluster.dying (complaint : String) : Cluster :=
  { Cluster.sole [("deletionTimestamp", .text "1970-01-01T00:00:00Z"),
      ("finalizers", .list [.text finalizer])] [] with
    replies := [("uninstall", .ended 1 "" complaint)] }

/-- the revision that it is -/
def Revision.dying : Revision :=
  { sole with
    finalizers := [.text finalizer], deletedAt := .text "1970-01-01T00:00:00Z" }

namespace Cluster

open Chart

theorem holds_dying (complaint : String) : (dying complaint).Holds .sole .dying :=
  ⟨rfl, ⟨_, rfl, rfl⟩, rfl⟩

theorem keeps_dying :
    (Handler.revision .standard .sole 0).outcome (dying "Error: context deadline exceeded") ≠
      .ok () := by
  intro h
  have hiff : (Handler.revision .standard .sole 0).outcome
      (dying "Error: context deadline exceeded") = .ok () ↔ _ :=
    ((holds_dying "Error: context deadline exceeded").letsGo_iff rfl (by decide)
      (.inr ⟨0, rfl⟩)).2.2
  simp only [← passes_iff] at hiff
  have hpasses : Passes (uninstallReply (dying "Error: context deadline exceeded") .sole "cni") :=
    hiff.1 h "cni" (by decide)
  exact absurd hpasses (by decide +kernel)

/-- A program that is not found is taken for a release that is not there: the handler returns, and the
release was not removed. -/
theorem abandons_dying :
    (dying "Error: exec: executable aws not found").Holds .sole .dying ∧
    (Handler.revision .standard .sole 0).outcome
        (dying "Error: exec: executable aws not found") = .ok () ∧
    Fails (uninstallReply (dying "Error: exec: executable aws not found") .sole "cni") :=
  ⟨holds_dying _, eq_ok_of_isOk (by decide +kernel), by decide +kernel⟩

end Cluster

end MeshOperator
