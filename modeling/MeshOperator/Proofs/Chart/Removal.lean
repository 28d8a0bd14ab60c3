import MeshOperator.Proofs.Chart.Sequence
import MeshOperator.Proofs.Chart.Uninstall

/-!
# The sequence of removals

The releases of charts are removed one after the other, whatever the values of their owner say by then.
Each chart is tried up to the first whose reply is not passed over, and that one too; it ends the work.

* `Chart.removals`: the runs of the chart tool that remove the releases of charts.
* `Chart.works_uninstall`: what is done to remove the releases of charts.
* `Chart.Removes`: the works and the end of such a removal, and `Chart.removes_uninstall` that they are so.
-/

namespace MeshOperator.Chart

open MeshOperator.Action (Quiet)

variable {cfg : Config} {c : Cluster} {o : Key} {chart : String}

/-- the run that removes the release of a chart -/
def removalRun (cfg : Config) (o : Key) (chart : String) : ToolRun :=
  ⟨cfg.helmBinary, .uninstall (release o.name chart) o.ns, none, cfg.helmTimeout⟩

/-- the runs that remove the releases of charts -/
def removals (cfg : Config) (o : Key) (charts : List String) : List Entry :=
  charts.map fun chart => .tool (removalRun cfg o chart)

/-- the reply to the removal of a chart is passed over -/
def passes (c : Cluster) (o : Key) (chart : String) : Bool :=
  decide (Passes (uninstallReply c o chart))

theorem passes_eq_true : passes c o chart = true ↔ Passes (uninstallReply c o chart) :=
  decide_eq_true_iff

/-! ### What is done -/

theorem isWork_of_note (e : Entry) (h : e.deed ∈ [Deed.note]) : e.isWork = false := by
  have hdeed := List.mem_singleton.1 h
  simp [Entry.isWork, hdeed]

/-- one chart is tried by one run, however that ends -/
theorem works_uninstallOne :
    (uninstallOne cfg o chart).works c = [.tool (removalRun cfg o chart)] := by
  have hrun : (runTool cfg chart .uninstall (.uninstall (release o.name chart) o.ns) none).works c =
      [.tool (removalRun cfg o chart)] := works_runTool .uninstall
  refine (Action.picked_bind_of_makes c (fun answer => ?_) isWork_of_note).trans hrun
  dsimp only
  split
  · refine Action.Makes.bind ?_ fun _ => .count _
    exact makes_passOver chart o _
  · exact .count _

theorem works_uninstall (charts : List String) :
    (uninstall cfg o charts).works c = removals cfg o (tried (passes c o) charts) := by
  induction charts with
  | nil => rfl
  | cons chart charts ih =>
    rw [uninstall, (quiet_uninstallOne ..).works_bind, works_uninstallOne, tried, removals,
      List.map_cons]
    by_cases hpass : passes c o chart = true
    · have hone : (uninstallOne cfg o chart).outcome c = .ok () :=
        outcome_uninstallOne_eq_ok.2 (passes_eq_true.1 hpass)
      rw [hone, if_pos hpass, List.singleton_append]
      dsimp only
      rw [ih, removals]
    · rw [if_neg hpass]
      cases hone : (uninstallOne cfg o chart).outcome c with
      | ok u => exact absurd (passes_eq_true.2 (outcome_uninstallOne_eq_ok.1 hone)) hpass
      | error f => rfl

/-- two lists of charts, one after the other, are removed as one -/
theorem uninstall_append (cfg : Config) (o : Key) (as bs : List String) :
    (do uninstall cfg o as; uninstall cfg o bs) = uninstall cfg o (as ++ bs) := by
  induction as with
  | nil => rfl
  | cons a as ih =>
    rw [List.cons_append, uninstall, uninstall, ← ih]
    exact Action.bind_assoc ..

/-! ### How it ends -/

/-- the first reply that is not passed over is the fault that the work ends with -/
theorem outcome_uninstall_stops {done rest : List String}
    (hdone : ∀ d ∈ done, Passes (uninstallReply c o d)) (hchart : ¬ Passes (uninstallReply c o chart)) :
    ∃ f, (uninstallOne cfg o chart).outcome c = .error f ∧
      (uninstall cfg o (done ++ chart :: rest)).outcome c = .error f := by
  rw [outcome_uninstall_append hdone, uninstall, (quiet_uninstallOne ..).outcome_bind]
  cases hone : (uninstallOne cfg o chart).outcome c with
  | ok u => exact absurd (outcome_uninstallOne_eq_ok.1 hone) hchart
  | error f => exact ⟨f, rfl, rfl⟩

/-- Charts are removed in order. What is done is a beginning of the removals of all; the work returns if
it is all of them and each reply is passed over; and otherwise it stops at the first other reply, and
raises the fault that this chart ends with. -/
structure Removes (cfg : Config) (c : Cluster) (o : Key) (charts : List String) (works : List Entry)
    (returns : Prop) (raises : Fault → Prop) : Prop where
  works_begin : works <+: removals cfg o charts
  returns_iff : returns ↔
    works = removals cfg o charts ∧ ∀ chart ∈ charts, Passes (uninstallReply c o chart)
  stops : ∀ done chart rest, charts = done ++ chart :: rest →
    (∀ d ∈ done, Passes (uninstallReply c o d)) → ¬ Passes (uninstallReply c o chart) →
    works = removals cfg o (done ++ [chart]) ∧
      ∃ f, (uninstallOne cfg o chart).outcome c = .error f ∧ raises f

theorem removes_uninstall (charts : List String) :
    Removes cfg c o charts ((uninstall cfg o charts).works c)
      ((uninstall cfg o charts).outcome c = .ok ())
      (fun f => (uninstall cfg o charts).outcome c = .error f) := by
  rw [works_uninstall, outcome_uninstall_eq_ok]
  refine ⟨?_, ?_, ?_⟩
  · exact (tried_begin (passes c o) charts).map _
  · constructor
    · intro hall
      have htried : tried (passes c o) charts = charts :=
        tried_of_all _ fun chart hchart => passes_eq_true.2 (hall chart hchart)
      rw [htried]
      exact ⟨rfl, hall⟩
    · intro h
      exact h.2
  · intro done chart rest hcharts hdone hchart
    subst hcharts
    have htried : tried (passes c o) (done ++ chart :: rest) = done ++ [chart] :=
      tried_stops _ (fun d hd => passes_eq_true.2 (hdone d hd)) fun h => hchart (passes_eq_true.1 h)
    rw [htried]
    exact ⟨rfl, outcome_uninstall_stops hdone hchart⟩

/-- the same of a call that does no other works, and ends as the removal does -/
theorem Removes.of_works {charts : List String} {works works' : List Entry} {returns returns' : Prop}
    {raises raises' : Fault → Prop} (h : Removes cfg c o charts works returns raises)
    (hworks : works' = works) (hreturns : returns' ↔ returns) (hraises : ∀ f, raises f → raises' f) :
    Removes cfg c o charts works' returns' raises' := by
  subst hworks
  refine ⟨h.works_begin, hreturns.trans h.returns_iff, ?_⟩
  intro done chart rest hcharts hdone hchart
  obtain ⟨hstop, f, hone, hf⟩ := h.stops done chart rest hcharts hdone hchart
  exact ⟨hstop, f, hone, hraises f hf⟩

end MeshOperator.Chart
