import MeshOperator.Proofs.Chart.Install
import MeshOperator.Proofs.Reconcile.Course

/-!
# The health that a reconcile records

The state in the status of a revision names the worst of what is wrong: an installation that failed, a
control plane that is not up, a node agent that is wanted and not up.

* `Reconcile.Installs`: all that must go well for an installation without a fault.
* `Reconcile.health`: the state that follows from the installation and from the workloads.
* `Cluster.Holds.storedState?_reconcile`: this is the state that is stored after a reconcile.
-/

namespace MeshOperator.Reconcile

variable {cfg : Config} {c : Cluster} {k : Key} {r : Revision} {v : Values} {failure : Option Fault}

/-! ### An installation without a fault -/

/-- the charts of a revision, those of the node agent first if it is wanted -/
def wantedCharts (cni : Bool) : List String := (if cni then cniCharts else []) ++ controlCharts

/-- All goes well with the installation of a revision with the values `v`: it names a version, its
values are read, overridden and written, and every chart that is wanted is deployed. -/
structure Installs (cfg : Config) (r : Revision) (c : Cluster) (v : Values) : Prop where
  version : r.version.truthy = true
  values : effectiveValues r = .ok v
  written : ∃ text, v.yaml = .ok text
  charts : ∃ cni, v.isCniEnabled = .ok cni ∧
    ∀ chart ∈ wantedCharts cni, Chart.IsDeployed cfg r.version (Chart.ownerOf r) c chart

theorem outcome_installCharts_eq_ok :
    (installCharts cfg r v).outcome c = .ok () ↔
      (∃ text, v.yaml = .ok text) ∧ ∃ cni, v.isCniEnabled = .ok cni ∧
        ∀ chart ∈ wantedCharts cni, Chart.IsDeployed cfg r.version (Chart.ownerOf r) c chart := by
  have hcharts (cni : Bool) :
      (if cni then do
        Chart.install cfg v r.version (Chart.ownerOf r) cniCharts
        Chart.install cfg v r.version (Chart.ownerOf r) controlCharts
      else Chart.install cfg v r.version (Chart.ownerOf r) controlCharts : Action Unit).outcome c
        = .ok () ↔
      (∃ text, v.yaml = .ok text) ∧
        ∀ chart ∈ wantedCharts cni, Chart.IsDeployed cfg r.version (Chart.ownerOf r) c chart := by
    cases cni with
    | false => exact Chart.outcome_install_eq_ok
    | true =>
      rw [if_pos rfl, (Chart.quiet_install ..).outcome_bind_eq_ok, wantedCharts, if_pos rfl,
        List.forall_mem_append]
      constructor
      · rintro ⟨⟨⟩, hcni, hcontrol⟩
        obtain ⟨htext, hcni⟩ := Chart.outcome_install_eq_ok.1 hcni
        exact ⟨htext, hcni, (Chart.outcome_install_eq_ok.1 hcontrol).2⟩
      · rintro ⟨htext, hcni, hcontrol⟩
        exact ⟨(), Chart.outcome_install_eq_ok.2 ⟨htext, hcni⟩,
          Chart.outcome_install_eq_ok.2 ⟨htext, hcontrol⟩⟩
  rw [installCharts, (Action.Quiet.of _).outcome_bind_eq_ok]
  constructor
  · rintro ⟨cni, hcni, h⟩
    obtain ⟨htext, h⟩ := (hcharts cni).1 h
    exact ⟨htext, cni, hcni, h⟩
  · rintro ⟨htext, cni, hcni, h⟩
    exact ⟨cni, hcni, (hcharts cni).2 ⟨htext, h⟩⟩

theorem installation_fault_eq_none :
    (installation cfg r c).fault = none ↔ Installs cfg r c (installation cfg r c).values := by
  by_cases h : r.version.truthy = true
  · rw [installation_of_version h]
    cases hv : effectiveValues r with
    | error f => exact ⟨fun h => (by cases h), fun h => (by cases hv.symm.trans h.values)⟩
    | ok v =>
      dsimp only
      cases hi : (installCharts cfg r v).outcome c with
      | error f =>
        refine ⟨fun h => (by cases h), fun h => ?_⟩
        cases hi.symm.trans (outcome_installCharts_eq_ok.2 ⟨h.written, h.charts⟩)
      | ok u =>
        obtain ⟨hwritten, hcharts⟩ := outcome_installCharts_eq_ok.1 hi
        exact ⟨fun _ => ⟨h, hv, hwritten, hcharts⟩, fun _ => rfl⟩
  · rw [installation_of_noVersion h]
    exact ⟨fun h => (by cases h), fun hi => absurd hi.version h⟩

/-! ### The state -/

/-- The worst of what is wrong with a revision: the fault of its installation, a control plane that is
not up, or a node agent that is wanted and not up. -/
def health (c : Cluster) (r : Revision) (i : Installation) : String :=
  if i.fault.isSome then "ReconcileError"
  else if ¬ IsUp (c.deployment? (Readiness.deploymentKey r i.values)) then "IstiodNotReady"
  else if i.values.isTrueAt Values.cniPath ∧ ¬ IsUp (c.daemonSet? (Readiness.daemonSetKey r)) then
    "CNINotReady"
  else "Healthy"

theorem stateOf_eq_health :
    stateOf (.reconciled (failure.map Fault.message)) (Readiness.verdict c r v) =
      .text (health c r ⟨v, failure⟩) := by
  cases failure with
  | some f => rfl
  | none =>
    rw [Option.map_none, Readiness.stateOf_verdict, health]
    split
    · rfl
    · split <;> rfl

theorem health_ne_empty (c : Cluster) (r : Revision) (i : Installation) : health c r i ≠ "" := by
  unfold health
  split
  · decide
  · split
    · decide
    · split <;> decide

/-- nothing is wrong exactly when all went well and all that is wanted is up -/
theorem health_eq_healthy {i : Installation} :
    health c r i = "Healthy" ↔
      i.fault = none ∧ IsUp (c.deployment? (Readiness.deploymentKey r i.values)) ∧
        (i.values.isTrueAt Values.cniPath → IsUp (c.daemonSet? (Readiness.daemonSetKey r))) := by
  unfold health
  split
  · rename_i hfault
    have hne : i.fault ≠ none := Option.isSome_iff_ne_none.1 hfault
    simp [hne]
  · split
    · simp_all
    · split <;> simp_all

end MeshOperator.Reconcile

namespace MeshOperator.Cluster.Holds

open Reconcile

variable {cfg : Config} {c : Cluster} {k : Key} {r : Revision}

/-- **Health.**  Where readiness can be judged, the fault, if there is one, can be told, and the status
is taken, a reconcile of a revision that is not being deleted leaves its health as the stored state. It
is healthy exactly when all went well with the installation, the control plane is up, and so is the
node agent if it is wanted. -/
theorem storedState?_reconcile (held : c.Holds k r) (live : r.isTerminating = false)
    (time : HasTime c) (taken : c.answer .patchStatus = .ok ())
    (told : announced c (installation cfg r c).fault = .ok ())
    (judged : ∃ cond, (Readiness.evaluate r (installation cfg r c).values).outcome c = .ok cond) :
    ((reconcile cfg k).after c).storedState? k = some (.text (health c r (installation cfg r c))) ∧
    (health c r (installation cfg r c) = "Healthy" ↔
      Installs cfg r c (installation cfg r c).values ∧
      IsUp (c.deployment? (Readiness.deploymentKey r (installation cfg r c).values)) ∧
      ((installation cfg r c).values.isTrueAt Values.cniPath →
        IsUp (c.daemonSet? (Readiness.daemonSetKey r)))) := by
  refine ⟨?_, by rw [health_eq_healthy, installation_fault_eq_none]⟩
  obtain ⟨s, hs⟩ : ∃ s, newStatus c r (installation cfg r c).values (installation cfg r c).fault =
      .ok s := newStatus_isOk time judged
  obtain ⟨t, ht, hagrees⟩ := storedStatus_of_updateStatus held hs (.inr taken)
  obtain ⟨now, rfl⟩ := newStatus_eq_ok hs
  have hstate : t.state = .text (health c r (installation cfg r c)) :=
    hagrees.state.trans stateOf_eq_health
  rw [held.after_reconcile_of_live live, after_converge, told]
  exact storedState?_of_storedStatus ht hstate (health_ne_empty _ _ _)

end MeshOperator.Cluster.Holds

namespace MeshOperator.Cluster

open Reconcile

/-- a cluster with one revision, whose control plane is up -/
def upright : Cluster :=
  { versioned with deployments := [(⟨Key.sole.ns, .text "istiod"⟩, some ⟨some 1, some 1⟩)] }

theorem storedState?_upright :
    ((reconcile .standard .sole).after upright).storedState? .sole = some (.text "Healthy") := by
  have held : upright.Holds .sole .versioned := ⟨rfl, ⟨_, rfl, rfl⟩, rfl⟩
  have healthy : health upright .versioned (installation .standard .versioned upright) =
      "Healthy" := by decide +kernel
  rw [← healthy]
  exact (held.storedState?_reconcile rfl (exists_of_isOk (by decide +kernel)) rfl
    (announced_of_taken rfl) (exists_of_isOk (by decide +kernel))).1

end MeshOperator.Cluster
