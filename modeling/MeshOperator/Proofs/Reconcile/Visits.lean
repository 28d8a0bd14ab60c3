import MeshOperator.Proofs.Chart.Releases
import MeshOperator.Proofs.Reconcile.Teardown

/-!
# What is left of a revision

The operator is called for a revision again and again, while the revision, its cluster and the outcome of
each step change between the calls and within them. The names of the releases do not depend on any of this,
so the removals that end the life of a revision meet all that its installations made.

* `Reconcile.Visit`: a call that reconciles a revision, with the cluster that it meets.
* `Reconcile.Visit.target_mem`, `Reconcile.Visit.isRemoval`, `Reconcile.Visit.TakesDown.exists_removal`:
  what one visit asks of the chart tool.
* `Reconcile.leavesNothing`: what is there after any beginning of a run of visits.
-/

namespace MeshOperator

namespace Reconcile

open MeshOperator.Action (Writes)
open MeshOperator.Chart (Release Exchange Evolves Passes releaseOf uninstallReply)

variable {cfg : Config} {c : Cluster} {k : Key} {r : Revision}

/-! ### Which releases a reconcile is about -/

theorem targets_installPhase (cfg : Config) (r : Revision) :
    (installPhase cfg r).Writes (Entry.Targets r.key.releases) := by
  refine (steady_installPhase id ?_ ?_ (fun run hrun => hrun) cfg).writes
  · intro e he
    exact Entry.targets_of_deed (by simp [he])
  · intro e he
    exact Entry.targets_of_deed (by simp [Entry.deed_of_isRemark he])

theorem targets_converge (cfg : Config) (r : Revision) :
    (converge cfg r).Writes (Entry.Targets r.key.releases) := by
  refine writes_converge (fun _ => trivial) (fun e he => ?_) (targets_installPhase cfg r)
  refine Entry.targets_of_deed fun hrun => ?_
  rw [hrun] at he
  exact absurd he (by decide)

/-- taking a revision down runs nothing but the removals of its charts -/
theorem exists_chart_of_finalize {x : Exchange} (hx : x ∈ (finalize cfg r).exchanges c) :
    ∃ chart ∈ cniCharts ++ controlCharts,
      x = ⟨.uninstall (Chart.release r.name chart) r.ns, uninstallReply c r.key chart⟩ := by
  rw [Action.exchanges_eq] at hx
  cases hwaits : r.hasFinalizer with
  | false =>
    rw [finalize_of_free hwaits] at hx
    cases hx
  | true =>
    have hsubset := ((removes_finalize hwaits).works_begin : (finalize cfg r).works c <+: _).subset
    have hmem := (List.filterMap_subset (Entry.exchange? c) hsubset) hx
    rw [Chart.exchange?_removals, List.mem_map] at hmem
    obtain ⟨chart, hchart, rfl⟩ := hmem
    exact ⟨chart, hchart, rfl⟩

/-! ### One visit -/

/-- A call that reconciles the revision under a key, with the configuration that the operator runs with and
the cluster that the call meets. What the cluster holds under the key is an object of that key. -/
structure Visit (k : Key) where
  config : Config
  cluster : Cluster
  call : Action Unit
  reconciles : Reconciles config k call
  own : ∀ r, (Api.getRevision k).outcome cluster = .ok (some r) → r.key = k

namespace Visit

variable (v : Visit k)

/-- what the visit asks of the chart tool, with the replies -/
def exchanges : List Exchange := v.call.exchanges v.cluster

/-- the visit finds the revision -/
def Finds (r : Revision) : Prop := (Api.getRevision k).outcome v.cluster = .ok (some r)

/-- a revision that the visit finds is being deleted -/
def IsDying : Prop := ∀ r, v.Finds r → r.isTerminating = true

/-- The visit finds a revision that is being deleted and waits for the operator, and returns. -/
structure TakesDown : Prop where
  returns : v.call.outcome v.cluster = .ok ()
  waits : ∃ r, v.Finds r ∧ r.isTerminating = true ∧ r.hasFinalizer = true

/-- A visit asks for what taking down or installing the revision that it finds asks for, if it finds
one. -/
theorem exchanges_cases :
    v.exchanges = [] ∨ ∃ r, v.Finds r ∧ v.exchanges =
      (if r.isTerminating then finalize v.config r else converge v.config r).exchanges v.cluster := by
  have hidle (e : Entry) (he : e.deed ∈ [Deed.note, .reading]) : e.isWork = false :=
    Action.isWork_of_idle e ((by decide : [Deed.note, .reading] ⊆ Deed.idle) he)
  have hcall : v.call.works v.cluster = (reconcile v.config k).works v.cluster :=
    v.reconciles.picked_eq fun e he => hidle e ((by decide : [Deed.note] ⊆ [.note, .reading]) he)
  have hreconcile : (reconcile v.config k).works v.cluster = _ := picked_reconcile hidle
  rw [exchanges, Action.exchanges_eq, hcall, hreconcile]
  cases hread : (Api.getRevision k).outcome v.cluster with
  | error f => exact .inl rfl
  | ok found =>
    cases found with
    | none => exact .inl rfl
    | some r => exact .inr ⟨r, hread, (Action.exchanges_eq _).symm⟩

/-- whatever a visit asks for is about a release of the revision -/
theorem target_mem {x : Exchange} (hx : x ∈ v.exchanges) : x.command.target ∈ k.releases := by
  rcases v.exchanges_cases with hnil | ⟨r, hfinds, heq⟩
  · rw [hnil] at hx
    cases hx
  · rw [heq] at hx
    have hmem : x.command.target ∈ r.key.releases := by
      cases hdying : r.isTerminating with
      | true =>
        rw [hdying, if_pos rfl] at hx
        obtain ⟨chart, hchart, rfl⟩ := exists_chart_of_finalize hx
        exact Key.releaseOf_mem hchart
      | false =>
        rw [hdying, if_neg Bool.false_ne_true] at hx
        obtain ⟨e, he, hexchange⟩ := List.mem_filterMap.1 hx
        exact ((targets_converge v.config r).holds v.cluster e he).target_mem hexchange
    rw [v.own r hfinds] at hmem
    exact hmem

/-- for a revision that is being deleted a visit asks for nothing but removals -/
theorem isRemoval (dying : v.IsDying) {x : Exchange} (hx : x ∈ v.exchanges) :
    x.command.IsRemoval := by
  rcases v.exchanges_cases with hnil | ⟨r, hfinds, heq⟩
  · rw [hnil] at hx
    cases hx
  · rw [heq, if_pos (dying r hfinds)] at hx
    obtain ⟨chart, -, rfl⟩ := exists_chart_of_finalize hx
    trivial

variable {v}

theorem TakesDown.isDying (h : v.TakesDown) : v.IsDying := by
  obtain ⟨r, hfinds, dying, -⟩ := h.waits
  intro r' hfinds'
  cases hfinds.symm.trans hfinds'
  exact dying

/-- a visit that takes a revision down asks for the removal of each release, and every reply is passed
over -/
theorem TakesDown.exists_removal (h : v.TakesDown) {t : Release} (ht : t ∈ k.releases) :
    ∃ x ∈ v.exchanges, x.command.target = t ∧ Passes x.reply := by
  obtain ⟨r, hfinds, dying, waits⟩ := h.waits
  obtain ⟨-, -, -, hremoves⟩ := takesDown hfinds dying v.reconciles
  obtain ⟨hworks, hpasses⟩ := (hremoves waits).returns_iff.1 h.returns
  have hall : v.exchanges = (cniCharts ++ controlCharts).map fun chart =>
      ⟨.uninstall (Chart.release r.name chart) r.ns, uninstallReply v.cluster r.key chart⟩ := by
    rw [exchanges, Action.exchanges_eq, hworks, Chart.exchange?_removals]
    rfl
  rw [← v.own r hfinds] at ht
  obtain ⟨chart, hchart, rfl⟩ := List.mem_map.1 ht
  rw [hall]
  exact ⟨_, List.mem_map_of_mem hchart, rfl, hpasses chart hchart⟩

end Visit

/-! ### A run of visits -/

/-- what a run of visits asks of the chart tool -/
def exchangesOf (visits : List (Visit k)) : List Exchange := visits.flatMap Visit.exchanges

theorem exchangesOf_append (vs ws : List (Visit k)) :
    exchangesOf (vs ++ ws) = exchangesOf vs ++ exchangesOf ws := List.flatMap_append

theorem target_mem_of_exchangesOf {visits : List (Visit k)} {x : Exchange}
    (hx : x ∈ exchangesOf visits) : x.command.target ∈ k.releases := by
  obtain ⟨v, -, hx⟩ := List.mem_flatMap.1 hx
  exact v.target_mem hx

theorem isRemoval_of_exchangesOf {visits : List (Visit k)} (dying : ∀ v ∈ visits, v.IsDying)
    {x : Exchange} (hx : x ∈ exchangesOf visits) : x.command.IsRemoval := by
  obtain ⟨v, hv, hx⟩ := List.mem_flatMap.1 hx
  exact v.isRemoval (dying v hv) hx

/-- once a visit took the revision down, none of its releases is there while it is being deleted -/
theorem notMem_of_takesDown {v : Visit k} (down : v.TakesDown) {start there : Set Release}
    {before rest : List Exchange} (hrest : ∀ x ∈ rest, x.command.IsRemoval)
    (h : Evolves (before ++ v.exchanges ++ rest) start there) : ∀ t ∈ k.releases, t ∉ there := by
  rw [List.append_assoc, Chart.Evolves.append_iff] at h
  obtain ⟨between, -, hend⟩ := h
  intro t ht
  obtain ⟨x, hx, rfl, hpasses⟩ := down.exists_removal ht
  refine hend.notMem ?_ (List.mem_append_left _ hx) hpasses
  rw [List.forall_mem_append]
  exact ⟨fun y hy => v.isRemoval down.isDying hy, hrest⟩

/-- **Nothing is left.**  In a run of visits, each with a configuration, a cluster and a revision of its
own, whatever is there at any moment was there at the start or is one of the releases that the revision can
have. Once a visit took the revision down, none of these is there, and none comes back while the visits
find the revision being deleted. -/
theorem leavesNothing (visits : List (Visit k)) (start : Set Release) :
    (∀ xs, xs <+: exchangesOf visits → ∀ there, Evolves xs start there → there ⊆ start ∪ k.releases) ∧
    (∀ before v later, visits = before ++ v :: later → v.TakesDown → (∀ w ∈ later, w.IsDying) →
      ∀ xs, xs <+: exchangesOf later → ∀ there,
        Evolves (exchangesOf (before ++ [v]) ++ xs) start there → ∀ t ∈ k.releases, t ∉ there) := by
  constructor
  · intro xs hxs there h
    exact h.subset_union fun x hx => target_mem_of_exchangesOf (hxs.subset hx)
  · rintro before v later rfl down dying xs hxs there h
    rw [exchangesOf_append] at h
    have hone : exchangesOf [v] = v.exchanges := List.flatMap_singleton ..
    rw [hone] at h
    exact notMem_of_takesDown down (fun x hx => isRemoval_of_exchangesOf dying (hxs.subset hx)) h

end Reconcile

namespace Cluster

open Reconcile Chart

/-- The cluster of `Cluster.dying`, where one release is there. -/
def halfRemoved : Cluster :=
  { dying "" with
    replies := [("uninstall default-cni", .ended 1 "" "Error: release: not found"),
      ("uninstall default-istiod", .ended 1 "" "Error: release: not found")] }

/-- a visit whose installation fails at its first chart -/
def failingVisit : Visit .sole :=
  ⟨.standard, halfInstalled, Handler.revision .standard .sole 0, .inr ⟨0, rfl⟩,
    holds_halfInstalled.own_of_getRevision⟩

/-- a visit that removes what the other left -/
def removingVisit : Visit .sole :=
  have held : halfRemoved.Holds .sole .dying := ⟨rfl, ⟨_, rfl, rfl⟩, rfl⟩
  ⟨.standard, halfRemoved, Handler.revision .standard .sole 1, .inr ⟨1, rfl⟩, held.own_of_getRevision⟩

/-- the failed upgrade may have made its release -/
theorem evolves_failingVisit : Evolves failingVisit.exchanges ∅ {releaseOf .sole "base"} := by
  have hruns : failingVisit.exchanges.map (fun x => (x.command.verb, x.command.release)) =
      [("upgrade", "default-base")] := by decide +kernel
  obtain ⟨x, hx, hrun⟩ := List.map_eq_singleton_iff.1 hruns
  have hverb : x.command.verb = "upgrade" := congrArg Prod.fst hrun
  have hrelease : x.command.release = "default-base" := congrArg Prod.snd hrun
  have hmem : x.command.target ∈ Key.sole.releases :=
    failingVisit.target_mem (hx ▸ List.mem_singleton.2 rfl)
  obtain ⟨chart, hchart, htarget⟩ := List.mem_map.1 hmem
  have hname : release Key.sole.name chart = "default-base" := by
    rw [← hrelease, ← x.command.target_name, ← htarget]
    rfl
  have hbase : chart = "base" := by
    clear htarget
    revert chart
    decide
  rw [hx, ← hbase, htarget]
  have hturns : x.Turns ∅ (insert x.command.target ∅) := Exchange.turns_upgrade hverb
  rw [insert_empty_eq] at hturns
  exact .cons hturns (.nil _)

theorem evolves_removingVisit : Evolves removingVisit.exchanges {releaseOf .sole "base"} ∅ := by
  have hexchanges : removingVisit.exchanges = [
      ⟨.uninstall "default-cni" Key.sole.ns, .ended 1 "" "Error: release: not found"⟩,
      ⟨.uninstall "default-base" Key.sole.ns, .ended 0 "" ""⟩,
      ⟨.uninstall "default-istiod" Key.sole.ns, .ended 1 "" "Error: release: not found"⟩] := rfl
  rw [hexchanges]
  have hother : (⟨Key.sole.ns, "default-cni"⟩ : Release) ≠ releaseOf .sole "base" := fun h =>
    absurd (congrArg Release.name h) (by decide)
  have hcni : (Exchange.mk (.uninstall "default-cni" Key.sole.ns)
      (.ended 1 "" "Error: release: not found")).Turns {releaseOf .sole "base"} {releaseOf .sole "base"} :=
    ⟨.inl rfl, fun (hwell : (1 : Int) = 0) => absurd hwell (by decide), fun _ => hother⟩
  have hbase : (Exchange.mk (.uninstall "default-base" Key.sole.ns)
      (.ended 0 "" "")).Turns {releaseOf .sole "base"} ∅ :=
    ⟨.inr Set.sdiff_self.symm, fun _ => Set.notMem_empty _, fun hmisses => absurd rfl hmisses.1⟩
  have histiod : (Exchange.mk (.uninstall "default-istiod" Key.sole.ns)
      (.ended 1 "" "Error: release: not found")).Turns ∅ ∅ :=
    ⟨.inl rfl, fun _ => Set.notMem_empty _, fun _ => Set.notMem_empty _⟩
  exact .cons hcni (.cons hbase (.cons histiod (.nil _)))

/-- the second visit removes what the first left, and then nothing is there -/
theorem leavesNothing_failingVisit :
    Evolves (exchangesOf [failingVisit, removingVisit]) ∅ ∅ ∧
    ∀ there, Evolves (exchangesOf [failingVisit, removingVisit]) ∅ there →
      ∀ t ∈ Key.sole.releases, t ∉ there := by
  have hexchanges : exchangesOf [failingVisit, removingVisit] =
      failingVisit.exchanges ++ (removingVisit.exchanges ++ []) := rfl
  have hdown : removingVisit.TakesDown :=
    ⟨eq_ok_of_isOk (by decide +kernel), .dying, Holds.outcome_getRevision ⟨rfl, ⟨_, rfl, rfl⟩, rfl⟩, rfl,
      by decide⟩
  constructor
  · rw [hexchanges, List.append_nil, Evolves.append_iff]
    exact ⟨_, evolves_failingVisit, evolves_removingVisit⟩
  · intro there h
    refine (leavesNothing [failingVisit, removingVisit] ∅).2 [failingVisit] removingVisit [] rfl hdown
      (List.forall_mem_nil _) [] List.nil_prefix there ?_
    rw [List.append_nil]
    exact h

end Cluster

end MeshOperator
