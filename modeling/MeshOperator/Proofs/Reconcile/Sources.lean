import MeshOperator.Proofs.Chart.Places
import MeshOperator.Proofs.Reconcile.Teardown

/-!
# Where charts come from

A reconcile makes releases from the directories of charts of the version that the revision names, and from
nowhere else. These are within the resources as long as the version stays inside; a version that begins at
the root, or leads out of the resources, is followed to wherever it leads.

* `Entry.source?`: the directory that a release is made from.
* `Chart.TakesFrom`: an entry makes no release from another directory than those of charts of a version.
* `Reconcile.sources_within`: where the charts of a reconcile come from.
-/

namespace MeshOperator

/-- the directory that a command makes a release from -/
def ToolCommand.source? : ToolCommand → Option String
  | .upgrade _ path _ _ => some path
  | _ => none

/-- the directory that a release is made from, if the entry tells of one -/
def Entry.source? (e : Entry) : Option String := e.run?.bind fun run => run.command.source?

theorem Entry.source?_of_deed {e : Entry} (h : e.deed ≠ .toolRun) : e.source? = none := by
  cases e with
  | tool run => exact absurd rfl h
  | _ => rfl

theorem Entry.isWork_of_source {e : Entry} {path : String} (h : e.source? = some path) : e.isWork = true := by
  cases e with
  | tool run => rfl
  | _ => cases h

namespace Chart

open MeshOperator.Action (Writes)

variable {cfg : Config} {o : Owner} {version : Data} {chart values : String} {charts : List String}

/-- The entry makes no release but from the directories of charts of a version. -/
def TakesFrom (cfg : Config) (version : Data) (charts : List String) (e : Entry) : Prop :=
  ∀ path, e.source? = some path → ∃ chart ∈ charts, pathOf cfg.resources version chart = .ok path

theorem takesFrom_of_source? {e : Entry} (h : e.source? = none) : TakesFrom cfg version charts e := by
  intro path hpath
  cases h.symm.trans hpath

theorem takesFrom_of_deed {e : Entry} (h : e.deed ≠ .toolRun) : TakesFrom cfg version charts e :=
  takesFrom_of_source? (Entry.source?_of_deed h)

theorem takesFrom_of_isRemark (e : Entry) (h : e.isRemark = true) : TakesFrom cfg version charts e :=
  takesFrom_of_deed (by rw [Entry.deed_of_isRemark h]; decide)

/-! ### Installing -/

theorem writes_runInstallTool {p : Entry → Prop} {command : ToolCommand} {input : Option String}
    (h : p (.tool ⟨cfg.helmBinary, command, input, cfg.helmTimeout⟩)) :
    (runInstallTool cfg chart command input).Writes p :=
  (steady_runInstallTool cfg chart id h).writes

/-- stamping makes no release -/
theorem writes_stampRelease (cfg : Config) (chart release : String) (o : Owner) :
    (stampRelease cfg chart release o).Writes (TakesFrom cfg version charts) := by
  refine (writes_runInstallTool (takesFrom_of_source? rfl)).bind fun _ => (Writes.of _).bind fun _ => ?_
  refine (steady_stampAll chart o id (fun e he => takesFrom_of_deed ?_) _ _ _).writes
  rw [he]
  decide

theorem writes_installOne (hchart : chart ∈ charts) :
    (installOne cfg values version o chart).Writes (TakesFrom cfg version charts) := by
  have hcounted {α : Type} (x : Except Fault α) :
      (counted .install x).Writes (TakesFrom cfg version charts) :=
    (steady_counted (R := Eq) takesFrom_of_isRemark _ x).writes
  refine Writes.of_bind fun directory hdirectory => Writes.cluster.bind fun _ => ?_
  refine (hcounted _).bind fun _ => (Writes.of _).bind fun _ => ?_
  refine Writes.bind (writes_runInstallTool fun path hpath => ?_) fun _ => (hcounted _).bind fun _ => ?_
  · cases hpath
    exact ⟨chart, hchart, hdirectory⟩
  · refine (Writes.log _ _ _ fun _ => takesFrom_of_isRemark _ rfl).bind fun _ => ?_
    exact (writes_stampRelease ..).bind fun _ => .write (takesFrom_of_isRemark _ rfl)

theorem writes_installEach {wanted : List String} (hwanted : wanted ⊆ charts) :
    (installEach cfg values version o wanted).Writes (TakesFrom cfg version charts) := by
  induction wanted with
  | nil => exact .pure _
  | cons chart wanted ih =>
    rw [List.cons_subset] at hwanted
    exact (writes_installOne hwanted.1).bind fun _ => ih hwanted.2

theorem writes_install {wanted : List String} (hwanted : wanted ⊆ charts) (v : Values) :
    (install cfg v version o wanted).Writes (TakesFrom cfg version charts) :=
  (Writes.of _).bind fun _ => writes_installEach hwanted

/-! ### The directory of a chart -/

/-- A path is that of a chart of a version within the resources, as long as the version stays inside. -/
structure IsDirectory (resources version chart path : String) : Prop where
  path_eq : path = Chart.path resources version chart
  written : isRooted version = false →
    path = resources ++ slashAfter resources ++ version ++ slashAfter version ++ "charts/" ++ chart
  within : StaysInside version → LiesBelow resources path
  /-- any other version leads out of some resources -/
  only : (∀ resources, LiesBelow resources (Chart.path resources version chart)) ↔ StaysInside version

theorem pathOf_eq_ok {resources path : String} :
    pathOf resources version chart = .ok path ↔ ∃ v, version = .text v ∧ path = Chart.path resources v chart := by
  unfold pathOf
  split
  · simp [eq_comm]
  · rename_i hnot
    simpa using fun v hv => absurd hv (hnot v)

theorem isDirectory_path {version : String} (hchart : IsName chart) (hversion : version ≠ "")
    (resources : String) : IsDirectory resources version chart (path resources version chart) where
  path_eq := rfl
  written hrooted := path_eq hchart hversion hrooted resources
  within hinside := liesBelow_path hchart hinside resources
  only := liesBelow_path_iff hchart

end Chart

namespace Reconcile

open MeshOperator.Action (Writes)
open MeshOperator.Chart (TakesFrom StaysInside LiesBelow)

variable {cfg : Config} {c : Cluster} {k : Key} {r : Revision} {call : Action Unit} {e : Entry} {path : String}

/-! ### Reconciling -/

theorem writes_installPhase (cfg : Config) (r : Revision) :
    (installPhase cfg r).Writes (TakesFrom cfg r.version (cniCharts ++ controlCharts)) := by
  unfold installPhase
  split
  · exact .pure _
  · refine (Writes.log _ _ _ fun _ => Chart.takesFrom_of_isRemark _ rfl).bind fun _ => ?_
    refine Writes.bind (Writes.tryCatch (Writes.bind ?_ fun _ => .pure _) fun _ => .pure _) fun _ => .pure _
    refine (Writes.of _).bind fun wanted => ?_
    dsimp only
    split
    · refine (Chart.writes_install (List.subset_append_left ..) _).bind fun _ => ?_
      exact Chart.writes_install (List.subset_append_right ..) _
    · exact Chart.writes_install (List.subset_append_right ..) _

/-- a revision that is taken down has no release made -/
theorem source?_of_finalize (he : e ∈ (finalize cfg r).works c) : e.source? = none := by
  by_cases waits : r.hasFinalizer = true
  · rw [works_finalize waits, Chart.works_uninstall] at he
    obtain ⟨chart, -, rfl⟩ := List.mem_map.1 he
    rfl
  · rw [finalize_of_free (by simpa using waits)] at he
    cases he

/-- a revision has releases made if it names a version, and from the directories of that version -/
theorem takesFrom_of_converge (he : e ∈ (converge cfg r).works c) :
    r.version.truthy = true ∧ TakesFrom cfg r.version (cniCharts ++ controlCharts) e := by
  rw [works_converge] at he
  split at he
  · rename_i hversion
    exact ⟨hversion, (writes_installPhase cfg r).holds c e (List.mem_of_mem_filter he)⟩
  · cases he

/-! ### From the key on -/

/-- what a reconcile makes a release from is the directory of a chart of the version that it read -/
theorem exists_read_of_source (hcall : Reconciles cfg k call) (he : e ∈ call.journal c)
    (hpath : e.source? = some path) :
    ∃ r, (Api.getRevision k).outcome c = .ok (some r) ∧ r.version.truthy = true ∧
      ∃ chart ∈ cniCharts ++ controlCharts, Chart.pathOf cfg.resources r.version chart = .ok path := by
  have hidle : [Deed.note, .reading] ⊆ Deed.idle := by decide
  have hnote : [Deed.note] ⊆ Deed.idle := by decide
  have hcallWorks : call.works c = (reconcile cfg k).works c :=
    hcall.picked_eq fun e he => Action.isWork_of_idle e (hnote he)
  have hworks : (reconcile cfg k).works c = _ :=
    picked_reconcile fun e he => Action.isWork_of_idle e (hidle he)
  have hmem : e ∈ call.works c := List.mem_filter.2 ⟨he, Entry.isWork_of_source hpath⟩
  rw [hcallWorks, hworks] at hmem
  cases hread : (Api.getRevision k).outcome c with
  | error f =>
    rw [hread] at hmem
    cases hmem
  | ok found =>
    rw [hread] at hmem
    cases found with
    | none => cases hmem
    | some r =>
      dsimp only at hmem
      split at hmem
      · cases hpath.symm.trans (source?_of_finalize hmem)
      · obtain ⟨hversion, htakes⟩ := takesFrom_of_converge hmem
        exact ⟨r, rfl, hversion, htakes path hpath⟩

theorem isName_of_chart {chart : String} (h : chart ∈ cniCharts ++ controlCharts) : Chart.IsName chart := by
  have hall : ∀ chart ∈ cniCharts ++ controlCharts,
      '/' ∉ chart.toList ∧ chart ≠ "" ∧ chart ≠ "." ∧ chart ≠ ".." := by decide
  obtain ⟨hslash, hempty, hhere, hout⟩ := hall chart h
  exact ⟨hslash, hempty, hhere, hout⟩

/-- **Where charts come from.**  A reconcile makes a release only for a revision that names a version, and
only from the directory of one of the charts of that version. This is below the resources if the version
does not begin at the root and leads out of no directory, and only then wherever the resources are. -/
theorem sources_within (hcall : Reconciles cfg k call) (he : e ∈ call.journal c)
    (hpath : e.source? = some path) :
    ∃ r version, (Api.getRevision k).outcome c = .ok (some r) ∧ r.version = .text version ∧ version ≠ "" ∧
      ∃ chart ∈ cniCharts ++ controlCharts, Chart.IsDirectory cfg.resources version chart path := by
  obtain ⟨r, hread, htruthy, chart, hchart, hof⟩ := exists_read_of_source hcall he hpath
  obtain ⟨version, hversion, rfl⟩ := Chart.pathOf_eq_ok.1 hof
  have hne : version ≠ "" := by
    rintro rfl
    rw [hversion] at htruthy
    exact absurd htruthy (by decide)
  exact ⟨r, version, hread, hversion, hne, chart, hchart,
    Chart.isDirectory_path (isName_of_chart hchart) hne cfg.resources⟩

/-- the two charts of `Cluster.versioned` are within the resources -/
theorem sources_within_versioned :
    ((reconcile .standard .sole).journal .versioned).filterMap Entry.source? =
      ["/var/lib/istio-operator/resources/v1.22/charts/base",
        "/var/lib/istio-operator/resources/v1.22/charts/istiod"] ∧
    ∀ path ∈ ((reconcile .standard .sole).journal .versioned).filterMap Entry.source?,
      LiesBelow Config.standard.resources path := by
  refine ⟨by decide +kernel, fun path hmem => ?_⟩
  obtain ⟨e, he, hpath⟩ := List.mem_filterMap.1 hmem
  obtain ⟨r, version, hread, hversion, -, chart, -, hdirectory⟩ := sources_within (.inl rfl) he hpath
  have hheld := hread.symm.trans Cluster.holds_versioned.outcome_getRevision
  cases hheld
  cases hversion
  exact hdirectory.within (by decide)

end Reconcile

/-- a cluster with one revision, whose version begins at the root -/
def Cluster.rooted : Cluster := .sole [] [("version", .text "/opt/mesh")]

open Reconcile in
/-- its charts are not from the resources -/
theorem Cluster.sources_rooted :
    ((reconcile .standard .sole).journal rooted).filterMap Entry.source? =
      ["/opt/mesh/charts/base", "/opt/mesh/charts/istiod"] ∧
    ∀ path ∈ ((reconcile .standard .sole).journal rooted).filterMap Entry.source?,
      ¬ Chart.LiesBelow Config.standard.resources path := by
  have hsources : ((reconcile .standard .sole).journal rooted).filterMap Entry.source? =
      ["/opt/mesh/charts/base", "/opt/mesh/charts/istiod"] := by decide +kernel
  refine ⟨hsources, fun path hmem hbelow => ?_⟩
  rw [hsources] at hmem
  have houtermost : ∀ path ∈ ["/opt/mesh/charts/base", "/opt/mesh/charts/istiod"],
      (Chart.placeOf path).getLast? ≠ (Chart.placeOf Config.standard.resources).getLast? := by decide
  exact houtermost path hmem (hbelow.getLast?_eq (by decide))

end MeshOperator
