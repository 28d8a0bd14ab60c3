import MeshOperator.Chart.Installer
import MeshOperator.Proofs.Cluster.Steady

/-!
# Work on charts leaves the cluster

Installing and uninstalling charts runs the chart tool and patches objects. None of it changes what the
cluster holds of revisions and workloads, and none of it depends on the revisions or on the clock. The runs
are about the releases of the charts only.

* `Chart.releaseOf`: the release of a chart.
* `Chart.steady_install`, `Chart.steady_uninstall`: both only look at the tools, and run the chart tool for
  the releases of the charts.
* `Chart.quiet_install`, `Chart.quiet_uninstall`: both leave the cluster as it is.
-/

namespace MeshOperator

/-- A release of a chart: its namespace and its name. -/
structure Chart.Release where
  ns : Data
  name : String

/-- the release of a chart for an owner -/
def Chart.releaseOf (o : Key) (chart : String) : Chart.Release := ⟨o.ns, Chart.release o.name chart⟩

/-- the release that a command is about -/
def ToolCommand.target : ToolCommand → Chart.Release
  | upgrade release _ ns _ | manifest release ns | uninstall release ns => ⟨ns, release⟩

/-- whether an entry is a remark on work on charts: a log record, or the count of an operation on a chart -/
def Entry.isRemark : Entry → Bool
  | .log _ | .count (.chart ..) => true
  | _ => false

theorem Entry.deed_of_isRemark {e : Entry} (h : e.isRemark = true) : e.deed = .note := by
  unfold isRemark at h
  split at h
  · rfl
  · rfl
  · cases h

theorem Api.quiet_patchObject (apiVersion kind body name ns : Data) :
    (patchObject apiVersion kind body name ns).Quiet :=
  (steady_patchObject (p := fun _ => True) id apiVersion kind body name ns fun _ _ => trivial).quiet

namespace Chart

open MeshOperator.Action (Steady)

/-- what work on charts does -/
def deeds : List Deed := [.note, .toolRun, .objectPatch]

variable (cfg : Config) (chart : String) (o : Owner)
variable {R : Cluster → Cluster → Prop} {p : Entry → Prop}

theorem steady_counted {α : Type} (hremark : ∀ e : Entry, e.isRemark = true → p e)
    (operation : ChartOperation) (x : Except Fault α) : (counted operation x).Steady R p := by
  cases x with
  | ok a => exact .pure a
  | error f => exact (Steady.count _ (hremark _ rfl)).bind fun _ => .throw f

/-! ### The chart tool -/

section

variable (htools : ∀ {c d}, R c d → c.SameTools d)
include htools

theorem steady_runTool (operation : ChartOperation) {command : ToolCommand} {input : Option String}
    (h : p (.tool ⟨cfg.helmBinary, command, input, cfg.helmTimeout⟩)) :
    (runTool cfg chart operation command input).Steady R p := by
  refine (Steady.write h).bind fun _ => .look (fun c => ?_) fun hcd => ?_
  · split
    · exact .pure _
    · exact .throw _
    · exact .throw _
    · exact .throw _
  · rw [(htools hcd).reply_eq]

theorem steady_runInstallTool {command : ToolCommand} {input : Option String}
    (h : p (.tool ⟨cfg.helmBinary, command, input, cfg.helmTimeout⟩)) :
    (runInstallTool cfg chart command input).Steady R p :=
  (steady_runTool cfg chart htools _ h).bind fun _ => .pure _

/-! ### Stamping -/

section

variable (hpatch : ∀ e : Entry, e.deed = .objectPatch → p e)
include hpatch

theorem steady_stampObject (object : Data) : (stampObject chart o object).Steady R p := by
  refine (Steady.of _).bind fun kind => ?_
  cases kind with
  | none => exact .pure _
  | some kind =>
    refine Steady.look (fun c => ?_) fun hcd => ?_
    · split
      · exact .throw _
      · split
        · exact (Steady.throw _).bind fun _ => .throw _
        · exact .throw _
      · refine (Steady.of _).bind fun _ => (Steady.of _).bind fun _ => ?_
        refine (Api.steady_patchObject htools _ _ _ _ _ hpatch).bind fun answer => ?_
        cases answer with
        | done => exact .pure _
        | refused status reason body =>
          dsimp only
          split
          · exact .pure _
          · exact .throw _
    · simp only [(htools hcd).kinds]

theorem steady_stampAll (fuel : Nat) (first : Bool) (s : Yaml.Stream) :
    (stampAll chart o fuel first s).Steady R p := by
  induction fuel generalizing first s with
  | zero => exact .pure _
  | succ fuel ih =>
    refine (Steady.of _).bind fun next => ?_
    cases next with
    | none => exact .pure _
    | some next => exact (steady_stampObject chart o htools hpatch _).bind fun _ => ih false _

/-! ### Installing -/

theorem steady_stampRelease
    (hrun : ∀ run : ToolRun, run.command.target = releaseOf o.key chart → p (.tool run)) :
    (stampRelease cfg chart (release o.name chart) o).Steady R p := by
  refine (steady_runInstallTool cfg chart htools (hrun _ rfl)).bind fun _ => ?_
  exact (Steady.of _).bind fun _ => steady_stampAll chart o htools hpatch _ _ _

variable (hremark : ∀ e : Entry, e.isRemark = true → p e)
include hremark

theorem steady_installOne (values : String) (version : Data)
    (hrun : ∀ run : ToolRun, run.command.target = releaseOf o.key chart → p (.tool run)) :
    (installOne cfg values version o chart).Steady R p := by
  refine (Steady.of _).bind fun directory => .look (fun c => ?_) fun hcd => ?_
  · refine (steady_counted hremark _ _).bind fun _ => (Steady.of _).bind fun _ => ?_
    refine (steady_runInstallTool cfg chart htools (hrun _ rfl)).bind fun _ => ?_
    refine (steady_counted hremark _ _).bind fun _ => ?_
    refine (Steady.log _ _ _ fun _ => hremark _ rfl).bind fun _ => ?_
    refine (steady_stampRelease cfg chart o htools hpatch hrun).bind fun _ => ?_
    exact .count _ (hremark _ rfl)
  · rw [(htools hcd).hasChart_eq]

theorem steady_installEach (values : String) (version : Data) {charts : List String}
    (hrun : ∀ chart ∈ charts, ∀ run : ToolRun, run.command.target = releaseOf o.key chart → p (.tool run)) :
    (installEach cfg values version o charts).Steady R p := by
  induction charts with
  | nil => exact .pure _
  | cons chart charts ih =>
    rw [List.forall_mem_cons] at hrun
    exact (steady_installOne cfg chart o htools hpatch hremark values version hrun.1).bind fun _ => ih hrun.2

theorem steady_install (values : Values) (version : Data) {charts : List String}
    (hrun : ∀ chart ∈ charts, ∀ run : ToolRun, run.command.target = releaseOf o.key chart → p (.tool run)) :
    (install cfg values version o charts).Steady R p :=
  (Steady.of _).bind fun _ => steady_installEach cfg o htools hpatch hremark _ version hrun

end

end

/-! ### Uninstalling -/

section

variable (hremark : ∀ e : Entry, e.isRemark = true → p e)
include hremark

theorem steady_passOver (k : Key) (complaint : String) : (passOver k chart complaint).Steady R p :=
  (steady_counted hremark _ _).bind fun _ => .log _ _ _ fun _ => hremark _ rfl

variable (htools : ∀ {c d}, R c d → c.SameTools d)
include htools

theorem steady_uninstallOne (k : Key)
    (hrun : ∀ run : ToolRun, run.command.target = releaseOf k chart → p (.tool run)) :
    (uninstallOne cfg k chart).Steady R p := by
  refine (steady_runTool cfg chart htools _ (hrun _ rfl)).bind fun answer => ?_
  dsimp only
  split
  · exact (steady_passOver chart hremark k _).bind fun _ => .count _ (hremark _ rfl)
  · exact .count _ (hremark _ rfl)

theorem steady_uninstall (k : Key) {charts : List String}
    (hrun : ∀ chart ∈ charts, ∀ run : ToolRun, run.command.target = releaseOf k chart → p (.tool run)) :
    (uninstall cfg k charts).Steady R p := by
  induction charts with
  | nil => exact .pure _
  | cons chart charts ih =>
    rw [List.forall_mem_cons] at hrun
    exact (steady_uninstallOne cfg chart hremark htools k hrun.1).bind fun _ => ih hrun.2

end

/-! ### Parts of the work -/

theorem makes_counted {α : Type} (operation : ChartOperation) (x : Except Fault α) :
    (counted operation x).Makes [.note] :=
  (steady_counted (R := Eq) (fun _ he => List.mem_singleton.2 (Entry.deed_of_isRemark he)) operation x).makes

theorem makes_passOver (k : Key) (complaint : String) : (passOver k chart complaint).Makes [.note] :=
  (steady_passOver (R := Eq) chart (fun _ he => List.mem_singleton.2 (Entry.deed_of_isRemark he)) k
    complaint).makes

theorem makes_runInstallTool (command : ToolCommand) (input : Option String) :
    (runInstallTool cfg chart command input).Makes [.toolRun] :=
  (steady_runInstallTool (p := (·.deed ∈ [Deed.toolRun])) cfg chart id (List.mem_singleton.2 rfl)).makes

/-! ### The cluster is left -/

section

variable (values : String) (version : Data)

theorem quiet_runTool (operation : ChartOperation) (command : ToolCommand) (input : Option String) :
    (runTool cfg chart operation command input).Quiet :=
  (steady_runTool (p := fun _ => True) cfg chart id operation trivial).quiet

theorem quiet_runInstallTool (command : ToolCommand) (input : Option String) :
    (runInstallTool cfg chart command input).Quiet :=
  (steady_runInstallTool (p := fun _ => True) cfg chart id trivial).quiet

theorem quiet_counted {α : Type} (operation : ChartOperation) (x : Except Fault α) :
    (counted operation x).Quiet :=
  (steady_counted (R := Eq) (p := fun _ => True) (fun _ _ => trivial) operation x).quiet

theorem quiet_stampObject (object : Data) : (stampObject chart o object).Quiet :=
  (steady_stampObject (p := fun _ => True) chart o id (fun _ _ => trivial) object).quiet

theorem quiet_stampRelease : (stampRelease cfg chart (release o.name chart) o).Quiet :=
  (steady_stampRelease (p := fun _ => True) cfg chart o id (fun _ _ => trivial) fun _ _ => trivial).quiet

theorem quiet_installOne : (installOne cfg values version o chart).Quiet :=
  (steady_installOne (p := fun _ => True) cfg chart o id (fun _ _ => trivial) (fun _ _ => trivial) values
    version fun _ _ => trivial).quiet

theorem quiet_install (v : Values) (charts : List String) : (install cfg v version o charts).Quiet :=
  (steady_install (p := fun _ => True) cfg o id (fun _ _ => trivial) (fun _ _ => trivial) v version
    fun _ _ _ _ => trivial).quiet

theorem quiet_passOver (k : Key) (complaint : String) : (passOver k chart complaint).Quiet :=
  (steady_passOver (R := Eq) (p := fun _ => True) chart (fun _ _ => trivial) k complaint).quiet

theorem quiet_uninstallOne (k : Key) : (uninstallOne cfg k chart).Quiet :=
  (steady_uninstallOne (p := fun _ => True) cfg chart (fun _ _ => trivial) id k fun _ _ => trivial).quiet

theorem quiet_uninstall (k : Key) (charts : List String) : (uninstall cfg k charts).Quiet :=
  (steady_uninstall (p := fun _ => True) cfg (fun _ _ => trivial) id k fun _ _ _ _ => trivial).quiet

end

end Chart

end MeshOperator
