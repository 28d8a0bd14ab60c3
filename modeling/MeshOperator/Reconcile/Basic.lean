import MeshOperator.Chart.Installer
import MeshOperator.Reconcile.Readiness

/-!
# Reconciling a revision

A reconcile brings the cluster to what a revision asks for: it installs the charts of its version with
its values, and writes the outcome and the readiness of the workloads into its status. For a revision
that is being deleted it uninstalls the charts instead, as long as the revision waits for that.

* `Reconcile.reconcile`: one reconcile of the revision under a key.
* `Reconcile.updateStatus`: writes the status if it changed.
-/

namespace MeshOperator.Reconcile

/-- the charts of the node agent -/
def cniCharts : List String := ["cni"]

/-- the charts of the control plane -/
def controlCharts : List String := ["base", "istiod"]

/-- the fields of all log records about a revision -/
def about (k : Key) (uid : Option Data) (event reason : String) : List (String × Data) :=
  [("controller", .text revisionKind), ("resource", .text k.text)]
    ++ (uid.map fun u => ("uid", u)).toList ++ [("event", .text event), ("reason", .text reason)]

/-- the fields of log records about a revision that was read -/
def aboutRevision (r : Revision) (event reason : String) : List (String × Data) :=
  about r.key (some r.uid) event reason

/-- the time for a condition that changes now, if the clock can be read -/
def stamp (c : Cluster) : Except Fault Data := (orFault .calendar (stampOf c.clock)).map .text

/-- Writes a status. That the cluster refuses it is a fault unless there is one to report already. -/
def writeStatus (r : Revision) (status : Status) (failure : Option Fault) : Action Unit :=
  (Api.patchStatus r status.toData).orRefused fun code reason => do
    Action.log .error ("Failed to patch status: " ++ reason.plainText)
      (aboutRevision r "status" "StatusPatchFailed")
    if failure.isNone then throw (Fault.api code reason)

/-- Writes the status that follows from how the installation went and from the workloads, if it is
another than the one read. -/
def updateStatus (r : Revision) (values : Values) (failure : Option Fault) : Action Unit := do
  let ready ← Readiness.evaluate r values
  let status ← Action.of (r.status.computeTimed r.generation
    (.reconciled (failure.map Fault.message)) ready (stamp (← Action.cluster)))
  if status.same r.status then return () else writeStatus r status failure

/-- the values that a revision's charts are installed with: its own, in its own namespace -/
def effectiveValues (r : Revision) : Except Fault Values := do (← Values.ofRaw r.values).override r.ns

/-- Installs the charts of a revision, those of the node agent first if it is wanted. -/
def installCharts (c : Config) (r : Revision) (values : Values) : Action Unit := do
  let owner := Chart.ownerOf r
  if ← Action.of values.isCniEnabled then Chart.install c values r.version owner cniCharts
  Chart.install c values r.version owner controlCharts

/-- Uninstalls the charts of a revision. -/
def uninstallCharts (c : Config) (r : Revision) : Action Unit := do
  Chart.uninstall c r.key cniCharts
  Chart.uninstall c r.key controlCharts

/-- Installs what a revision asks for, and gives the values it was done with and the fault, if there
was one. -/
def installPhase (c : Config) (r : Revision) : Action (Values × Option Fault) := do
  match effectiveValues r with
  | .error f => return (.empty, some f)
  | .ok values =>
    Action.log .info "Installing components" (aboutRevision r "install" "InstallStarted"
      ++ [("version", r.version), ("values", values.toData)])
    return (values, ← (installCharts c r values).fault?)

/-- a revision without a version, which is told to its users and recorded in its status -/
def refuse (r : Revision) : Action Unit := do
  let f := Fault.spec "no spec.version set"
  Action.log .warning "Invalid IstioRevision spec" (aboutRevision r "reconcile" "ValidateFailed"
    ++ [("error", .text f.message)])
  Api.emitEvent r "ValidateFailed" f.message "Warning"
  updateStatus r .empty (some f)

/-- Installs what a revision asks for and records how that went. -/
def installAndRecord (c : Config) (r : Revision) : Action Unit := do
  let (values, failure) ← installPhase c r
  if let some f := failure then Api.emitEvent r "InstallFailed" f.message "Warning"
  Action.log .info "Reconciliation done. Updating status."
    (aboutRevision r "reconcile" (if failure.isNone then "ReconcileSucceeded" else "InstallFailed"))
  updateStatus r values failure
  if let some f := failure then throw f

/-- Brings the cluster to what a revision asks for. -/
def converge (c : Config) (r : Revision) : Action Unit := do
  Action.log .info "Starting IstioRevision reconciliation"
    (aboutRevision r "reconcile" "ReconcileStarted")
  if r.version.truthy then installAndRecord c r else refuse r

/-- Takes down what was installed for a revision that is being deleted. -/
def finalize (c : Config) (r : Revision) : Action Unit := do
  if r.hasFinalizer then
    Action.log .info "Starting finalizer cleanup" (aboutRevision r "finalizer" "CleanupStarted")
    uninstallCharts c r
    Action.log .info "Finalizer cleanup finished" (aboutRevision r "finalizer" "CleanupSucceeded")

/-- what a reconcile does, before its outcome is counted -/
def attempt (c : Config) (k : Key) : Action ReconcileResult := do
  match ← Api.getRevision k with
  | none =>
    Action.log .debug "IstioRevision not found. Skipping reconciliation"
      (about k none "reconcile" "NotFound")
    return .skipped
  | some r =>
    if r.isTerminating then finalize c r else converge c r
    return .success

/-- Reconciles the revision under a key, and counts the outcome. -/
def reconcile (c : Config) (k : Key) : Action Unit :=
  tryCatch
    (do
      let result ← attempt c k
      Action.count (.reconcile result)
      Action.count .duration)
    fun f => do
      Action.log .error ("IstioRevision reconciliation failed: " ++ f.message)
        (about k none "reconcile" "ReconcileFailed")
      Action.count (.reconcile .error)
      Action.count .duration
      throw f

end MeshOperator.Reconcile
