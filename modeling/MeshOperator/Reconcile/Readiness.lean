import MeshOperator.Cluster.Api
import MeshOperator.Values.Basic

/-!
# Readiness

A revision is ready when the deployment of its control plane is, and, if the node agent is wanted, its
daemon set. The checks have a fixed order, and the first that fails gives the condition. A workload
that is not there is not ready; one that cannot be read is a fault.
-/

namespace MeshOperator

/-- whether the node agent is wanted -/
def Values.isCniEnabled (v : Values) : Except Fault Bool := do
  return (← v.getBool Values.cniPath).getD false

/-- the name of the control plane's deployment, with the name of the revision if there is one -/
def Values.deploymentName (v : Values) : Except Fault String := do
  let label := (← v.getText Values.revisionPath).getD ""
  return if label = "" then "istiod" else "istiod-" ++ label

namespace Readiness

/-- the counts of a workload, zero where nothing is said -/
def counts (w : Option Workload) : Int × Int :=
  match w with
  | none => (0, 0)
  | some w => (w.wanted.getD 0, w.ready.getD 0)

/-- Why a workload is not ready, if it is not: it is not there, nothing of it is wanted, or less is
ready than is wanted. -/
def gap? (absent unwanted unready : String) : Option (Option Workload) → Option String
  | none => some absent
  | some w =>
    let (wanted, ready) := counts w
    if wanted = 0 then some unwanted
    else if ready < wanted then some unready
    else none

/-- why the deployment is not ready, if it is not -/
def deploymentGap? : Option (Option Workload) → Option String :=
  gap? "control-plane deployment not found" "deployment is scaled to zero replicas"
    "not all control-plane pods are ready"

/-- why the daemon set is not ready, if it is not -/
def daemonSetGap? : Option (Option Workload) → Option String :=
  gap? "daemon set not found" "no pods currently scheduled" "not all pods are ready"

/-- a workload as read, or the fault that it cannot be read -/
def reading (what : String) (k : Key) (a : Action (Option (Option Workload))) :
    Action (Option (Option Workload)) :=
  a.orRefused fun _ reason =>
    throw (Fault.readiness ("failed to read " ++ what ++ " " ++ k.text ++ ": " ++ reason.plainText))

/-- the condition that the workloads of a revision are ready, or why they are not -/
def evaluate (r : Revision) (values : Values) : Action Condition := do
  let istiod : Key := ⟨r.ns, .text (← Action.of values.deploymentName)⟩
  match deploymentGap? (← reading "Deployment" istiod (Api.readDeployment istiod)) with
  | some gap => return .notReady "IstiodNotReady" gap
  | none =>
    if ← Action.of values.isCniEnabled then
      let cni : Key := ⟨r.ns, .text "istio-cni-node"⟩
      match daemonSetGap? (← reading "DaemonSet" cni (Api.readDaemonSet cni)) with
      | some gap => return .notReady "CNINotReady" gap
      | none => return .ready
    else return .ready

end Readiness

end MeshOperator
