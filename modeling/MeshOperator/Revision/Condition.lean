import MeshOperator.Data.Access

/-!
# Conditions

A condition of a revision: what it is about, whether it holds, why, and when that last changed. The
operator keeps two, `Reconciled` and `Ready`, and from them derives the state of the revision.

* `Condition.ofData`, `Condition.toData`: the form in a status; the empty parts are left out.
* `Condition.reconciled`: whether the charts are installed, or why not.
* `stateOf`: the reason of the first condition that does not hold.
-/

namespace MeshOperator

/-- A condition. Its parts are data as a status holds them. -/
structure Condition where
  type : Data
  status : Data := .text "Unknown"
  reason : Data := .text ""
  message : Data := .text ""
  since : Data := .text ""
deriving Repr, Inhabited

/-- the status of what holds -/
def statusTrue : Data := .text "True"

/-- the status of what does not hold -/
def statusFalse : Data := .text "False"

/-- the type of the condition that the charts are installed -/
def reconciledType : Data := .text "Reconciled"

/-- the type of the condition that the workloads are ready -/
def readyType : Data := .text "Ready"

namespace Condition

/-- the condition that a status holds -/
def ofData (d : Data) : Except Fault Condition := do
  return {
    type := ← d.entryOr "type" (.text "")
    status := ← d.entryOr "status" (.text "Unknown")
    reason := ← d.entryOrElse "reason" (.text "")
    message := ← d.entryOrElse "message" (.text "")
    since := ← d.entryOrElse "lastTransitionTime" (.text "") }

/-- an entry, unless it counts as no -/
def optional (key : String) (d : Data) : List (String × Data) := if d.truthy then [(key, d)] else []

/-- the form in a status -/
def toData (c : Condition) : Data :=
  .object ([("type", c.type), ("status", c.status)] ++ optional "reason" c.reason
    ++ optional "message" c.message ++ optional "lastTransitionTime" c.since)

/-- equality of all parts -/
def same (a b : Condition) : Bool :=
  a.type.same b.type && a.status.same b.status && a.reason.same b.reason
    && a.message.same b.message && a.since.same b.since

/-- the charts are installed, or are not for a reason -/
def reconciled : Option String → Condition
  | none => { type := reconciledType, status := statusTrue }
  | some why =>
    { type := reconciledType, status := statusFalse, reason := .text "ReconcileError",
      message := .text ("error reconciling resource: " ++ why) }

/-- the workloads are ready -/
def ready : Condition := { type := readyType, status := statusTrue }

/-- the workloads are not ready, for a reason -/
def notReady (reason message : String) : Condition :=
  { type := readyType, status := statusFalse, reason := .text reason, message := .text message }

/-- whether the condition is stated not to hold -/
def fails (c : Condition) : Bool := c.status.same statusFalse

end Condition

/-- the state of a revision with nothing wrong -/
def healthy : Data := .text "Healthy"

/-- The state of a revision: a failed reconcile outranks the unready workloads that it may have
caused. -/
def stateOf (reconciled ready : Condition) : Data :=
  if reconciled.fails then reconciled.reason else if ready.fails then ready.reason else healthy

end MeshOperator
