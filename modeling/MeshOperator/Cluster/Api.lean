import MeshOperator.Cluster.Action

/-!
# Calls of the API

The calls that the operator makes. Each is written into the journal, then fails as the cluster says,
then does its work; what is not there is not a fault of a reading call.
-/

namespace MeshOperator.Api

/-- the status of an answer that something is not there -/
def notFound : Data := .int 404

/-- the fault of a call about something that is not there -/
def notFoundFault : Fault := .api notFound (.text "Not Found")

/-- a call with its journal entry and the trouble of its operation -/
def call (o : Operation) (request : Request) : Action Unit := do
  Action.write (.call request)
  Action.of ((← Action.cluster).answer o)

/-- an answer, or none if what the call is about is not there -/
def ifFound {α : Type} (a : Action α) : Action (Option α) :=
  (do return some (← a)).orRefused fun status reason =>
    if status.same notFound then return none else throw (Fault.api status reason)

/-- what a call found, or the fault that it is not there -/
def found {α : Type} : Option α → Action α
  | some a => pure a
  | none => throw notFoundFault

/-- the revision under a key, if there is one -/
def getRevision (k : Key) : Action (Option Revision) := do
  let object? ← ifFound do
    call .getRevision (.getRevision k.ns k.name)
    found ((← Action.cluster).revision? k)
  match object? with
  | none => return none
  | some d => return some (← Action.of (Revision.ofData d))

/-- Writes the status of a revision, unless the revision was changed since it was read. -/
def patchStatus (r : Revision) (status : Data) : Action Unit := do
  let body := .object [("metadata", .object [("resourceVersion", r.resourceVersion)]),
    ("status", status)]
  call .patchStatus (.patchStatus r.ns r.name body)
  let _ ← found ((← Action.cluster).revision? r.key)
  Action.change fun c => c.withStatus r.key status

/-- the annotation that is touched on a revision when one of its objects changes -/
def triggerMark : String := apiGroup ++ "/reconcile-trigger"

/-- Touches a revision, so that it is reconciled; tells whether it is there. -/
def touchRevision (k : Key) : Action Bool := do
  let now := (← Action.cluster).clock.message
  let body := .object [("metadata",
    .object [("annotations", .object [(triggerMark, .text now)])])]
  let done ← ifFound do
    call .patchRevision (.patchRevision k.ns k.name body)
    let _ ← found ((← Action.cluster).revision? k)
  return done.isSome

/-- the deployment under a key, if there is one -/
def readDeployment (k : Key) : Action (Option (Option Workload)) :=
  ifFound do
    call .readDeployment (.readDeployment k.ns k.name)
    found (Cluster.find? k (← Action.cluster).deployments)

/-- the daemon set under a key, if there is one -/
def readDaemonSet (k : Key) : Action (Option (Option Workload)) :=
  ifFound do
    call .readDaemonSet (.readDaemonSet k.ns k.name)
    found (Cluster.find? k (← Action.cluster).daemonSets)

/-- entries without those that are null -/
def present (entries : List (String × Data)) : Data := .object (entries.filter fun e => !e.2.isNull)

/-- the event about a revision -/
def eventBody (r : Revision) (reason message type : String) : Data :=
  .object [
    ("metadata", .object [("generateName", .text (r.name.plainText ++ "-"))]),
    ("type", .text type), ("reason", .text reason), ("message", .text message),
    ("involvedObject", present [("apiVersion", .text groupVersion), ("kind", .text revisionKind),
      ("name", r.name), ("namespace", r.ns), ("uid", r.uid.orElse .null)]),
    ("reportingComponent", .text fieldManager)]

/-- Tells the cluster's users about a revision. A refusal is only logged. -/
def emitEvent (r : Revision) (reason message type : String) : Action Unit :=
  (call .createEvent (.createEvent r.ns (eventBody r reason message type))).orRefused fun _ why =>
    Action.log .warning ("Failed to emit event: " ++ why.plainText)
      [("controller", .text revisionKind), ("resource", .text r.key.text), ("event", .text "event"),
        ("reason", .text reason)]

/-- How the patch of an object was answered. -/
inductive PatchAnswer where
  | done
  | refused (status reason body : Data)

/-- Patches an object of a kind. -/
def patchObject (apiVersion kind body name ns : Data) : Action PatchAnswer := do
  let request := .patchObject apiVersion kind body name ns
  Action.write (.call request)
  match (← Action.cluster).patchTrouble? request with
  | none => return .done
  | some (.answer status reason body) => return .refused status reason body
  | some (.silence detail) => throw (.connection detail)

end MeshOperator.Api
