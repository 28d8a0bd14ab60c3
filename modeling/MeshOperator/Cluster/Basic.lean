import MeshOperator.Cluster.Journal
import MeshOperator.Revision.Basic

/-!
# The cluster

What the operator meets outside itself: the revisions and workloads that the cluster holds, how its
API fails, what it says of kinds, the answers of the chart tool, the charts on disk and the clock.
-/

namespace MeshOperator

/-- What the API does for the operator. -/
inductive Operation where
  | getRevision
  | patchStatus
  | patchRevision
  | readDeployment
  | readDaemonSet
  | createEvent
deriving DecidableEq, Repr

/-- How a call fails: with an answer other than success, or without one. -/
inductive Trouble where
  | answer (status reason body : Data)
  | silence (detail : String)
deriving Repr

/-- the fault of a call that meets trouble -/
def Trouble.fault : Trouble → Fault
  | .answer status reason _ => .api status reason
  | .silence detail => .connection detail

/-- The counts of a workload: how many of its parts are wanted, and how many are ready. -/
structure Workload where
  wanted : Option Int
  ready : Option Int
deriving DecidableEq, Repr

/-- How the chart tool answers: it ends with a code and two outputs, or it does not run to its end. -/
inductive ToolReply where
  | ended (code : Int) (output errors : String)
  | missing
  | forbidden
  | tooSlow
deriving DecidableEq, Repr

/-- What the API says of a kind: that it knows it, and whether its objects are in namespaces, or that it
does not know it. Any other failure to say so is told by its words. -/
inductive KindAnswer where
  | known (namespaced : Bool)
  | unknown (detail : String)
  | failed (detail : String)
deriving DecidableEq, Repr

/-- What the API says of each kind under each version. -/
structure Discovery where
  answer : (apiVersion kind : Data) → KindAnswer

/-- The kinds of a table are known, each under every version, and no others are. -/
def Discovery.ofTable (kinds : List (String × Bool)) : Discovery where
  answer _ kind :=
    let namespaced? := match kind with
      | .text k => kinds.lookup k
      | _ => none
    match namespaced? with
    | some namespaced => .known namespaced
    | none => .unknown ("No matches found for " ++ kind.plainText)

instance : Coe (List (String × Bool)) Discovery := ⟨.ofTable⟩

/-- What the operator meets outside itself. A workload may be there without counts. -/
structure Cluster where
  /-- seconds since 1970 -/
  clock : Double
  revisions : List (Key × Data) := []
  deployments : List (Key × Option Workload) := []
  daemonSets : List (Key × Option Workload) := []
  /-- the operations that fail -/
  troubles : List (Operation × Trouble) := []
  /-- what the API says of kinds of objects -/
  kinds : Discovery
  /-- the objects whose patch fails, by kind and name -/
  patchTroubles : List (String × Trouble) := []
  /-- how any other patch fails, if it does -/
  otherTroubles : Request → Option Trouble := fun _ => none
  /-- the replies of the chart tool, by verb, or by verb and release -/
  replies : List (String × ToolReply) := []
  /-- the directories with charts, none for all directories -/
  charts : Option (List String) := none

/-- whether two keys are the same -/
def Key.same (a b : Key) : Bool := a.ns.same b.ns && a.name.same b.name

namespace Cluster

/-- what stands under a key -/
def find? {α : Type} (k : Key) : List (Key × α) → Option α
  | [] => none
  | e :: es => if e.1.same k then some e.2 else find? k es

/-- what stands under a key replaced, or added -/
def put {α : Type} (k : Key) (a : α) : List (Key × α) → List (Key × α)
  | [] => [(k, a)]
  | e :: es => if e.1.same k then (e.1, a) :: es else e :: put k a es

/-- without what stands under a key -/
def remove {α : Type} (k : Key) (es : List (Key × α)) : List (Key × α) :=
  es.filter fun e => !e.1.same k

/-- the object that a revision is -/
def revision? (c : Cluster) (k : Key) : Option Data := find? k c.revisions

/-- the status of a revision -/
def statusOf? (c : Cluster) (k : Key) : Option Data :=
  (c.revision? k).bind fun d => match d with
    | .dict es => Data.lookup? "status" es
    | _ => none

/-- with the status of a revision replaced, if the revision is there -/
def withStatus (c : Cluster) (k : Key) (status : Data) : Cluster :=
  match c.revision? k with
  | some (.dict es) =>
    { c with revisions := put k (.dict (Data.withEntry "status" status es)) c.revisions }
  | _ => c

/-- how an operation fails, if it does -/
def trouble? (c : Cluster) (o : Operation) : Option Trouble := c.troubles.lookup o

/-- how the API answers an operation -/
def answer (c : Cluster) (o : Operation) : Except Fault Unit :=
  match c.trouble? o with
  | none => .ok ()
  | some t => .error t.fault

/-- how the patch of an object fails, if it does -/
def patchTrouble? (c : Cluster) : Request → Option Trouble
  | q@(.patchObject _ kind _ name _) =>
    (c.patchTroubles.lookup (kind.plainText ++ "/" ++ name.plainText)).or (c.otherTroubles q)
  | _ => none

/-- whether a directory holds a chart -/
def hasChart (c : Cluster) (path : String) : Bool :=
  match c.charts with
  | none => true
  | some ps => ps.contains path

/-- the reply to a verb for a release: the one for both, or the one for the verb; without either the
tool ends well and says nothing -/
def reply (c : Cluster) (verb release : String) : ToolReply :=
  ((c.replies.lookup (verb ++ " " ++ release)).or (c.replies.lookup verb)).getD (.ended 0 "" "")

/-- the kinds that every cluster knows -/
def commonKinds : List (String × Bool) :=
  ["ConfigMap", "Deployment", "DaemonSet", "Secret", "Service", "ServiceAccount", "Role",
    "RoleBinding"].map (·, true)
  ++ ["ClusterRole", "ClusterRoleBinding", "Namespace", "CustomResourceDefinition",
    "MutatingWebhookConfiguration", "ValidatingWebhookConfiguration"].map (·, false)

/-- a cluster with nothing in it -/
def bare (clock : Double) : Cluster := { clock, kinds := commonKinds }

end Cluster

end MeshOperator
