import MeshOperator.Log.Logger
import MeshOperator.Revision.Key

/-!
# The journal

Everything the operator does to the outside: calls of the API, runs of the chart tool, log records
and counts. An entry is written when the thing is tried, whether or not it succeeds.
-/

namespace MeshOperator

/-- A call of the API, with what it is about. -/
inductive Request where
  | getRevision (ns name : Data)
  | patchStatus (ns name body : Data)
  | patchRevision (ns name body : Data)
  | readDeployment (ns name : Data)
  | readDaemonSet (ns name : Data)
  | createEvent (ns body : Data)
  /-- a patch of an object of any kind, in a namespace if the kind has them -/
  | patchObject (apiVersion kind body name ns : Data)
deriving Repr

namespace Request

/-- what all calls about revisions have in common -/
def revisionParameters (ns name : Data) : List (String × Data) :=
  [("group", .text apiGroup), ("version", .text apiVersion), ("namespace", ns),
    ("plural", .text revisionPlural), ("name", name)]

/-- the form in which objects are patched -/
def mergePatch : String := "application/merge-patch+json"

/-- the parameters of a call; those that wait for an answer have a limit -/
def parameters (timeout : Double) : Request → Data
  | .getRevision ns name =>
    .object (revisionParameters ns name ++ [("_request_timeout", .double timeout)])
  | .patchStatus ns name body | .patchRevision ns name body =>
    .object (revisionParameters ns name ++ [("body", body), ("field_manager", .text fieldManager),
      ("_request_timeout", .double timeout)])
  | .readDeployment ns name | .readDaemonSet ns name =>
    .object [("name", name), ("namespace", ns), ("_request_timeout", .double timeout)]
  | .createEvent ns body => .object [("namespace", ns), ("body", body)]
  | .patchObject apiVersion kind body name ns =>
    .object [("api_version", apiVersion), ("kind", kind), ("body", body), ("name", name),
      ("namespace", ns), ("content_type", .text mergePatch)]

end Request

/-- What the chart tool is asked to do. -/
inductive ToolCommand where
  | upgrade (release path : String) (ns : Data) (timeout : Int)
  | manifest (release : String) (ns : Data)
  | uninstall (release : String) (ns : Data)
deriving Repr

namespace ToolCommand

/-- the verb of a command -/
def verb : ToolCommand → String
  | .upgrade .. => "upgrade"
  | .manifest .. => "get"
  | .uninstall .. => "uninstall"

/-- the release that a command is about -/
def release : ToolCommand → String
  | .upgrade release .. => release
  | .manifest release _ => release
  | .uninstall release _ => release

/-- the words of a command -/
def words : ToolCommand → List Data
  | .upgrade release path ns timeout =>
    [.text "upgrade", .text "--install", .text release, .text path, .text "--namespace", ns,
      .text "--values", .text "-", .text "--wait=false", .text "--timeout",
      .text (String.ofList (integerText timeout) ++ "s")]
  | .manifest release ns =>
    [.text "get", .text "manifest", .text release, .text "--namespace", ns]
  | .uninstall release ns => [.text "uninstall", .text release, .text "--namespace", ns]

end ToolCommand

/-- A run of the chart tool: the program, the command, what it reads, and the limit in seconds. -/
structure ToolRun where
  program : String
  command : ToolCommand
  input : Option String
  timeout : Double
deriving Repr

/-- What a reconcile came to. -/
inductive ReconcileResult where
  | success
  | skipped
  | error
deriving DecidableEq, Repr

/-- What is done with a chart. -/
inductive ChartOperation where
  | install
  | uninstall
deriving DecidableEq, Repr

namespace ReconcileResult

/-- the name of a result -/
def name : ReconcileResult → String
  | .success => "success"
  | .skipped => "skipped"
  | .error => "error"

end ReconcileResult

namespace ChartOperation

/-- the name of an operation -/
def name : ChartOperation → String
  | .install => "install"
  | .uninstall => "uninstall"

end ChartOperation

/-- What is counted. -/
inductive Metric where
  | reconcile (result : ReconcileResult)
  /-- a reconcile whose duration was taken -/
  | duration
  | trigger (kind : String)
  | chart (operation : ChartOperation) (success : Bool)
  | filtered (kind : String)
deriving DecidableEq, Repr

namespace Metric

/-- a name with labels, in braces -/
def labelled (name : String) (labels : List (String × String)) : String :=
  "istio_operator_" ++ name ++ "\x7b" ++ String.intercalate "," (labels.map fun l => l.1 ++ "=" ++ l.2)
    ++ "\x7d"

/-- the name of what is counted, with its labels -/
def text : Metric → String
  | .reconcile result => labelled "reconcile_total" [("result", result.name)]
  | .duration => "istio_operator_reconcile_duration_seconds_count"
  | .trigger kind => labelled "reconcile_triggers_total" [("kind", kind)]
  | .chart operation success =>
    labelled "chart_operations_total"
      [("operation", operation.name), ("result", if success then "success" else "error")]
  | .filtered kind => labelled "events_filtered_total" [("kind", kind)]

end Metric

/-- One thing that the operator did to the outside. -/
inductive Entry where
  | call (request : Request)
  | tool (run : ToolRun)
  | log (record : Log.Record)
  | count (metric : Metric)
deriving Repr

end MeshOperator
