import MeshOperator.Chart.Path
import MeshOperator.Cluster.Api
import MeshOperator.Config
import MeshOperator.Revision.Ownership
import MeshOperator.Values.Decode
import MeshOperator.Yaml.Writer

/-!
# Installing charts

A chart is installed by the chart tool, then every object of its release is stamped with its owner:
the objects in namespaces with an owner reference, the others with annotations. Charts of a list are
worked off in order, and the first fault ends the work.

* `Chart.install`: installs or upgrades charts.
* `Chart.uninstall`: removes their releases; one that is not there is no fault.
-/

namespace MeshOperator.Chart

/-- Whom charts are installed for. -/
structure Owner where
  name : Data
  ns : Data
  /-- the owner reference of the objects in namespaces -/
  reference : Data
deriving Repr

namespace Owner

/-- the key of an owner -/
def key (o : Owner) : Key := ⟨o.ns, o.name⟩

end Owner

/-- a revision as an owner -/
def ownerOf (r : Revision) : Owner := ⟨r.name, r.ns, r.reference⟩

/-- a fault of an operation on a chart -/
def fault (chart : String) (operation : ChartOperation) (detail : String) : Fault :=
  .chart chart operation.name detail

/-! ### The chart tool -/

/-- Runs the chart tool, and gives the code it ends with and its two outputs. -/
def runTool (c : Config) (chart : String) (operation : ChartOperation) (command : ToolCommand)
    (input : Option String) : Action (Int × String × String) := do
  Action.write (.tool ⟨c.helmBinary, command, input, c.helmTimeout⟩)
  match (← Action.cluster).reply command.verb command.release with
  | .ended code output errors => return (code, output, errors)
  | .missing =>
    throw (fault chart operation ("helm binary not found: [Errno 2] No such file or directory: "
      ++ String.ofList (Text.quoted c.helmBinary.toList)))
  | .forbidden => throw (.forbidden c.helmBinary)
  | .tooSlow =>
    throw (fault chart operation ("helm timed out after " ++ c.helmTimeout.message ++ "s"))

/-- Runs the chart tool, and gives its output if it ends well; else its complaint is the fault. -/
def runInstallTool (c : Config) (chart : String) (command : ToolCommand) (input : Option String) :
    Action (Except Fault String) := do
  let (code, output, errors) ← runTool c chart .install command input
  return if code = 0 then .ok output else .error (fault chart .install (Text.strip errors))

/-! ### Stamping -/

/-- the kind of an object, none for an empty document and one without a kind -/
def kindOf? (object : Data) : Except Fault (Option (Data × Data)) := do
  if !object.truthy then return none
  else if ← object.holds "kind" then
    let apiVersion ← object.required "apiVersion"
    return some (apiVersion, ← object.required "kind")
  else return none

/-- The patch that stamps an object, and the namespace it is sent to. -/
def stampOf (o : Owner) (object : Data) (namespaced : Bool) : Except Fault (Data × Data) := do
  let about ← metadataOf object
  if namespaced then
    let ns := (← about.entry "namespace").orElse o.ns
    return (.object [("metadata", .object [("ownerReferences", .list [o.reference])])], ns)
  else
    return (.object [("metadata", .object [("annotations", ownershipAnnotations o.ns o.name)])], .null)

/-- the words of a refusal -/
def refusal (status reason body : Data) : String :=
  status.plainText ++ "\nReason: " ++ reason.plainText
    ++ (if body.truthy then "\nHTTP response body: " ++ body.plainText else "")

/-- Stamps an object with its owner. One that is gone since is passed over. -/
def stampObject (chart : String) (o : Owner) (object : Data) : Action Unit := do
  match ← Action.of (kindOf? object) with
  | none => return ()
  | some (apiVersion, kind) =>
    match (← Action.cluster).kinds.answer apiVersion kind with
    | .failed detail => throw (.connection detail)
    | .unknown detail =>
      if !kind.isWritable then throw (.number .tooLong)
      throw (fault chart .install ("unknown kind " ++ kind.plainText ++ ": " ++ detail))
    | .known namespaced =>
      let (body, ns) ← Action.of (stampOf o object namespaced)
      let name ← Action.of (do (← metadataOf object).required "name")
      match ← Api.patchObject apiVersion kind body name ns with
      | .done => return ()
      | .refused status reason body =>
        if status.same Api.notFound then return ()
        else
          throw (fault chart .install ("failed to stamp " ++ kind.plainText ++ "/" ++ name.plainText
            ++ ": " ++ refusal status reason body))

/-- Stamps the objects of a manifest, each before the next is read. `fuel` bounds their number. -/
def stampAll (chart : String) (o : Owner) :
    (fuel : Nat) → (first : Bool) → Yaml.Stream → Action Unit
  | 0, _, _ => return ()
  | fuel + 1, first, s => do
    match ← Action.of (s.nextValue? first) with
    | none => return ()
    | some (object, rest) =>
      stampObject chart o object
      stampAll chart o fuel false rest

/-- Stamps the objects of a manifest. Each document has a token of its own. -/
def stampManifest (chart : String) (o : Owner) (manifest : String) : Action Unit :=
  let tokens := Yaml.Tokens.ofText manifest.toList
  stampAll chart o (tokens.list.length + 2) true (Yaml.Stream.ofTokens tokens)

/-- Stamps the objects of a release. -/
def stampRelease (c : Config) (chart release : String) (o : Owner) : Action Unit := do
  let manifest ← Action.of (← runInstallTool c chart (.manifest release o.ns) none)
  stampManifest chart o manifest

/-! ### Installing and uninstalling -/

/-- an action whose fault counts as a failed operation -/
def counted (operation : ChartOperation) {α : Type} (r : Except Fault α) : Action α := do
  match r with
  | .ok a => return a
  | .error f =>
    Action.count (.chart operation false)
    throw f

/-- Installs one chart, with its values as text. -/
def installOne (c : Config) (values : String) (version : Data) (o : Owner) (chart : String) :
    Action Unit := do
  let directory ← Action.of (pathOf c.resources version chart)
  let found := (← Action.cluster).hasChart directory
  counted .install (if found then .ok () else
    .error (fault chart .install ("chart directory " ++ directory ++ " does not exist")))
  let release := release o.name chart
  let limit ← Action.of (orFault .number c.helmTimeout.toInteger)
  let answer ← runInstallTool c chart (.upgrade release directory o.ns limit) (some values)
  let _ ← counted .install answer
  Action.log .info "Chart installed" [("controller", .text revisionKind),
    ("resource", .text o.key.text), ("event", .text "install"), ("reason", .text "ChartInstalled"),
    ("chart", .text chart), ("release", .text release), ("version", version)]
  stampRelease c chart release o
  Action.count (.chart .install true)

/-- Installs or upgrades charts, with their values as text. -/
def installEach (c : Config) (values : String) (version : Data) (o : Owner) :
    List String → Action Unit
  | [] => return ()
  | chart :: rest => do
    installOne c values version o chart
    installEach c values version o rest

/-- Installs or upgrades charts. The values are written once, before the first. -/
def install (c : Config) (values : Values) (version : Data) (o : Owner) (charts : List String) :
    Action Unit := do
  installEach c (← Action.of values.yaml) version o charts

/-- how the chart tool complains of a release that is not there -/
def notFoundWords : List Char := "not found".toList

/-- Passes over a complaint that something is not found; any other is a fault. -/
def passOver (o : Key) (chart complaint : String) : Action Unit := do
  counted .uninstall (if Text.occurs notFoundWords complaint.toList then .ok () else
    .error (fault chart .uninstall complaint))
  Action.log .debug "Release not installed, nothing to uninstall" [
    ("controller", .text revisionKind), ("resource", .text o.text), ("event", .text "uninstall"),
    ("reason", .text "ReleaseNotFound"), ("release", .text (release o.name chart))]

/-- Removes the release of one chart. A complaint that something is not found counts as success. -/
def uninstallOne (c : Config) (o : Key) (chart : String) : Action Unit := do
  let command := .uninstall (release o.name chart) o.ns
  let (code, _, errors) ← runTool c chart .uninstall command none
  if code ≠ 0 then passOver o chart (Text.strip errors)
  Action.count (.chart .uninstall true)

/-- Removes the releases of charts. -/
def uninstall (c : Config) (o : Key) : List String → Action Unit
  | [] => return ()
  | chart :: rest => do
    uninstallOne c o chart
    uninstall c o rest

end MeshOperator.Chart
