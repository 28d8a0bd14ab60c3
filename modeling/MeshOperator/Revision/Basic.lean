import MeshOperator.Revision.Key
import MeshOperator.Revision.Status

/-!
# Revisions

A revision of the mesh as the cluster holds it: its identity, the version and values of the charts it
wants, whether it is being deleted, and its status.
-/

namespace MeshOperator

/-- A revision as it was read. -/
structure Revision where
  name : Data
  ns : Data
  uid : Data
  generation : Int
  resourceVersion : Data
  finalizers : List Data
  deletedAt : Data
  version : Data
  values : Data
  status : Status
deriving Repr, Inhabited

namespace Revision

/-- the revision that an object of the cluster is -/
def ofData (d : Data) : Except Fault Revision := do
  let about ← d.entryOrElse "metadata" (.dict [])
  let spec ← d.entryOrElse "spec" (.dict [])
  let name ← about.entryOr "name" (.text "")
  let ns ← about.entryOr "namespace" (.text "")
  let uid ← about.entryOr "uid" (.text "")
  let generation ← (← about.entryOrElse "generation" (.int 0)).toInteger
  let resourceVersion ← about.entryOr "resourceVersion" (.text "")
  let finalizers ← (← about.entryOrElse "finalizers" (.list [])).members
  let deletedAt ← about.entry "deletionTimestamp"
  let version ← spec.entryOrElse "version" (.text "")
  let values ← spec.entry "values"
  let status ← Status.ofData (← d.entry "status")
  return { name, ns, uid, generation, resourceVersion, finalizers, deletedAt, version, values, status }

/-- the key of a revision -/
def key (r : Revision) : Key := ⟨r.ns, r.name⟩

/-- whether the revision is being deleted -/
def isTerminating (r : Revision) : Bool := !r.deletedAt.isNull

/-- whether removal waits for the operator -/
def hasFinalizer (r : Revision) : Bool := r.finalizers.any fun f => f.same (.text finalizer)

end Revision

end MeshOperator
