import MeshOperator.Data.Shown

/-!
# Keys of revisions

A revision is named by a namespace and a name. Both are taken from objects as they are, so they may
be data of any kind.
-/

namespace MeshOperator

/-- The namespace and the name of an object. -/
structure Key where
  ns : Data
  name : Data
deriving Repr, Inhabited

/-- `namespace/name` -/
def Key.text (k : Key) : String := k.ns.plainText ++ "/" ++ k.name.plainText

/-- the group of the operator's own resources -/
def apiGroup : String := "operator.istio.io"

/-- the version of the revisions' form -/
def apiVersion : String := "v1alpha1"

/-- the group and the version together -/
def groupVersion : String := apiGroup ++ "/" ++ apiVersion

/-- the kind of revisions -/
def revisionKind : String := "IstioRevision"

/-- the name of revisions in requests -/
def revisionPlural : String := "istiorevisions"

/-- what holds a revision back from removal until its charts are gone -/
def finalizer : String := apiGroup ++ "/delete"

/-- the name under which the operator writes -/
def fieldManager : String := "istio-operator"

end MeshOperator
