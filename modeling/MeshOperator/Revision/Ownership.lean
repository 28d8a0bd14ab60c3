import MeshOperator.Revision.Basic
import MeshOperator.Text.Cut

/-!
# Owners of installed objects

An object that was installed for a revision says so. One in a namespace has an owner reference; one
without a namespace cannot refer to a revision, which has one, and carries two annotations instead:
the key of the revision, and its kind with its group.

* `Revision.reference`, `ownershipAnnotations`: what is written on an object.
* `ownerOfReferences?`, `ownerOfAnnotations?`: the key of the revision that an object belongs to.
-/

namespace MeshOperator

/-- the annotation with the key of the owner -/
def ownerMark : String := "operator-sdk/primary-resource"

/-- the annotation with the kind of the owner and its group -/
def ownerTypeMark : String := "operator-sdk/primary-resource-type"

/-- the owner reference to a revision -/
def Revision.reference (r : Revision) : Data :=
  .object [("apiVersion", .text groupVersion), ("kind", .text revisionKind), ("name", r.name),
    ("uid", r.uid), ("controller", .bool true), ("blockOwnerDeletion", .bool true)]

/-- the annotations of an object of a revision -/
def ownershipAnnotations (ns name : Data) : Data :=
  .object [(ownerMark, .text (Key.mk ns name).text),
    (ownerTypeMark, .text (revisionKind ++ "." ++ apiGroup))]

/-- What annotations say of an owner: its key, if they name one, its kind and its group. -/
structure OwnerNote where
  key : Option Key
  kind : String
  group : String
deriving Repr

/-- the key that a text names: something on both sides of its first slash -/
def keyOfText? (s : String) : Option Key :=
  match Text.cutFirst? '/' s.toList with
  | some (ns, name) =>
    if ns.isEmpty || name.isEmpty then none
    else some ⟨.text (String.ofList ns), .text (String.ofList name)⟩
  | none => none

/-- what annotations say of an owner -/
def ownerNote (annotations : Data) : Except Fault OwnerNote := do
  let annotations := annotations.orElse (.dict [])
  let primary ← annotations.entryOr ownerMark (.text "")
  let key ← if primary.truthy then do .ok (keyOfText? (← primary.asText)) else .ok none
  let type ← (← annotations.entryOr ownerTypeMark (.text "")).asText
  let (kind, group) := (Text.cutFirst? '.' type.toList).getD (type.toList, [])
  return ⟨key, String.ofList kind, String.ofList group⟩

/-- the metadata of an object -/
def metadataOf (object : Data) : Except Fault Data := object.entryOrElse "metadata" (.dict [])

/-- the revision that the annotations of an object name -/
def ownerOfAnnotations? (object : Data) : Except Fault (Option Key) := do
  let annotations ← (← metadataOf object).entry "annotations"
  if annotations.truthy then
    let note ← ownerNote annotations
    return if note.kind = revisionKind ∧ note.group = apiGroup then note.key else none
  else return none

/-- the group of a version, which is what stands before its last slash -/
def groupOf (version : String) : String :=
  ((Text.cutLast? '/' version.toList).map fun p => String.ofList p.1).getD ""

/-- whether an owner reference is the controlling one to a revision -/
def isRevisionReference (ref : Data) : Except Fault Bool := do
  if (← ref.entry "controller").truthy && (← ref.entry "kind").same (.text revisionKind) then
    return groupOf (← (← ref.entryOr "apiVersion" (.text "")).asText) = apiGroup
  else return false

/-- the first of the references that is the controlling one to a revision -/
def firstOwner? (ns : Data) : List Data → Except Fault (Option Key)
  | [] => .ok none
  | ref :: refs => do
    if ← isRevisionReference ref then return some ⟨ns, ← ref.required "name"⟩
    else firstOwner? ns refs

/-- the revision that the owner references of an object in a namespace name -/
def ownerOfReferences? (object : Data) : Except Fault (Option Key) := do
  let about ← metadataOf object
  let ns ← about.entry "namespace"
  if ns.truthy then
    firstOwner? ns (← (← about.entryOrElse "ownerReferences" (.list [])).members)
  else return none

end MeshOperator
