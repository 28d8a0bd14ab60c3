import MeshOperator.Values.Store
import MeshOperator.Text.Cut

/-!
# Chart values

The values given to a chart are a mapping, reached by dotted paths such as `istio_cni.enabled`. A
typed look-up takes null for absent and refuses a value of another type.

* `Values.get?`, `Values.getBool`, `Values.getText`: look-ups.
* `Values.set`: sets a value, creating the mappings that are missing on the way.
* `Values.copy`: a copy that shares no node with the original.
-/

namespace MeshOperator

/-- Chart values: a mapping in a store. -/
structure Values where
  store : Store
  root : Nat
deriving Repr, Inhabited

/-- the keys of a dotted path -/
def pathKeys (path : String) : List String := Text.pieces '.' path

namespace Values

/-- no values -/
def empty : Values := ⟨⟨#[.dict []]⟩, 0⟩

/-- the values of a mapping's entries, in nodes of their own -/
def ofEntries (entries : List (Data × Data)) : Values :=
  let (s, es) := Store.empty.addEntries entries
  let (s, n) := s.push (.dict es)
  ⟨s, n⟩

/-- The values that a mapping in a store holds, at a node that nothing in the store refers to. -/
def reroot (s : Store) (entries : List (Item × Item)) : Values :=
  let (s, n) := s.push (.dict entries)
  ⟨s, n⟩

/-- the values as data -/
def toData (v : Values) : Data := v.store.read (.node v.root)

/-- the item at a dotted path -/
def get? (v : Values) (path : String) : Option Item :=
  v.store.resolve? (.node v.root) (pathKeys path)

/-- A typed look-up: none when the path leads nowhere or to null, a fault when it leads to what
`pick` refuses. -/
def getTyped {α : Type} (v : Values) (path expected : String) (pick : Item → Option α) :
    Except Fault (Option α) :=
  match v.get? path with
  | none | some (.scalar .null) => .ok none
  | some i =>
    match pick i with
    | some a => .ok (some a)
    | none => .error (.ofKind path expected (v.store.read i))

/-- the truth value at a path -/
def getBool (v : Values) (path : String) : Except Fault (Option Bool) :=
  v.getTyped path "bool" Item.bool?

/-- the text at a path -/
def getText (v : Values) (path : String) : Except Fault (Option String) :=
  v.getTyped path "string" Item.text?

/-- Sets the value at a path. The values afterwards are given back in either case. -/
def set (v : Values) (path : String) (value : Data) : Values × Except Fault Unit :=
  let (s, i) := v.store.add value
  let (s, r) := s.setPath v.root [] (pathKeys path) i
  (⟨s, v.root⟩, r)

/-- The same values in nodes of their own, in a store that still holds the original's. -/
def copy (v : Values) : Values := ⟨v.store.twin, v.root + v.store.cells.size⟩

/-- where the values hold the namespace of the revision -/
def namespacePath : String := "global.istioNamespace"

/-- where the values say whether the node agent is wanted -/
def cniPath : String := "istio_cni.enabled"

/-- where the values name the revision -/
def revisionPath : String := "revision"

/-- The effective values: a copy in which the namespace is the revision's own. -/
def override (v : Values) (ns : Data) : Except Fault Values :=
  match v.copy.set namespacePath ns with
  | (w, .ok ()) => .ok w
  | (_, .error f) => .error f

end Values

end MeshOperator
