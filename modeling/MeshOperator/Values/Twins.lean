import MeshOperator.Values.Basic

/-!
# Two trees of one store

A tree of values and another saved beside it, in one store, and the edits made to them: look-ups,
changes, taking a copy of the tree and exchanging the two.
-/

namespace MeshOperator

/-- Two trees of values in one store: the one at hand and a saved one. -/
structure Twins where
  store : Store
  current : Nat
  saved : Nat
deriving Repr, Inhabited

/-- One edit. -/
inductive Edit where
  | get (path : String)
  | getBool (path : String)
  | getText (path : String)
  | set (path : String) (value : Data)
  | copy
  | swap
deriving Repr

/-- What an edit answers: what a look-up found, or nothing. -/
inductive EditAnswer where
  | found (value : Option Data)
  | done
deriving Repr

namespace Twins

/-- a tree as its own saved one -/
def ofValues (v : Values) : Twins := ⟨v.store, v.root, v.root⟩

/-- the tree at hand -/
def values (t : Twins) : Values := ⟨t.store, t.current⟩

/-- the saved tree -/
def savedValues (t : Twins) : Values := ⟨t.store, t.saved⟩

/-- the trees and the answer after one edit -/
def step (t : Twins) : Edit → Twins × Except Fault EditAnswer
  | .get path => (t, .ok (.found ((t.values.get? path).map t.store.read)))
  | .getBool path => (t, (t.values.getBool path).map fun b => .found (b.map Data.bool))
  | .getText path => (t, (t.values.getText path).map fun s => .found (s.map Data.text))
  | .set path value =>
    let (v, r) := t.values.set path value
    (⟨v.store, t.current, t.saved⟩, r.map fun _ => .done)
  | .copy =>
    let v := t.values.copy
    (⟨v.store, v.root, t.current⟩, .ok .done)
  | .swap => (⟨t.store, t.saved, t.current⟩, .ok .done)

end Twins

end MeshOperator
