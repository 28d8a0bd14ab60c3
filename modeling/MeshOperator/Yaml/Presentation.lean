import MeshOperator.Number.Layout
import MeshOperator.Text.Base64
import MeshOperator.Values.Basic
import MeshOperator.Yaml.Tag

/-!
# Values as they will be written

`Outline` is the tree that is written for values: entries in the order of their keys, a node that
stands in several places written once under an anchor, and everywhere else as an alias of it.
Anchors are numbered in the order in which the second places are met.

* `Store.anchors`: the numbers of the nodes that stand in several places.
* `Values.outline`: the tree.
-/

namespace MeshOperator

namespace Yaml

/-- What is written for a value. An alias and an anchor are numbers. -/
inductive Outline where
  | alias (anchor : Nat)
  | scalar (anchor : Option Nat) (tag : Tag) (text : String)
  | sequence (anchor : Option Nat) (items : List Outline)
  | mapping (anchor : Option Nat) (tag : Tag) (pairs : List (Outline × Outline))
deriving Repr, Inhabited

end Yaml

/-! ### The order of keys -/

/-- What keys can be ordered among themselves. -/
inductive KeyKind where
  | number
  | text
  | bytes
  | date
  | localMoment
  | moment
deriving DecidableEq, Repr

namespace Data

/-- the kind of a key, none for what has no order -/
def keyKind? : Data → Option KeyKind
  | .scalar (.bool _) | .scalar (.int _) | .scalar (.double _) => some .number
  | .scalar (.text _) => some .text
  | .scalar (.bytes _) => some .bytes
  | .date _ => some .date
  | .moment m => some (if m.offset.isSome then .moment else .localMoment)
  | _ => none

/-- the order of keys of one kind -/
def keyLt : Data → Data → Bool
  | .scalar (.text s), .scalar (.text t) => textLt s.toList t.toList
  | .scalar (.bytes s), .scalar (.bytes t) => s < t
  | .date a, .date b => a.lt b
  | .moment a, .moment b => a.instant < b.instant
  | .scalar a, .scalar b =>
    match a.point?, b.point? with
    | some x, some y => x.lt y
    | _, _ => false
  | _, _ => false

end Data

/-- how many entries after one with key `a` go on as it does: down, each before the one ahead of it, or
not down -/
def runLength {α : Type} (down : Bool) (a : Data) : List (Data × α) → Nat
  | [] => 0
  | e :: rest => if e.1.keyLt a = down then runLength down e.1 rest + 1 else 0

/-- the entries of the run that a list begins with, turned around if it goes down, and the others -/
def splitRun {α : Type} : List (Data × α) → List (Data × α) × List (Data × α)
  | [] => ([], [])
  | e :: rest =>
    let down := (rest.head?.map fun f => f.1.keyLt e.1).getD false
    let n := runLength down e.1 rest
    let run := e :: rest.take n
    (if down then run.reverse else run, rest.drop n)

/-- The place for a key among ordered entries from `low` up to `high`, found by halving; behind those
that it does not precede. `fuel` bounds the steps. -/
def placeOf {α : Type} (k : Data) (done : List (Data × α)) : (fuel low high : Nat) → Nat
  | 0, low, _ => low
  | fuel + 1, low, high =>
    if low < high then
      let mid := low + (high - low) / 2
      if (done[mid]?.map fun e => k.keyLt e.1).getD false then placeOf k done fuel low mid
      else placeOf k done fuel (mid + 1) high
    else low

/-- an entry put in its place among ordered ones -/
def insertByKey {α : Type} (done : List (Data × α)) (e : Data × α) : List (Data × α) :=
  let n := placeOf e.1 done done.length 0 done.length
  done.take n ++ e :: done.drop n

/-- Entries in the order of their keys, if all are of one kind, else as they are. Since not-a-number is
neither before nor after anything, the way of ordering tells where it comes to stand: the run at the
start is kept, and each further entry is put in its place. -/
def orderByKey {α : Type} (entries : List (Data × α)) : List (Data × α) :=
  match entries with
  | [] => []
  | e :: rest =>
    match e.1.keyKind? with
    | none => e :: rest
    | some k =>
      if rest.all fun f => f.1.keyKind? = some k then
        let (run, others) := splitRun (e :: rest)
        others.foldl insertByKey run
      else e :: rest

namespace Store

/-- the entries of a mapping in the order in which they are written -/
def writtenEntries (s : Store) (entries : List (Item × Item)) : List (Item × Item) :=
  (orderByKey (entries.map fun e => (s.read e.1, e))).map Prod.snd

/-- the items that a node holds, in the order in which they are written -/
def parts (s : Store) (n : Nat) : List Item :=
  match s.cells[n]? with
  | some (.dict entries) => (s.writtenEntries entries).flatMap fun e => [e.1, e.2]
  | some (.list items) | some (.tuple items) => items
  | some (.set items) => (s.writtenEntries (items.map fun i => (i, .scalar .null))).map Prod.fst
  | _ => []

/-! ### Nodes in several places -/

/-- the nodes met, last first, and of these the ones met again, in the order of that -/
structure Visits where
  seen : List Nat
  again : List Nat

/-- Visits an item and, when it is met for the first time, what it holds. `fuel` bounds the depth. -/
def visit (s : Store) : (fuel : Nat) → Visits → Item → Visits
  | 0, v, _ => v
  | _, v, .scalar _ => v
  | fuel + 1, v, .node n =>
    if v.seen.contains n then
      if v.again.contains n then v else { v with again := v.again ++ [n] }
    else (s.parts n).foldl (s.visit fuel) { v with seen := n :: v.seen }

/-- The nodes within an item that stand in several places, in the order of their numbers. -/
def anchors (s : Store) (i : Item) : List Nat := (s.visit (s.cells.size + 1) ⟨[], []⟩ i).again

/-- the number of a node's anchor, from one -/
def anchorOf? (anchors : List Nat) (n : Nat) : Option Nat :=
  (anchors.findIdx? (· = n)).map (· + 1)

end Store

namespace Yaml

/-- a scalar to be written -/
def scalarOutline : Scalar → Outline
  | .null => .scalar none .null "null"
  | .bool b => .scalar none .bool (if b then "true" else "false")
  | .int n => .scalar none .int (String.ofList (integerText n))
  | .double d => .scalar none .float (String.ofList (NumberLayout.yaml.text d))
  | .text s => .scalar none .text s
  | .bytes b => .scalar none .binary (String.ofList (Base64.encodeLines b))

/-- The tree for an item, and the nodes written so far. `fuel` bounds the depth. -/
def outlineFrom (s : Store) (anchors : List Nat) :
    (fuel : Nat) → (written : List Nat) → Item → Outline × List Nat
  | _, written, .scalar x => (scalarOutline x, written)
  | 0, written, .node _ => (scalarOutline .null, written)
  | fuel + 1, written, .node n =>
    let anchor := Store.anchorOf? anchors n
    if written.contains n then (.alias (anchor.getD 0), written)
    else
      let written := n :: written
      let sequence (items : List Item) : Outline × List Nat :=
        let (os, written) := items.foldl (fun (os, written) i =>
          let (o, written) := outlineFrom s anchors fuel written i
          (o :: os, written)) ([], written)
        (.sequence anchor os.reverse, written)
      let mapping (tag : Tag) (entries : List (Item × Item)) : Outline × List Nat :=
        let (ps, written) := (s.writtenEntries entries).foldl (fun (ps, written) e =>
          let (k, written) := outlineFrom s anchors fuel written e.1
          let (v, written) := outlineFrom s anchors fuel written e.2
          ((k, v) :: ps, written)) ([], written)
        (.mapping anchor tag ps.reverse, written)
      match s.cells[n]? with
      | some (.dict entries) => mapping .mapping entries
      | some (.set items) => mapping .set (items.map fun i => (i, .scalar .null))
      | some (.list items) | some (.tuple items) => sequence items
      | some (.date d) => (.scalar anchor .timestamp (String.ofList d.iso), written)
      | some (.moment m) => (.scalar anchor .timestamp (String.ofList (m.iso ' ')), written)
      | none => (scalarOutline .null, written)

end Yaml

/-- the tree that is written for values -/
def Values.outline (v : Values) : Yaml.Outline :=
  let i := Item.node v.root
  (Yaml.outlineFrom v.store (v.store.anchors i) (v.store.cells.size + 1) [] i).1

end MeshOperator
