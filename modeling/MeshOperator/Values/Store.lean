import MeshOperator.Fault

/-!
# Stores of shared nodes

Values read from text may hold one mapping or list in several places, or within itself, and a change
made through one place shows in all. A store holds the nodes by number; an item is a scalar or the
number of a node.

* `Store.read`: the data that an item stands for, with `again` where a node holds itself.
* `Store.resolve?`: the item at the end of a path of keys.
* `Store.setPath`: sets the item at the end of a path, creating the mappings that are missing.
* `Store.twin`: a copy of every node, with the links among the copies those among the nodes.
-/

namespace MeshOperator

/-- What a node holds in one place: a scalar, or another node by its number. -/
inductive Item where
  | scalar (s : Scalar)
  | node (n : Nat)
deriving DecidableEq, Repr, Inhabited

/-- the truth value that an item is -/
def Item.bool? : Item → Option Bool
  | .scalar (.bool b) => some b
  | _ => none

/-- the text that an item is -/
def Item.text? : Item → Option String
  | .scalar (.text s) => some s
  | _ => none

/-- What a node is. Dates and moments are nodes, since one can stand in several places. -/
inductive Cell where
  | dict (entries : List (Item × Item))
  | list (items : List Item)
  | tuple (items : List Item)
  | set (items : List Item)
  | date (d : Date)
  | moment (m : Moment)
deriving DecidableEq, Repr, Inhabited

/-- Nodes by number. -/
structure Store where
  cells : Array Cell
deriving DecidableEq, Repr, Inhabited

/-- the item with the nodes renumbered -/
def Item.rename (f : Nat → Nat) : Item → Item
  | .scalar s => .scalar s
  | .node n => .node (f n)

/-- the node with the nodes that it holds renumbered -/
def Cell.rename (f : Nat → Nat) : Cell → Cell
  | .dict entries => .dict (entries.map fun e => (e.1.rename f, e.2.rename f))
  | .list items => .list (items.map (Item.rename f))
  | .tuple items => .tuple (items.map (Item.rename f))
  | .set items => .set (items.map (Item.rename f))
  | .date d => .date d
  | .moment m => .moment m

/-- the item under a text among a mapping's entries -/
def entryAt? (key : String) : List (Item × Item) → Option Item
  | [] => none
  | (k, v) :: rest => if k = .scalar (.text key) then some v else entryAt? key rest

/-- the entries with the item under a text replaced in its place, or added at the end -/
def putEntry (key : String) (value : Item) : List (Item × Item) → List (Item × Item)
  | [] => [(.scalar (.text key), value)]
  | (k, v) :: rest =>
    if k = .scalar (.text key) then (k, value) :: rest else (k, v) :: putEntry key value rest

namespace Store

/-- the store without nodes -/
def empty : Store := ⟨#[]⟩

/-- a node added, and its number -/
def push (s : Store) (c : Cell) : Store × Nat := (⟨s.cells.push c⟩, s.cells.size)

/-- the entries of a node that is a mapping -/
def entries? (s : Store) (n : Nat) : Option (List (Item × Item)) :=
  match s.cells[n]? with
  | some (.dict entries) => some entries
  | _ => none

/-- the entries of an item that is a mapping -/
def itemEntries? (s : Store) : Item → Option (List (Item × Item))
  | .node n => s.entries? n
  | .scalar _ => none

/-- The data that an item stands for. `fuel` bounds the depth, `above` holds the nodes that the item
is read within. -/
def readFrom (s : Store) : (fuel : Nat) → (above : List Nat) → Item → Data
  | _, _, .scalar x => .scalar x
  | 0, _, .node _ => .null
  | fuel + 1, above, .node n =>
    match s.cells[n]? with
    | none => .null
    | some (.date d) => .date d
    | some (.moment m) => .moment m
    | some (.dict entries) =>
      if above.contains n then .again true
      else .dict (entries.map fun e =>
        (s.readFrom fuel (n :: above) e.1, s.readFrom fuel (n :: above) e.2))
    | some (.list items) =>
      if above.contains n then .again false
      else .list (items.map (s.readFrom fuel (n :: above)))
    | some (.tuple items) =>
      if above.contains n then .again false
      else .tuple (items.map (s.readFrom fuel (n :: above)))
    | some (.set items) =>
      if above.contains n then .again false
      else .set (items.map (s.readFrom fuel (n :: above)))

/-- The data that an item stands for. No node is read within itself, so the depth is at most the
number of nodes. -/
def read (s : Store) (i : Item) : Data := s.readFrom (s.cells.size + 1) [] i

/-- The data that an item stands for, where the mappings down to a depth are opened first. What is found in
them is read on its own, also if it holds the mapping it was found in. -/
def readOpened (s : Store) : (depth : Nat) → Item → Data
  | 0, i => s.read i
  | depth + 1, i =>
    match s.itemEntries? i with
    | some entries => .dict (entries.map fun e => (s.readOpened depth e.1, s.readOpened depth e.2))
    | none => s.read i

mutual

/-- nodes for data, and the item that stands for it -/
def add (s : Store) : Data → Store × Item
  | .scalar x => (s, .scalar x)
  | .date d => let (s, n) := s.push (.date d); (s, .node n)
  | .moment m => let (s, n) := s.push (.moment m); (s, .node n)
  | .list ds =>
    let (s, items) := s.addItems ds
    let (s, n) := s.push (.list items)
    (s, .node n)
  | .tuple ds =>
    let (s, items) := s.addItems ds
    let (s, n) := s.push (.tuple items)
    (s, .node n)
  | .set ds =>
    let (s, items) := s.addItems ds
    let (s, n) := s.push (.set items)
    (s, .node n)
  | .dict es =>
    let (s, entries) := s.addEntries es
    let (s, n) := s.push (.dict entries)
    (s, .node n)
  | .again _ => (s, .scalar .null)

/-- nodes for the items of a sequence -/
def addItems (s : Store) : List Data → Store × List Item
  | [] => (s, [])
  | d :: ds =>
    let (s, i) := s.add d
    let (s, is) := s.addItems ds
    (s, i :: is)

/-- nodes for the entries of a mapping -/
def addEntries (s : Store) : List (Data × Data) → Store × List (Item × Item)
  | [] => (s, [])
  | (k, v) :: es =>
    let (s, i) := s.add k
    let (s, j) := s.add v
    let (s, is) := s.addEntries es
    (s, (i, j) :: is)

end

/-- the item at the end of a path of keys, each looked up in the mapping that the one before led to -/
def resolve? (s : Store) (i : Item) : List String → Option Item
  | [] => some i
  | part :: rest =>
    match s.itemEntries? i with
    | none => none
    | some entries =>
      match entryAt? part entries with
      | none => none
      | some j => s.resolve? j rest

/-- the item under a text in a mapping, if the node is one -/
def child? (s : Store) (n : Nat) (key : String) : Option Item :=
  (s.entries? n).bind (entryAt? key)

/-- the store with the item under a text in a mapping replaced or added -/
def put (s : Store) (n : Nat) (key : String) (value : Item) : Store :=
  match s.entries? n with
  | none => s
  | some entries => ⟨s.cells.setIfInBounds n (.dict (putEntry key value entries))⟩

/-- Sets the item at the end of a path from a mapping. A key on the way that is absent or null gets
an empty mapping; anything but a mapping stops the walk, and `walked` tells where. The store is
given back in either case. -/
def setPath (s : Store) (n : Nat) (walked : List String) : List String → Item → Store × Except Fault Unit
  | [], _ => (s, .ok ())
  | [key], value => (s.put n key value, .ok ())
  | key :: rest, value =>
    match s.child? n key with
    | none | some (.scalar .null) =>
      let (s, m) := s.push (.dict [])
      (s.put n key (.node m)).setPath m (walked ++ [key]) rest value
    | some i =>
      match i, s.itemEntries? i with
      | .node m, some _ => s.setPath m (walked ++ [key]) rest value
      | _, _ =>
        (s, .error (.ofKind (String.intercalate "." (walked ++ [key])) "mapping" (s.read i)))

/-- Every node again, after the nodes that are there: node `n` of the copy is `n` more than there
were nodes, and holds copies where the original holds nodes. -/
def twin (s : Store) : Store :=
  ⟨s.cells ++ s.cells.map (Cell.rename (· + s.cells.size))⟩

end Store

end MeshOperator
