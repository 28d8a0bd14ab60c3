import MeshOperator.Yaml.Merge
import MeshOperator.Yaml.ScalarValue

/-!
# What a document means

`Document.value` turns the nodes of a document into a store and the item that the document is. A node
that is met again through an alias is the same item. Collections are made empty and filled in the
order in which they were made, so one may hold itself.
-/

namespace MeshOperator.Yaml

/-- A document being turned into a store: its nodes, the items of those met by the number of the node,
and the collections to be filled, by node and cell. -/
structure Builder where
  nodes : Array Node
  depth : Nat
  items : Array (Option Item)
  store : Store
  waiting : List (Nat × Nat)

/-- The text of a node that is read as a scalar: of a mapping, that of the value under the key that
stands for it. More steps than there are nodes lead in a circle. -/
def scalarText (nodes : Array Node) : (fuel : Nat) → Nat → Except Fault String
  | 0, _ => .error .tooDeep
  | fuel + 1, n =>
    match nodes[n]?.map Node.body with
    | some (.scalar s) => .ok s
    | some (.mapping pairs) =>
      match pairs.find? fun p => tagOf nodes p.1 = .default with
      | some p => scalarText nodes fuel p.2
      | none => .error .yaml
    | _ => .error .yaml

namespace Builder

/-- the start of a document -/
def ofDocument (d : Document) : Builder :=
  ⟨d.nodes, pairCount d.nodes + 1, Array.replicate d.nodes.size none, .empty, []⟩

/-- with the item of a node remembered -/
def remember (b : Builder) (n : Nat) (i : Item) : Item × Builder :=
  (i, { b with items := b.items.setIfInBounds n (some i) })

/-- a node of the store for a node of the document, to be filled later if it is a collection -/
def place (b : Builder) (n : Nat) (c : Cell) (later : Bool) : Item × Builder :=
  let (s, m) := b.store.push c
  { b with store := s, waiting := if later then b.waiting ++ [(n, m)] else b.waiting }.remember n
    (.node m)

/-- the text of a node that is read as a scalar -/
def text (b : Builder) (n : Nat) : Except Fault (List Char) := do
  return (← scalarText b.nodes (b.nodes.size + 1) n).toList

/-- whether a node is a scalar -/
def isScalar (b : Builder) (n : Nat) : Bool :=
  match b.nodes[n]?.map Node.body with
  | some (.scalar _) => true
  | _ => false

/-- the item of a node -/
def item (b : Builder) (n : Nat) : Except Fault (Item × Builder) :=
  match b.items[n]?.join with
  | some i => .ok (i, b)
  | none =>
    match tagOf b.nodes n with
    | .null => do let _ ← b.text n; return b.remember n (.scalar .null)
    | .bool => do return b.remember n (.scalar (.bool (← boolValue (← b.text n))))
    | .int => do return b.remember n (.scalar (.int (← integerValue (← b.text n))))
    | .float => do return b.remember n (.scalar (.double (← doubleValue (← b.text n))))
    | .text => do return b.remember n (.scalar (.text (String.ofList (← b.text n))))
    | .binary => do return b.remember n (.scalar (.bytes (← bytesValue (← b.text n))))
    | .timestamp => do
      let s ← b.text n
      if b.isScalar n then return b.place n (← timestampValue s) false else .error .unsuitable
    | .sequence | .orderedMap | .pairs => .ok (b.place n (.list []) true)
    | .mapping => .ok (b.place n (.dict []) true)
    | .set => .ok (b.place n (.set []) true)
    | .merge | .default | .unknown _ => .error .yaml

/-- the items of several nodes -/
def itemsOf (b : Builder) : List Nat → Except Fault (List Item × Builder)
  | [] => .ok ([], b)
  | n :: ns => do
    let (i, b) ← b.item n
    let (is, b) ← b.itemsOf ns
    return (i :: is, b)

/-- whether an item can be a key, which no collection can -/
def canBeKey (b : Builder) : Item → Bool
  | .scalar _ => true
  | .node n =>
    match b.store.cells[n]? with
    | some (.date _) | some (.moment _) => true
    | _ => false

/-- A key, by the node that it comes from, and its value. -/
structure Pair where
  source : Nat
  key : Item
  value : Item

/-- whether a node is not-a-number by its name -/
def isNamedNan (b : Builder) (n : Nat) : Bool :=
  match b.text n with
  | .ok s => isNanName s
  | .error _ => false

/-- Whether two keys are one. Not-a-number equals nothing, but the one that has the name is a single
thing, and so is each one that comes from one node. -/
def sameKey (b : Builder) (p q : Pair) : Bool :=
  match p.key, q.key with
  | .scalar (.double .nan), .scalar (.double .nan) =>
    p.source = q.source || (b.isNamedNan p.source && b.isNamedNan q.source)
  | i, j => i = j || (b.store.read i).same (b.store.read j)

/-- the pairs with one more: of equal keys the first stays, with the last value -/
def insertPair (b : Builder) (pairs : List Pair) (p : Pair) : List Pair :=
  if pairs.any (b.sameKey p) then
    pairs.map fun q => if b.sameKey p q then { q with value := p.value } else q
  else pairs ++ [p]

/-- the keys and values of pairs of nodes -/
def pairsOf (b : Builder) : List (Nat × Nat) → List Pair → Except Fault (List Pair × Builder)
  | [], pairs => .ok (pairs, b)
  | (k, v) :: rest, pairs => do
    let (key, b) ← b.item k
    if !b.canBeKey key then .error .yaml
    else
      let (value, b) ← b.item v
      b.pairsOf rest (b.insertPair pairs ⟨k, key, value⟩)

/-- the entries of a node that is a mapping, with the merges worked off -/
def mappingOf (b : Builder) (n : Nat) : Except Fault (List (Item × Item) × Builder) :=
  match pairsOf? b.nodes n with
  | none => .error .yaml
  | some _ => do
    let nodes ← mergePairs b.depth b.nodes n
    let (pairs, b) ← { b with nodes := nodes }.pairsOf ((pairsOf? nodes n).getD []) []
    return (pairs.map fun p => (p.key, p.value), b)

/-- a pair for each node of a list of mappings of a single pair -/
def pairItems (b : Builder) : List Nat → Except Fault (List Item × Builder)
  | [] => .ok ([], b)
  | n :: ns =>
    match pairsOf? b.nodes n with
    | some [(k, v)] => do
      let (key, b) ← b.item k
      let (value, b) ← b.item v
      let (s, m) := b.store.push (.tuple [key, value])
      let (is, b) ← { b with store := s }.pairItems ns
      return (.node m :: is, b)
    | _ => .error .yaml

/-- the nodes that a node is a sequence of -/
def sequenceOf (b : Builder) (n : Nat) : Except Fault (List Nat) :=
  match b.nodes[n]?.map Node.body with
  | some (.sequence ns) => .ok ns
  | _ => .error .yaml

/-- with a node of the store replaced -/
def withCell (b : Builder) (m : Nat) (c : Cell) : Builder :=
  { b with store := ⟨b.store.cells.setIfInBounds m c⟩ }

/-- with the collection that a node is put into its cell -/
def fill (b : Builder) (n m : Nat) : Except Fault Builder := do
  match tagOf b.nodes n with
  | .mapping =>
    let (entries, b) ← b.mappingOf n
    return b.withCell m (.dict entries)
  | .set =>
    let (entries, b) ← b.mappingOf n
    return b.withCell m (.set (entries.map Prod.fst))
  | .orderedMap | .pairs =>
    let (items, b) ← b.pairItems (← b.sequenceOf n)
    return b.withCell m (.list items)
  | _ =>
    let (items, b) ← b.itemsOf (← b.sequenceOf n)
    return b.withCell m (.list items)

/-- Fills the collections that wait. Each node is made once, so `fuel` need not exceed their
number. -/
def fillAll : (fuel : Nat) → Builder → Except Fault Builder
  | 0, b => .ok b
  | fuel + 1, b =>
    match b.waiting with
    | [] => .ok b
    | (n, m) :: rest => do fillAll fuel (← { b with waiting := rest }.fill n m)

end Builder

/-- the store of a document, and the item that the document is -/
def Document.value (d : Document) : Except Fault (Store × Item) := do
  let (i, b) ← (Builder.ofDocument d).item d.root
  let b ← Builder.fillAll (d.nodes.size + 1) b
  return (b.store, i)

end MeshOperator.Yaml
