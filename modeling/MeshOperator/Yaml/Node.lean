import MeshOperator.Yaml.Tag
import MeshOperator.Yaml.Token

/-!
# Nodes of a YAML document

A document is a graph of nodes by number: an alias is the number of the node that its anchor names.
`Stream.document?` puts the nodes of the next document of a text together from its tokens.
-/

namespace MeshOperator.Yaml

/-- What a node holds. -/
inductive Body where
  | scalar (text : String)
  | sequence (items : List Nat)
  | mapping (pairs : List (Nat × Nat))
deriving DecidableEq, Repr, Inhabited

/-- A node: its tag and what it holds. -/
structure Node where
  tag : Tag
  body : Body
deriving DecidableEq, Repr, Inhabited

/-- A document: its nodes, and the number of the one that holds the others. -/
structure Document where
  nodes : Array Node
  root : Nat
deriving Repr

/-- Tokens being put together: those to come, what is wrong behind them, the nodes so far, the
anchors seen and the tag handles. -/
structure Stream where
  tokens : List Token
  fault : Option Fault
  nodes : Array Node
  anchors : List (String × Nat)
  handles : List (String × String)
deriving Repr

namespace Stream

/-- the tag handles of every document -/
def commonHandles : List (String × String) := [("!", "!"), ("!!", tagBase)]

/-- the start of a text -/
def ofTokens (t : Tokens) : Stream := ⟨t.list, t.fault, #[], [], commonHandles⟩

/-- the next token -/
def peek (s : Stream) : Except Fault Token :=
  match s.tokens with
  | t :: _ => .ok t
  | [] => .error (s.fault.getD .yaml)

/-- without the next token -/
def skip (s : Stream) : Stream := { s with tokens := s.tokens.tail }

/-- a node added, and its number -/
def push (s : Stream) (n : Node) : Nat × Stream :=
  (s.nodes.size, { s with nodes := s.nodes.push n })

/-- what a node holds, put in -/
def fill (s : Stream) (n : Nat) (body : Body) : Stream :=
  { s with nodes := s.nodes.modify n fun node => { node with body := body } }

/-- an anchor, which a document has once, for a node -/
def bind (s : Stream) (anchor : Option String) (n : Nat) : Except Fault Stream :=
  match anchor with
  | none => .ok s
  | some a =>
    if (s.anchors.lookup a).isSome then .error .yaml
    else .ok { s with anchors := (a, n) :: s.anchors }

/-- the scalar that stands where a node is left out -/
def missing (s : Stream) : Nat × Stream := s.push ⟨.null, .scalar ""⟩

/-- the full name of a tag, none for the tag that says nothing -/
def expandTag (s : Stream) (handle : Option String) (suffix : String) :
    Except Fault (Option String) :=
  match handle with
  | none => .ok (if suffix = "!" then none else some suffix)
  | some h =>
    match s.handles.lookup h with
    | none => .error .yaml
    | some e => .ok (if e ++ suffix = "!" then none else some (e ++ suffix))

/-- The properties before a node: an anchor and a tag, in either order. The tag is given as whether
there is one and its full name, if it says anything. -/
def properties (s : Stream) :
    Except Fault (Option String × Option (Option String) × Stream) := do
  match ← s.peek with
  | .anchor a =>
    let s := s.skip
    match ← s.peek with
    | .tag h x => return (some a, some (← s.expandTag h x), s.skip)
    | _ => return (some a, none, s)
  | .tag h x =>
    let after := s.skip
    match ← after.peek with
    | .anchor a => return (some a, some (← s.expandTag h x), after.skip)
    | _ => return (none, some (← s.expandTag h x), after)
  | _ => return (none, none, s)

/-- the tag of a scalar: the one given, or by its spelling if it is plain or its tag says nothing -/
def scalarTag (given : Option (Option String)) (plain : Bool) (text : String) : Tag :=
  match given with
  | some (some name) => Tag.ofName name
  | some none => Tag.ofSpelling text
  | none => if plain then Tag.ofSpelling text else .text

/-- the tag of a collection: the one given, or that of its kind -/
def collectionTag (given : Option (Option String)) (kind : Tag) : Tag :=
  match given with
  | some (some name) => Tag.ofName name
  | _ => kind

/-- whether a token is one of some -/
def isAmong (t : Token) (ts : List Token) : Bool := ts.contains t

/-- the most collections that a node may stand in -/
def deepest : Nat := 489

mutual

/-- The next node, in `depth` collections. `block` says that it may be a block, `bare` that it may be a
sequence no deeper than the mapping around it. -/
def node (depth : Nat) (block bare : Bool) : (fuel : Nat) → Stream → Except Fault (Nat × Stream)
  | 0, _ => .error .yaml
  | fuel + 1, s => do
    if deepest < depth then throw .tooDeep
    match ← s.peek with
    | .alias name =>
      match s.anchors.lookup name with
      | none => .error .yaml
      | some n => return (n, s.skip)
    | _ =>
      let (anchor, given, s) ← s.properties
      let next ← s.peek
      let start (kind : Tag) : Except Fault (Nat × Stream) := do
        let (n, s) := s.push ⟨collectionTag given kind, .sequence []⟩
        return (n, ← s.bind anchor n)
      match next with
      | .scalar text plain =>
        let (n, s) := s.skip.push ⟨scalarTag given plain text, .scalar text⟩
        return (n, ← s.bind anchor n)
      | .flowSequence =>
        let (n, s) ← start .sequence
        let (items, s) ← flowItems (depth + 1) true fuel s.skip
        return (n, s.fill n (.sequence items))
      | .flowMapping =>
        let (n, s) ← start .mapping
        let (pairs, s) ← flowPairs (depth + 1) true fuel s.skip
        return (n, s.fill n (.mapping pairs))
      | _ =>
        if next = .blockEntry && bare then
          let (n, s) ← start .sequence
          let (items, s) ← bareItems (depth + 1) fuel s
          return (n, s.fill n (.sequence items))
        else if next = .blockSequence && block then
          let (n, s) ← start .sequence
          let (items, s) ← blockItems (depth + 1) fuel s.skip
          return (n, s.fill n (.sequence items))
        else if next = .blockMapping && block then
          let (n, s) ← start .mapping
          let (pairs, s) ← blockPairs (depth + 1) fuel s.skip
          return (n, s.fill n (.mapping pairs))
        else if anchor.isSome || given.isSome then
          let tag := match given with
            | some (some name) => Tag.ofName name
            | _ => .null
          let (n, s) := s.push ⟨tag, .scalar ""⟩
          return (n, ← s.bind anchor n)
        else .error .yaml
termination_by structural fuel => fuel

/-- a node, or the missing one when one of some tokens comes next -/
def nodeUnless (depth : Nat) (block bare : Bool) (ends : List Token) :
    (fuel : Nat) → Stream → Except Fault (Nat × Stream)
  | 0, _ => .error .yaml
  | fuel + 1, s => do
    if isAmong (← s.peek) ends then return s.missing else node depth block bare fuel s
termination_by structural fuel => fuel

/-- the items of a block sequence, with its end -/
def blockItems (depth : Nat) : (fuel : Nat) → Stream → Except Fault (List Nat × Stream)
  | 0, _ => .error .yaml
  | fuel + 1, s => do
    match ← s.peek with
    | .blockEntry =>
      let (n, s) ← nodeUnless depth true false [.blockEntry, .blockEnd] fuel s.skip
      let (ns, s) ← blockItems depth fuel s
      return (n :: ns, s)
    | .blockEnd => return ([], s.skip)
    | _ => .error .yaml
termination_by structural fuel => fuel

/-- the items of a sequence no deeper than the mapping around it -/
def bareItems (depth : Nat) : (fuel : Nat) → Stream → Except Fault (List Nat × Stream)
  | 0, _ => .error .yaml
  | fuel + 1, s => do
    match ← s.peek with
    | .blockEntry =>
      let (n, s) ← nodeUnless depth true false [.blockEntry, .key, .value, .blockEnd] fuel s.skip
      let (ns, s) ← bareItems depth fuel s
      return (n :: ns, s)
    | _ => return ([], s)
termination_by structural fuel => fuel

/-- the pairs of a block mapping, with its end -/
def blockPairs (depth : Nat) : (fuel : Nat) → Stream → Except Fault (List (Nat × Nat) × Stream)
  | 0, _ => .error .yaml
  | fuel + 1, s => do
    match ← s.peek with
    | .key =>
      let (k, s) ← nodeUnless depth true true [.key, .value, .blockEnd] fuel s.skip
      let (v, s) ←
        match ← s.peek with
        | .value => nodeUnless depth true true [.key, .value, .blockEnd] fuel s.skip
        | _ => pure s.missing
      let (rest, s) ← blockPairs depth fuel s
      return ((k, v) :: rest, s)
    | .blockEnd => return ([], s.skip)
    | _ => .error .yaml
termination_by structural fuel => fuel

/-- the items of a flow sequence, with its end; one may be a mapping of a single pair -/
def flowItems (depth : Nat) (first : Bool) : (fuel : Nat) → Stream → Except Fault (List Nat × Stream)
  | 0, _ => .error .yaml
  | fuel + 1, s => do
    if (← s.peek) = .flowSequenceEnd then return ([], s.skip)
    else
      let s ← afterComma first s
      match ← s.peek with
      | .flowSequenceEnd => return ([], s.skip)
      | .key =>
        let (m, s) := s.push ⟨.mapping, .sequence []⟩
        let inner := depth + 1
        let (k, s) ← nodeUnless inner false false [.value, .flowEntry, .flowSequenceEnd] fuel s.skip
        let (v, s) ←
          match ← s.peek with
          | .value => nodeUnless inner false false [.flowEntry, .flowSequenceEnd] fuel s.skip
          | _ => pure s.missing
        let (ns, s) ← flowItems depth false fuel (s.fill m (.mapping [(k, v)]))
        return (m :: ns, s)
      | _ =>
        let (n, s) ← node depth false false fuel s
        let (ns, s) ← flowItems depth false fuel s
        return (n :: ns, s)
termination_by structural fuel => fuel

/-- the pairs of a flow mapping, with its end -/
def flowPairs (depth : Nat) (first : Bool) :
    (fuel : Nat) → Stream → Except Fault (List (Nat × Nat) × Stream)
  | 0, _ => .error .yaml
  | fuel + 1, s => do
    if (← s.peek) = .flowMappingEnd then return ([], s.skip)
    else
      let s ← afterComma first s
      match ← s.peek with
      | .flowMappingEnd => return ([], s.skip)
      | .key =>
        let (k, s) ← nodeUnless depth false false [.value, .flowEntry, .flowMappingEnd] fuel s.skip
        let (v, s) ←
          match ← s.peek with
          | .value => nodeUnless depth false false [.flowEntry, .flowMappingEnd] fuel s.skip
          | _ => pure s.missing
        let (rest, s) ← flowPairs depth false fuel s
        return ((k, v) :: rest, s)
      | _ =>
        let (k, s) ← node depth false false fuel s
        let (v, s) := s.missing
        let (rest, s) ← flowPairs depth false fuel s
        return ((k, v) :: rest, s)
termination_by structural fuel => fuel

/-- the stream after the comma that every entry but the first has before it -/
def afterComma (first : Bool) (s : Stream) : Except Fault Stream := do
  if first then return s
  else if (← s.peek) = .flowEntry then return s.skip
  else .error .yaml

end

/-- The directives before a document: at most one of the version, which is the first, and each
handle at most once. -/
def directives : List Token → (version : Bool) → List (String × String) →
    Except Fault (List (String × String) × List Token)
  | .version major :: ts, version, handles =>
    if version || major ≠ 1 then .error .yaml else directives ts true handles
  | .handle name expansion :: ts, version, handles =>
    if (handles.lookup name).isSome then .error .yaml
    else directives ts version ((name, expansion) :: handles)
  | .directive :: ts, version, handles => directives ts version handles
  | ts, _, handles => .ok (handles, ts)

/-- without the marks that end documents -/
def skipEnds (s : Stream) : Stream :=
  { s with tokens := s.tokens.dropWhile (· = .documentEnd) }

/-- whether a token after the mark of a document says that the document is empty -/
def startsNoContent : Token → Bool
  | .version _ | .handle .. | .directive | .documentStart | .documentEnd | .textEnd => true
  | _ => false

/-- the content of a document -/
def content (bare : Bool) (s : Stream) : Except Fault (Document × Stream) := do
  let fuel := 4 * s.tokens.length + 8
  let (n, t) ←
    if !bare && startsNoContent (← s.peek) then .ok s.missing else node 0 true false fuel s
  let next ← t.peek
  let t := if next = .documentEnd then t.skip else t
  return (⟨t.nodes, n⟩, { t with nodes := #[], anchors := [] })

/-- The stream after the mark that begins a document after the first, none at the end of the text. -/
def marked? (s : Stream) : Except Fault (Option Stream) := do
  let s := s.skipEnds
  if (← s.peek) = .textEnd then return none
  else
    let (handles, tokens) ← directives s.tokens false []
    let s := { s with tokens := tokens, handles := handles ++ commonHandles }
    if (← s.peek) = .documentStart then return some s.skip else .error .yaml

/-- The next document, none at the end of the text. Only the first may begin without its mark. -/
def document? (first : Bool) (s : Stream) : Except Fault (Option (Document × Stream)) := do
  let next ← s.peek
  if first && (next = .documentEnd || !startsNoContent next) then
    return some (← { s with handles := commonHandles }.content true)
  else
    match ← s.marked? with
    | none => return none
    | some s => return some (← s.content false)

end Stream

end MeshOperator.Yaml
