import MeshOperator.Yaml.Node

/-!
# Merge keys

A mapping with the key `<<` takes over the pairs of other mappings: of one, or of a list of them, of
which an earlier one wins. `mergePairs` puts the pairs taken over before the mapping's own, which so
win over them all.
-/

namespace MeshOperator.Yaml

/-- the tag of a node -/
def tagOf (nodes : Array Node) (n : Nat) : Tag := (nodes[n]?.map Node.tag).getD .null

/-- the pairs of a node, if it is a mapping -/
def pairsOf? (nodes : Array Node) (n : Nat) : Option (List (Nat × Nat)) :=
  match nodes[n]?.map Node.body with
  | some (.mapping pairs) => some pairs
  | _ => none

/-- the nodes with the pairs of one replaced -/
def setPairs (nodes : Array Node) (n : Nat) (pairs : List (Nat × Nat)) : Array Node :=
  nodes.modify n fun node => { node with body := .mapping pairs }

/-- the pairs of several mappings, each after its own merges, those of the last first -/
def mergeAll (merge : Array Node → Nat → Except Fault (Array Node)) :
    Array Node → List Nat → List (Nat × Nat) → Except Fault (Array Node × List (Nat × Nat))
  | nodes, [], taken => .ok (nodes, taken)
  | nodes, n :: ns, taken =>
    match pairsOf? nodes n with
    | none => .error .yaml
    | some _ => do
      let nodes ← merge nodes n
      mergeAll merge nodes ns ((pairsOf? nodes n).getD [] ++ taken)

/-- Goes through the pairs of a mapping from position `i`, for at most `steps` of them. A merge key is
taken out before the mappings it names are merged themselves, so one that names itself is no harm;
the key that stands for the value of a mapping becomes a text. -/
def mergeFrom (merge : Array Node → Nat → Except Fault (Array Node)) (n : Nat) :
    (steps : Nat) → Array Node → (i : Nat) → (taken : List (Nat × Nat)) → Except Fault (Array Node)
  | steps, nodes, i, taken =>
    let pairs := (pairsOf? nodes n).getD []
    match steps, pairs[i]? with
    | steps + 1, some (key, value) =>
      match tagOf nodes key with
      | .merge => do
        let nodes := setPairs nodes n (pairs.eraseIdx i)
        match nodes[value]?.map Node.body with
        | some (.mapping _) =>
          let nodes ← merge nodes value
          mergeFrom merge n steps nodes i (taken ++ (pairsOf? nodes value).getD [])
        | some (.sequence items) =>
          let (nodes, found) ← mergeAll merge nodes items []
          mergeFrom merge n steps nodes i (taken ++ found)
        | _ => .error .yaml
      | .default =>
        let nodes := nodes.modify key fun node => { node with tag := .text }
        mergeFrom merge n steps nodes (i + 1) taken
      | _ => mergeFrom merge n steps nodes (i + 1) taken
    | _, _ => .ok (setPairs nodes n (taken ++ pairs))

/-- The nodes with the merge keys of one mapping, and of those it names, worked off. `fuel` bounds the
depth: each mapping on the way has a merge key less. -/
def mergePairs : (fuel : Nat) → Array Node → Nat → Except Fault (Array Node)
  | 0, nodes, _ => .ok nodes
  | fuel + 1, nodes, n =>
    mergeFrom (mergePairs fuel) n ((pairsOf? nodes n).getD []).length nodes 0 []

/-- a bound for the depth of merges: the pairs of all mappings -/
def pairCount (nodes : Array Node) : Nat :=
  nodes.foldl (fun n node => match node.body with
    | .mapping pairs => n + pairs.length
    | _ => n) 0

end MeshOperator.Yaml
