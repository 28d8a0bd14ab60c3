import MeshOperator.Proofs.Json.Tokens

/-!
# The nodes of JSON

The tokens of JSON are put together to a document whose nodes stand in the order in which the values
begin: each collection before its parts, each key before its value.

* `Value.nodes`: the nodes of a value, numbered from a given number on.
* `Value.node_eq`: the tokens of a value are put together to its nodes.
* `Document.nodes_ofTokens`: the nodes of a text.
-/

namespace MeshOperator

namespace Yaml.Stream

/-! ### What a node is put together from -/

variable {s t u v : Stream} {fuel depth n m : Nat} {rest : List Token} {block bare first : Bool}

/-- a stream with other tokens to come and with some nodes more -/
def add (s : Stream) (tokens : List Token) (ns : List Node) : Stream :=
  { s with tokens := tokens, nodes := s.nodes ++ ns.toArray }

@[simp] theorem add_add (s : Stream) (ts us : List Token) (ns ms : List Node) :
    (s.add ts ns).add us ms = s.add us (ns ++ ms) := by
  simp [add]

@[simp] theorem size_add (s : Stream) (ts : List Token) (ns : List Node) :
    (s.add ts ns).nodes.size = s.nodes.size + ns.length := by
  simp [add]

/-- a collection, which is made empty before its parts, is filled when they are there -/
theorem fill_add (s : Stream) (ts : List Token) (tag : Tag) (ns : List Node) (b b' : Body) :
    (s.add ts (⟨tag, b⟩ :: ns)).fill s.nodes.size b' = s.add ts (⟨tag, b'⟩ :: ns) := by
  have hmodify : (s.nodes ++ (⟨tag, b⟩ :: ns).toArray).modify s.nodes.size
      (fun node => { node with body := b' }) = s.nodes ++ (⟨tag, b'⟩ :: ns).toArray := by
    apply Array.ext_getElem?
    intro i
    rw [Array.getElem?_modify]
    split
    · rename_i hi
      subst hi
      simp
    · rename_i hi
      rw [Array.getElem?_append, Array.getElem?_append]
      split
      · rfl
      · obtain ⟨j, hj⟩ : ∃ j, i - s.nodes.size = j + 1 := ⟨i - s.nodes.size - 1, by omega⟩
        rw [hj]
        simp
  simp only [fill, add, hmodify]

/-- the tokens that begin the values of flow collections -/
def Begins : Token → Prop
  | .scalar _ _ => True
  | .flowSequence => True
  | .flowMapping => True
  | _ => False

theorem properties_of_begins {token : Token} (h : s.tokens = token :: rest) (hbegins : Begins token) :
    s.properties = .ok (none, none, s) := by
  have hpeek : s.peek = .ok token := by rw [peek, h]
  rw [properties, hpeek]
  cases token <;> first | rfl | cases hbegins

theorem node_scalar {plain : Bool} {text : String} (hdepth : depth ≤ deepest)
    (h : s.tokens = .scalar text plain :: rest) :
    node depth block bare (fuel + 1) s =
      .ok (s.nodes.size, s.add rest [⟨scalarTag none plain text, .scalar text⟩]) := by
  have hpeek : s.peek = .ok (.scalar text plain) := by rw [peek, h]
  have hproperties := properties_of_begins h trivial
  unfold node
  simp only [if_neg (Nat.not_lt.2 hdepth), hpeek, hproperties, ok_bind, bind, skip, h]
  rfl

theorem node_sequence {ns : List Nat} (hdepth : depth ≤ deepest)
    (h : s.tokens = .flowSequence :: rest)
    (hitems : flowItems (depth + 1) true fuel (s.add rest [⟨.sequence, .sequence []⟩]) = .ok (ns, t)) :
    node depth block bare (fuel + 1) s = .ok (s.nodes.size, t.fill s.nodes.size (.sequence ns)) := by
  have hpeek : s.peek = .ok .flowSequence := by rw [peek, h]
  have hproperties := properties_of_begins h trivial
  have hskip : (s.push ⟨.sequence, .sequence []⟩).2.skip = s.add rest [⟨.sequence, .sequence []⟩] := by
    simp [push, skip, add, h]
  unfold node
  simp only [if_neg (Nat.not_lt.2 hdepth), hpeek, hproperties, ok_bind, bind]
  change (flowItems (depth + 1) true fuel (s.push ⟨.sequence, .sequence []⟩).2.skip >>= _) = _
  rw [hskip, hitems]
  rfl

theorem node_mapping {ps : List (Nat × Nat)} (hdepth : depth ≤ deepest)
    (h : s.tokens = .flowMapping :: rest)
    (hpairs : flowPairs (depth + 1) true fuel (s.add rest [⟨.mapping, .sequence []⟩]) = .ok (ps, t)) :
    node depth block bare (fuel + 1) s = .ok (s.nodes.size, t.fill s.nodes.size (.mapping ps)) := by
  have hpeek : s.peek = .ok .flowMapping := by rw [peek, h]
  have hproperties := properties_of_begins h trivial
  have hskip : (s.push ⟨.mapping, .sequence []⟩).2.skip = s.add rest [⟨.mapping, .sequence []⟩] := by
    simp [push, skip, add, h]
  unfold node
  simp only [if_neg (Nat.not_lt.2 hdepth), hpeek, hproperties, ok_bind, bind]
  change (flowPairs (depth + 1) true fuel (s.push ⟨.mapping, .sequence []⟩).2.skip >>= _) = _
  rw [hskip, hpairs]
  rfl

theorem flowItems_end (h : s.tokens = .flowSequenceEnd :: rest) :
    flowItems depth first (fuel + 1) s = .ok ([], s.add rest []) := by
  have hpeek : s.peek = .ok .flowSequenceEnd := by rw [peek, h]
  unfold flowItems
  rw [hpeek]
  simp [ok_bind, skip, add, h]
  rfl

theorem flowPairs_end (h : s.tokens = .flowMappingEnd :: rest) :
    flowPairs depth first (fuel + 1) s = .ok ([], s.add rest []) := by
  have hpeek : s.peek = .ok .flowMappingEnd := by rw [peek, h]
  unfold flowPairs
  rw [hpeek]
  simp [ok_bind, skip, add, h]
  rfl

/-- the comma before an entry, if it is not the first -/
def commaBefore (first : Bool) : List Token := if first then [] else [.flowEntry]

theorem afterComma_eq (h : s.tokens = commaBefore first ++ rest) :
    afterComma first s = .ok (s.add rest []) := by
  unfold afterComma
  cases first with
  | true =>
    simp only [commaBefore, if_true, List.nil_append] at h
    simp [add, ← h]
    rfl
  | false =>
    have hpeek : s.peek = .ok .flowEntry := by
      rw [peek, h]
      rfl
    rw [hpeek]
    simp [ok_bind, skip, add, h, commaBefore]
    rfl

theorem flowItems_item {token : Token} {ns : List Nat}
    (h : s.tokens = commaBefore first ++ token :: rest) (hbegins : Begins token)
    (hnode : node depth false false fuel (s.add (token :: rest) []) = .ok (n, t))
    (hrest : flowItems depth false fuel t = .ok (ns, u)) :
    flowItems depth first (fuel + 1) s = .ok (n :: ns, u) := by
  have hpeek : ∃ next, s.peek = .ok next ∧ next ≠ .flowSequenceEnd := by
    cases first with
    | true => exact ⟨token, by rw [peek, h]; rfl, by rintro rfl; exact hbegins⟩
    | false => exact ⟨.flowEntry, by rw [peek, h]; rfl, by decide⟩
  obtain ⟨next, hnext, hne⟩ := hpeek
  have htoken : (s.add (token :: rest) []).peek = .ok token := rfl
  unfold flowItems
  simp only [hnext, ok_bind, if_neg hne, afterComma_eq h, htoken]
  split
  · exact absurd hbegins id
  · exact absurd hbegins id
  · rw [hnode]
    simp only [ok_bind, hrest]
    rfl

theorem nodeUnless_eq {token : Token} (ends : List Token) (h : s.tokens = token :: rest)
    (hbegins : Begins token) (hends : ∀ t ∈ ends, ¬ Begins t)
    (hnode : node depth block bare fuel s = .ok (n, t)) :
    nodeUnless depth block bare ends (fuel + 1) s = .ok (n, t) := by
  have hpeek : s.peek = .ok token := by rw [peek, h]
  have hother : isAmong token ends = false := by
    rw [isAmong, List.contains_eq_mem, decide_eq_false_iff_not]
    exact fun hmem => hends token hmem hbegins
  unfold nodeUnless
  rw [hpeek]
  simp only [ok_bind, hother, Bool.false_eq_true, if_false]
  exact hnode

theorem flowPairs_pair {key : String} {token : Token} {ps : List (Nat × Nat)}
    (h : s.tokens = commaBefore first ++ .key :: .scalar key false :: .value :: token :: rest)
    (hdepth : depth ≤ deepest) (hbegins : Begins token)
    (hnode : node depth false false (fuel + 1) (s.add (token :: rest) [⟨.text, .scalar key⟩]) = .ok (m, t))
    (hrest : flowPairs depth false (fuel + 2) t = .ok (ps, u)) :
    flowPairs depth first (fuel + 3) s = .ok ((s.nodes.size, m) :: ps, u) := by
  have hpeek : ∃ next, s.peek = .ok next ∧ next ≠ .flowMappingEnd := by
    cases first with
    | true => exact ⟨.key, by rw [peek, h]; rfl, by decide⟩
    | false => exact ⟨.flowEntry, by rw [peek, h]; rfl, by decide⟩
  obtain ⟨next, hnext, hne⟩ := hpeek
  set t₁ := s.add (.key :: .scalar key false :: .value :: token :: rest) [] with ht₁
  have hkeyMark : t₁.peek = .ok .key := rfl
  have hkeyTokens : t₁.skip.tokens = .scalar key false :: .value :: token :: rest := rfl
  have hkey : node depth false false (fuel + 1) t₁.skip =
      .ok (s.nodes.size, s.add (.value :: token :: rest) [⟨.text, .scalar key⟩]) := by
    rw [node_scalar hdepth hkeyTokens]
    simp [t₁, skip, add, scalarTag]
  have hkeyUnless := nodeUnless_eq [.value, .flowEntry, .flowMappingEnd] hkeyTokens trivial
    (by simp [Begins]) hkey
  have hvalueMark : (s.add (.value :: token :: rest) [⟨.text, .scalar key⟩]).peek = .ok .value := rfl
  have hvalueTokens :
      (s.add (.value :: token :: rest) [⟨.text, .scalar key⟩]).skip.tokens = token :: rest := rfl
  have hvalue := nodeUnless_eq [.flowEntry, .flowMappingEnd] hvalueTokens hbegins (by simp [Begins]) hnode
  unfold flowPairs
  simp only [hnext, ok_bind, if_neg hne, afterComma_eq h, ← ht₁, hkeyMark, hkeyUnless, hvalueMark, hvalue,
    hrest]
  rfl

end Yaml.Stream

namespace Json

open Yaml Yaml.Stream

/-! ### Layout -/

/-- the node of an atom -/
def Atom.node : Atom → Node
  | .string ps => ⟨.text, .scalar (String.ofList (charsOf ps))⟩
  | a => ⟨Tag.ofSpelling (String.ofList a.text), .scalar (String.ofList a.text)⟩

/-- the node of a key -/
def Key.node (k : Key) : Node := ⟨.text, .scalar k.string⟩

mutual

/-- how many nodes a value has -/
def Value.size : Value → Nat
  | .atom _ => 1
  | .emptyArray _ => 1
  | .array items => items.size + 1
  | .emptyObject _ => 1
  | .object members => members.size + 1

/-- how many nodes the items of an array have -/
def Items.size : Items → Nat
  | .last _ v _ => v.size
  | .more _ v _ rest => v.size + rest.size

/-- how many nodes the members of an object have -/
def Members.size : Members → Nat
  | .last _ _ v _ => v.size + 1
  | .more _ _ v _ rest => v.size + 1 + rest.size

end

/-- the numbers of the items of an array, whose nodes are numbered from `lo` on -/
def Items.numbers (lo : Nat) : Items → List Nat
  | .last _ _ _ => [lo]
  | .more _ v _ rest => lo :: rest.numbers (lo + v.size)

/-- the numbers of the keys and values of an object, whose nodes are numbered from `lo` on -/
def Members.numbers (lo : Nat) : Members → List (Nat × Nat)
  | .last _ _ _ _ => [(lo, lo + 1)]
  | .more _ _ v _ rest => (lo, lo + 1) :: rest.numbers (lo + (v.size + 1))

mutual

/-- the nodes of a value, numbered from `lo` on -/
def Value.nodes (lo : Nat) : Value → List Node
  | .atom a => [a.node]
  | .emptyArray _ => [⟨.sequence, .sequence []⟩]
  | .array items => ⟨.sequence, .sequence (items.numbers (lo + 1))⟩ :: items.nodes (lo + 1)
  | .emptyObject _ => [⟨.mapping, .mapping []⟩]
  | .object members => ⟨.mapping, .mapping (members.numbers (lo + 1))⟩ :: members.nodes (lo + 1)

/-- the nodes of the items of an array, numbered from `lo` on -/
def Items.nodes (lo : Nat) : Items → List Node
  | .last _ v _ => v.nodes lo
  | .more _ v _ rest => v.nodes lo ++ rest.nodes (lo + v.size)

/-- the nodes of the members of an object, numbered from `lo` on -/
def Members.nodes (lo : Nat) : Members → List Node
  | .last k _ v _ => k.node :: v.nodes (lo + 1)
  | .more k _ v _ rest => k.node :: v.nodes (lo + 1) ++ rest.nodes (lo + (v.size + 1))

end

mutual

theorem Value.length_nodes (v : Value) (lo : Nat) : (v.nodes lo).length = v.size := by
  match v with
  | .atom a => rfl
  | .emptyArray _ => rfl
  | .array items => rw [Value.nodes, List.length_cons, items.length_nodes, Value.size]
  | .emptyObject _ => rfl
  | .object members => rw [Value.nodes, List.length_cons, members.length_nodes, Value.size]

theorem Items.length_nodes (is : Items) (lo : Nat) : (is.nodes lo).length = is.size := by
  match is with
  | .last _ v _ => exact v.length_nodes lo
  | .more _ v _ rest => rw [Items.nodes, List.length_append, v.length_nodes, rest.length_nodes, Items.size]

theorem Members.length_nodes (ms : Members) (lo : Nat) : (ms.nodes lo).length = ms.size := by
  match ms with
  | .last _ _ v _ => rw [Members.nodes, List.length_cons, v.length_nodes, Members.size]
  | .more _ _ v _ rest =>
    rw [Members.nodes, List.length_append, List.length_cons, v.length_nodes, rest.length_nodes,
      Members.size]

end

/-! ### Putting a value together -/

theorem Atom.exists_token_eq (a : Atom) : ∃ text plain, a.token = .scalar text plain ∧
    a.node = ⟨scalarTag none plain text, .scalar text⟩ := by
  cases a <;> exact ⟨_, _, rfl, rfl⟩

/-- a value begins with a token that begins values -/
theorem Value.exists_tokens_eq (v : Value) : ∃ token ts, v.tokens = token :: ts ∧ Begins token := by
  cases v with
  | atom a =>
    obtain ⟨text, plain, htoken, -⟩ := a.exists_token_eq
    exact ⟨a.token, [], rfl, by rw [htoken]; trivial⟩
  | emptyArray gap => exact ⟨_, _, rfl, trivial⟩
  | array items => exact ⟨_, _, rfl, trivial⟩
  | emptyObject gap => exact ⟨_, _, rfl, trivial⟩
  | object members => exact ⟨_, _, rfl, trivial⟩

mutual

/-- The tokens of a value are put together to its nodes, which are numbered from the next number on. -/
theorem Value.node_eq (v : Value) (s : Stream) (rest : List Token) (depth fuel : Nat) (block bare : Bool)
    (hdepth : depth + v.height ≤ deepest) (h : s.tokens = v.tokens ++ rest)
    (hfuel : 2 * s.tokens.length ≤ fuel) :
    node depth block bare fuel s = .ok (s.nodes.size, s.add rest (v.nodes s.nodes.size)) := by
  have hhere : depth ≤ deepest := Nat.le_trans (Nat.le_add_right _ _) hdepth
  rw [h] at hfuel
  match v with
  | .atom a =>
    obtain ⟨text, plain, htoken, hnode⟩ := a.exists_token_eq
    simp only [Value.tokens, htoken, List.cons_append, List.nil_append, List.length_cons] at h hfuel
    obtain ⟨fuel, rfl⟩ : ∃ n, fuel = n + 1 := ⟨fuel - 1, by omega⟩
    rw [node_scalar hhere h, Value.nodes, hnode]
  | .emptyArray gap =>
    simp only [Value.tokens, List.cons_append, List.nil_append, List.length_cons] at h hfuel
    obtain ⟨fuel, rfl⟩ : ∃ n, fuel = n + 2 := ⟨fuel - 2, by omega⟩
    rw [node_sequence hhere h (flowItems_end rfl)]
    simp [fill_add, Value.nodes]
  | .array items =>
    simp only [Value.tokens, List.cons_append, List.append_assoc, List.nil_append, List.length_cons]
      at h hfuel
    simp only [Value.height] at hdepth
    obtain ⟨fuel, rfl⟩ : ∃ n, fuel = n + 1 := ⟨fuel - 1, by omega⟩
    have hitems := items.flowItems_eq
      (s.add (items.tokens ++ .flowSequenceEnd :: rest) [⟨.sequence, .sequence []⟩]) rest (depth + 1) fuel true
      (by omega) rfl
      (by
        simp only [add]
        omega)
    rw [node_sequence hhere h hitems]
    simp [fill_add, Value.nodes]
  | .emptyObject gap =>
    simp only [Value.tokens, List.cons_append, List.nil_append, List.length_cons] at h hfuel
    obtain ⟨fuel, rfl⟩ : ∃ n, fuel = n + 2 := ⟨fuel - 2, by omega⟩
    rw [node_mapping hhere h (flowPairs_end rfl)]
    simp [fill_add, Value.nodes]
  | .object members =>
    simp only [Value.tokens, List.cons_append, List.append_assoc, List.nil_append, List.length_cons]
      at h hfuel
    simp only [Value.height] at hdepth
    obtain ⟨fuel, rfl⟩ : ∃ n, fuel = n + 1 := ⟨fuel - 1, by omega⟩
    have hpairs := members.flowPairs_eq
      (s.add (members.tokens ++ .flowMappingEnd :: rest) [⟨.mapping, .sequence []⟩]) rest (depth + 1) fuel true
      (by omega) rfl
      (by
        simp only [add]
        omega)
    rw [node_mapping hhere h hpairs]
    simp [fill_add, Value.nodes]

/-- the items of an array are put together to their nodes -/
theorem Items.flowItems_eq (is : Items) (s : Stream) (rest : List Token) (depth fuel : Nat) (first : Bool)
    (hdepth : depth + is.height ≤ deepest)
    (h : s.tokens = commaBefore first ++ (is.tokens ++ .flowSequenceEnd :: rest))
    (hfuel : 2 * s.tokens.length + 1 ≤ fuel) :
    flowItems depth first fuel s = .ok (is.numbers s.nodes.size, s.add rest (is.nodes s.nodes.size)) := by
  rw [h, List.length_append] at hfuel
  match is with
  | .last before v after =>
    obtain ⟨token, ts, htokens, hbegins⟩ := v.exists_tokens_eq
    simp only [Items.tokens, htokens, List.cons_append, List.length_cons] at h hfuel
    simp only [Items.height] at hdepth
    obtain ⟨fuel, rfl⟩ : ∃ n, fuel = n + 2 := ⟨fuel - 2, by omega⟩
    have hnode := v.node_eq (s.add (token :: (ts ++ .flowSequenceEnd :: rest)) []) (.flowSequenceEnd :: rest)
      depth (fuel + 1) false false hdepth (by rw [htokens]; rfl)
      (by
        simp only [add, List.length_cons]
        omega)
    rw [flowItems_item h hbegins hnode (flowItems_end rfl)]
    simp [Items.numbers, Items.nodes]
  | .more before v after items =>
    obtain ⟨token, ts, htokens, hbegins⟩ := v.exists_tokens_eq
    simp only [Items.tokens, htokens, List.cons_append, List.append_assoc, List.length_cons,
      List.length_append] at h hfuel
    simp only [Items.height] at hdepth
    obtain ⟨fuel, rfl⟩ : ∃ n, fuel = n + 1 := ⟨fuel - 1, by omega⟩
    have hnode := v.node_eq (s.add (token :: (ts ++ .flowEntry :: (items.tokens ++ .flowSequenceEnd :: rest))) [])
      (.flowEntry :: (items.tokens ++ .flowSequenceEnd :: rest)) depth fuel false false (by omega)
      (by rw [htokens]; rfl)
      (by
        simp only [add, List.length_cons, List.length_append]
        omega)
    have hitems := items.flowItems_eq
      ((s.add (token :: (ts ++ .flowEntry :: (items.tokens ++ .flowSequenceEnd :: rest))) []).add
        (.flowEntry :: (items.tokens ++ .flowSequenceEnd :: rest)) (v.nodes s.nodes.size))
      rest depth fuel false (by omega) rfl
      (by
        simp only [add, List.length_cons, List.length_append]
        omega)
    rw [flowItems_item h hbegins (by simpa using hnode) (by simpa using hitems)]
    simp [Items.numbers, Items.nodes, v.length_nodes]

/-- the members of an object are put together to their nodes -/
theorem Members.flowPairs_eq (ms : Members) (s : Stream) (rest : List Token) (depth fuel : Nat)
    (first : Bool) (hdepth : depth + ms.height ≤ deepest)
    (h : s.tokens = commaBefore first ++ (ms.tokens ++ .flowMappingEnd :: rest))
    (hfuel : 2 * s.tokens.length ≤ fuel) :
    flowPairs depth first fuel s = .ok (ms.numbers s.nodes.size, s.add rest (ms.nodes s.nodes.size)) := by
  rw [h, List.length_append] at hfuel
  match ms with
  | .last k before v after =>
    obtain ⟨token, ts, htokens, hbegins⟩ := v.exists_tokens_eq
    simp only [Members.tokens, Key.tokens, htokens, List.cons_append, List.nil_append, List.length_cons]
      at h hfuel
    simp only [Members.height] at hdepth
    obtain ⟨fuel, rfl⟩ : ∃ n, fuel = n + 3 := ⟨fuel - 3, by omega⟩
    have hnode := v.node_eq (s.add (token :: (ts ++ .flowMappingEnd :: rest)) [k.node]) (.flowMappingEnd :: rest)
      depth (fuel + 1) false false hdepth (by rw [htokens]; rfl)
      (by
        simp only [add, List.length_cons]
        omega)
    rw [flowPairs_pair h (by omega) hbegins hnode (flowPairs_end rfl)]
    simp [Members.numbers, Members.nodes]
  | .more k before v after members =>
    obtain ⟨token, ts, htokens, hbegins⟩ := v.exists_tokens_eq
    simp only [Members.tokens, Key.tokens, htokens, List.cons_append, List.nil_append, List.append_assoc,
      List.length_cons, List.length_append] at h hfuel
    simp only [Members.height] at hdepth
    obtain ⟨fuel, rfl⟩ : ∃ n, fuel = n + 3 := ⟨fuel - 3, by omega⟩
    have hnode := v.node_eq
      (s.add (token :: (ts ++ .flowEntry :: (members.tokens ++ .flowMappingEnd :: rest))) [k.node])
      (.flowEntry :: (members.tokens ++ .flowMappingEnd :: rest)) depth (fuel + 1) false false (by omega)
      (by rw [htokens]; rfl)
      (by
        simp only [add, List.length_cons, List.length_append]
        omega)
    have hmembers := members.flowPairs_eq
      ((s.add (token :: (ts ++ .flowEntry :: (members.tokens ++ .flowMappingEnd :: rest))) [k.node]).add
        (.flowEntry :: (members.tokens ++ .flowMappingEnd :: rest)) (v.nodes (s.nodes.size + 1)))
      rest depth (fuel + 2) false (by omega) rfl
      (by
        simp only [add, List.length_cons, List.length_append]
        omega)
    rw [flowPairs_pair h (by omega) hbegins (by simpa [Key.node] using hnode)
      (by simpa [Key.node] using hmembers)]
    simp [Members.numbers, Members.nodes, Key.node, v.length_nodes]

end

/-! ### Documents -/

/-- The tokens of a text are put together to one document, with its object as root. -/
theorem Document.nodes_ofTokens {d : Document} (hheight : d.root.height ≤ deepest) :
    ∃ rest, (Stream.ofTokens ⟨d.tokens, none⟩).document? true =
        .ok (some (⟨(d.root.nodes 0).toArray, 0⟩, rest)) ∧ rest.marked? = .ok none := by
  obtain ⟨token, ts, htokens, hbegins⟩ := d.root.exists_tokens_eq
  have hpeek : (Stream.ofTokens ⟨d.tokens, none⟩).peek = .ok token := by
    rw [peek, ofTokens, Document.tokens, htokens]
    rfl
  have hfirst : (true && (decide (token = .documentEnd) || !startsNoContent token)) = true := by
    cases token <;> first | rfl | cases hbegins
  have hnode := d.root.node_eq (Stream.ofTokens ⟨d.tokens, none⟩) [.textEnd] 0 (4 * d.tokens.length + 8)
    true false (by omega) rfl
    (by
      change 2 * d.tokens.length ≤ 4 * d.tokens.length + 8
      omega)
  refine ⟨⟨[.textEnd], none, #[], [], commonHandles⟩, ?_, rfl⟩
  unfold document?
  rw [hpeek]
  simp only [ok_bind, hfirst, if_true]
  change (content true (Stream.ofTokens ⟨d.tokens, none⟩) >>= _) = _
  unfold content
  simp only [Bool.not_true, Bool.false_and, Bool.false_eq_true, if_false]
  rw [hpeek]
  change ((node 0 true false (4 * d.tokens.length + 8) (Stream.ofTokens ⟨d.tokens, none⟩) >>= _) >>= _) = _
  rw [hnode]
  simp [add, ofTokens]
  rfl

end Json

end MeshOperator
