import MeshOperator.Proofs.Values.Trees
import MeshOperator.Values.Decode

/-!
# Filling the collections of a document

A document whose nodes all have plain readings is turned into a store without a fault. Each of its nodes gets
one item, and each collection a cell of its own, which in the end holds the items of its parts. Until then the
collection waits: this is the invariant that carries over from step to step.

* `Tag.Means`: what a node of a tag with a text is read as.
* `Node.IsPlain`: a node that is read by its kind, with texts for the keys of a mapping.
* `Builder.Stands`: the invariant.
* `Document.exists_value`: the store of a document.
-/

namespace MeshOperator.Yaml

/-! ### What scalars mean -/

/-- A node of this tag with this text is read as the scalar. -/
def Tag.Means (t : Tag) (s : List Char) (x : Scalar) : Prop :=
  ∀ (b : Builder) (n : Nat), b.items[n]?.join = none → tagOf b.nodes n = t → b.text n = .ok s →
    b.item n = .ok (b.remember n (.scalar x))

namespace Tag

variable {s : List Char}

theorem means_null : Tag.null.Means s .null := by
  intro b n hitem htag htext
  unfold Builder.item
  simp only [hitem, htag, htext, ok_bind]
  rfl

theorem means_text : Tag.text.Means s (.text (String.ofList s)) := by
  intro b n hitem htag htext
  unfold Builder.item
  simp only [hitem, htag, htext, ok_bind]
  rfl

theorem means_bool {v : Bool} (h : boolValue s = .ok v) : Tag.bool.Means s (.bool v) := by
  intro b n hitem htag htext
  unfold Builder.item
  simp only [hitem, htag, htext, ok_bind, h]
  rfl

theorem means_int {v : Int} (h : integerValue s = .ok v) : Tag.int.Means s (.int v) := by
  intro b n hitem htag htext
  unfold Builder.item
  simp only [hitem, htag, htext, ok_bind, h]
  rfl

theorem means_float {v : Double} (h : doubleValue s = .ok v) : Tag.float.Means s (.double v) := by
  intro b n hitem htag htext
  unfold Builder.item
  simp only [hitem, htag, htext, ok_bind, h]
  rfl

/-- a tag and a text have one meaning at most -/
theorem Means.unique {t : Tag} {x y : Scalar} (hx : t.Means s x) (hy : t.Means s y) : x = y := by
  have htext : (Builder.mk #[⟨t, .scalar (String.ofList s)⟩] 0 #[none] .empty []).text 0 = .ok s := by
    simp [Builder.text, scalarText]
  have heq := (hx _ 0 rfl rfl htext).symm.trans (hy _ 0 rfl rfl htext)
  cases heq
  rfl

end Tag

/-! ### Plain nodes -/

/-- the nodes that a node is made of -/
def Node.parts (node : Node) : List Nat :=
  match node.body with
  | .scalar _ => []
  | .sequence ns => ns
  | .mapping ps => ps.flatMap fun p => [p.1, p.2]

/-- A node that is read by its kind: a scalar with a meaning, a sequence, or a mapping with texts for keys. -/
inductive Node.IsPlain (nodes : Array Node) : Node → Prop
  | scalar {t : Tag} {text : String} {x : Scalar} (h : t.Means text.toList x) :
    IsPlain nodes ⟨t, .scalar text⟩
  | sequence {ns : List Nat} (h : ∀ n ∈ ns, n < nodes.size) : IsPlain nodes ⟨.sequence, .sequence ns⟩
  | mapping {ps : List (Nat × Nat)}
    (h : ∀ p ∈ ps, p.2 < nodes.size ∧ ∃ key, nodes[p.1]? = some ⟨.text, .scalar key⟩) :
    IsPlain nodes ⟨.mapping, .mapping ps⟩

/-- every node is plain -/
def ArePlain (nodes : Array Node) : Prop :=
  ∀ (n : Nat) (node : Node), nodes[n]? = some node → node.IsPlain nodes

variable {nodes : Array Node}

/-! ### Mappings without merges -/

theorem tagOf_eq {n : Nat} {node : Node} (h : nodes[n]? = some node) : tagOf nodes n = node.tag := by
  rw [tagOf, h]
  rfl

theorem pairsOf?_eq {n : Nat} {t : Tag} {ps : List (Nat × Nat)} (h : nodes[n]? = some ⟨t, .mapping ps⟩) :
    pairsOf? nodes n = some ps := by
  rw [pairsOf?, h]
  rfl

theorem setPairs_self {n : Nat} {t : Tag} {ps : List (Nat × Nat)} (h : nodes[n]? = some ⟨t, .mapping ps⟩) :
    setPairs nodes n ps = nodes := by
  apply Array.ext_getElem?
  intro i
  rw [setPairs, Array.getElem?_modify]
  split
  · rename_i hi
    rw [← hi, h]
    rfl
  · rfl

/-- a mapping in which all keys are texts is left as it is -/
theorem mergePairs_eq {n : Nat} {t : Tag} {ps : List (Nat × Nat)} (h : nodes[n]? = some ⟨t, .mapping ps⟩)
    (hkeys : ∀ p ∈ ps, tagOf nodes p.1 = .text) (fuel : Nat) : mergePairs fuel nodes n = .ok nodes := by
  have hfrom (merge : Array Node → Nat → Except Fault (Array Node)) (steps i : Nat) :
      mergeFrom merge n steps nodes i [] = .ok nodes := by
    induction steps generalizing i with
    | zero =>
      unfold mergeFrom
      rw [pairsOf?_eq h]
      exact congrArg Except.ok (setPairs_self h)
    | succ steps ih =>
      unfold mergeFrom
      rw [pairsOf?_eq h]
      dsimp only [Option.getD_some]
      cases hp : ps[i]? with
      | none => exact congrArg Except.ok (setPairs_self h)
      | some p =>
        simp only [hkeys p (List.mem_of_getElem? hp), ih]
  cases fuel with
  | zero => rfl
  | succ fuel => exact hfrom _ _ _

namespace Builder

variable {b b' : Builder} {due : List (Nat × Nat)} {n m : Nat} {i : Item} {node : Node}

/-! ### Filled collections -/

/-- whether a node has its item -/
def Has (b : Builder) (n : Nat) (i : Item) : Prop := b.items[n]? = some (some i)

/-- the item of a node, once it has one -/
def itemAt (b : Builder) (n : Nat) : Item := b.items[n]?.join.getD (.scalar .null)

theorem Has.itemAt_eq (h : b.Has n i) : b.itemAt n = i := by
  rw [itemAt, h]
  rfl

theorem Has.unique {j : Item} (h : b.Has n i) (h' : b.Has n j) : i = j := by
  rw [← h.itemAt_eq, h'.itemAt_eq]

/-- the text that a node holds, if it is a scalar -/
def keyText (nodes : Array Node) (n : Nat) : String :=
  match nodes[n]?.map Node.body with
  | some (.scalar s) => s
  | _ => ""

/-- the cell of a collection, once its parts have their items -/
def cellOf (b : Builder) (node : Node) : Cell :=
  match node.body with
  | .scalar _ => .list []
  | .sequence ns => .list (ns.map b.itemAt)
  | .mapping ps => .dict (ps.foldl (fun es p => putEntry (keyText b.nodes p.1) (b.itemAt p.2) es) [])

/-- The parts of a collection have their items, and its cell holds them. -/
structure IsFilled (b : Builder) (node : Node) (m : Nat) : Prop where
  cell_eq : b.store.cells[m]? = some (b.cellOf node)
  has : ∀ c ∈ node.parts, ∃ i, b.Has c i

/-- the items and cells of a builder stay what they are -/
structure Grows (b b' : Builder) : Prop where
  nodes_eq : b'.nodes = b.nodes
  has : ∀ n i, b.Has n i → b'.Has n i

theorem Grows.refl (b : Builder) : b.Grows b := ⟨rfl, fun _ _ h => h⟩

theorem Grows.trans {b'' : Builder} (h : b.Grows b') (h' : b'.Grows b'') : b.Grows b'' :=
  ⟨h'.nodes_eq.trans h.nodes_eq, fun n i hi => h'.has n i (h.has n i hi)⟩

theorem Grows.itemAt_eq (h : b.Grows b') (hn : ∃ i, b.Has n i) : b'.itemAt n = b.itemAt n := by
  obtain ⟨i, hi⟩ := hn
  rw [hi.itemAt_eq, (h.has n i hi).itemAt_eq]

theorem Grows.cellOf_eq (h : b.Grows b') (hparts : ∀ c ∈ node.parts, ∃ i, b.Has c i) :
    b'.cellOf node = b.cellOf node := by
  unfold cellOf
  unfold Node.parts at hparts
  cases hbody : node.body with
  | scalar s => rfl
  | sequence ns =>
    rw [hbody] at hparts
    exact congrArg Cell.list (List.map_congr_left fun n hn => h.itemAt_eq (hparts n hn))
  | mapping ps =>
    rw [hbody] at hparts
    rw [h.nodes_eq]
    refine congrArg Cell.dict (List.foldl_ext _ _ _ fun es p hp => ?_)
    rw [h.itemAt_eq (hparts p.2 (List.mem_flatMap.2 ⟨p, hp, by simp⟩))]

theorem IsFilled.grows (h : b.IsFilled node m) (hgrows : b.Grows b')
    (hcell : b'.store.cells[m]? = b.store.cells[m]?) : b'.IsFilled node m := by
  refine ⟨?_, fun c hc => ?_⟩
  · rw [hcell, hgrows.cellOf_eq h.has, h.cell_eq]
  · obtain ⟨i, hi⟩ := h.has c hc
    exact ⟨i, hgrows.has c i hi⟩

/-! ### The invariant -/

/-- whether a node is a collection -/
def IsCollection (node : Node) : Prop := ∀ s, node.body ≠ .scalar s

/-- The items of a document in the making: a scalar has the item that it means, a collection a cell of its own,
which is filled unless it is among those that wait or are being filled. -/
structure Stands (nodes : Array Node) (due : List (Nat × Nat)) (b : Builder) : Prop where
  nodes_eq : b.nodes = nodes
  size_eq : b.items.size = nodes.size
  scalar : ∀ {n i t s}, b.Has n i → nodes[n]? = some ⟨t, .scalar s⟩ → ∃ x, i = .scalar x ∧ t.Means s.toList x
  placed : ∀ {n i node}, b.Has n i → nodes[n]? = some node → IsCollection node →
    ∃ m, i = .node m ∧ m < b.store.cells.size ∧ ((n, m) ∈ due ++ b.waiting ∨ b.IsFilled node m)
  injective : ∀ {n n' m}, b.Has n (.node m) → b.Has n' (.node m) → n = n'
  waits : ∀ {n m}, (n, m) ∈ due ++ b.waiting → b.Has n (.node m)

/-- only collections have nodes of the store for items -/
theorem Stands.exists_collection (h : Stands nodes due b) (hi : b.Has n (.node m)) :
    ∃ node, nodes[n]? = some node ∧ IsCollection node ∧ m < b.store.cells.size := by
  have hlt : n < nodes.size := by
    rw [← h.size_eq]
    exact (Array.getElem?_eq_some_iff.1 hi).1
  have hnode : nodes[n]? = some nodes[n] := Array.getElem?_eq_getElem hlt
  have hcollection : IsCollection nodes[n] := by
    intro s hs
    obtain ⟨x, hx, -⟩ := h.scalar (t := nodes[n].tag) (s := s) hi (by rw [hnode, ← hs])
    cases hx
  obtain ⟨m', hm', hlt', -⟩ := h.placed hi hnode hcollection
  cases hm'
  exact ⟨_, hnode, hcollection, hlt'⟩

/-- the steps that are left: collections to be filled, and nodes without items -/
def left (b : Builder) : Nat := b.waiting.length + b.items.toList.count none

/-- One comes from `b` to `b'` without a fault: what stood stands, and no more is left. -/
structure Goes (nodes : Array Node) (due : List (Nat × Nat)) (b b' : Builder) : Prop where
  stands : Stands nodes due b'
  grows : b.Grows b'
  left_le : b'.left ≤ b.left

theorem Goes.refl (h : Stands nodes due b) : Goes nodes due b b := ⟨h, .refl b, Nat.le_refl _⟩

theorem Goes.trans {b'' : Builder} (h : Goes nodes due b b') (h' : Goes nodes due b' b'') :
    Goes nodes due b b'' :=
  ⟨h'.stands, h.grows.trans h'.grows, Nat.le_trans h'.left_le h.left_le⟩

/-! ### One node -/

/-- the builder with an item for a node, in a store with cells for it, and more collections that wait -/
def withItem (b : Builder) (n : Nat) (i : Item) (store : Store) (more : List (Nat × Nat)) : Builder :=
  ⟨b.nodes, b.depth, b.items.setIfInBounds n (some i), store, b.waiting ++ more⟩

section WithItem

variable {store : Store} {more : List (Nat × Nat)}

theorem has_withItem (hnone : b.items[n]? = some none) (k : Nat) (j : Item) :
    (b.withItem n i store more).Has k j ↔ k = n ∧ j = i ∨ k ≠ n ∧ b.Has k j := by
  have hlt : n < b.items.size := (Array.getElem?_eq_some_iff.1 hnone).1
  unfold Has withItem
  rw [Array.getElem?_setIfInBounds]
  by_cases hk : n = k
  · subst hk
    simp [hlt, eq_comm]
  · simp [hk, Ne.symm hk]

theorem grows_withItem (hnone : b.items[n]? = some none) : b.Grows (b.withItem n i store more) := by
  refine ⟨rfl, fun k j hj => (has_withItem hnone k j).2 (.inr ⟨?_, hj⟩)⟩
  rintro rfl
  cases hnone.symm.trans hj

theorem left_withItem (hnone : b.items[n]? = some none) (hmore : more.length ≤ 1) :
    (b.withItem n i store more).left ≤ b.left := by
  have hget : b.items.toList[n]? = some none := by rwa [Array.getElem?_toList]
  obtain ⟨hlt, heq⟩ := List.getElem?_eq_some_iff.1 hget
  have hpos : 0 < b.items.toList.count none := List.count_pos_iff.2 (List.mem_of_getElem? hget)
  have hcount : (b.withItem n i store more).items.toList.count none = b.items.toList.count none - 1 := by
    rw [withItem, Array.toList_setIfInBounds, List.count_set hlt, heq]
    rfl
  have hlength : (b.withItem n i store more).waiting.length = b.waiting.length + more.length :=
    List.length_append
  unfold left
  omega

/-- the new node of the store is none that was there before, so the nodes still have nodes of their own -/
theorem injective_withItem (h : Stands nodes due b) (hnone : b.items[n]? = some none)
    (hfresh : ∀ m, i = .node m → b.store.cells.size ≤ m) {k k' m : Nat}
    (hk : (b.withItem n i store more).Has k (.node m)) (hk' : (b.withItem n i store more).Has k' (.node m)) :
    k = k' := by
  have habsent : ∀ {k}, i = .node m → ¬ b.Has k (.node m) := by
    intro k hi hold
    obtain ⟨-, -, -, hlt⟩ := h.exists_collection hold
    exact Nat.not_lt_of_le (hfresh m hi) hlt
  rcases (has_withItem hnone _ _).1 hk with ⟨rfl, hm⟩ | ⟨-, hold⟩
  · rcases (has_withItem hnone _ _).1 hk' with ⟨rfl, -⟩ | ⟨-, hold'⟩
    · rfl
    · exact absurd hold' (habsent hm.symm)
  · rcases (has_withItem hnone _ _).1 hk' with ⟨rfl, hm'⟩ | ⟨-, hold'⟩
    · exact absurd hold (habsent hm'.symm)
    · exact h.injective hold hold'

theorem goes_withItem (h : Stands nodes due b) (hnone : b.items[n]? = some none)
    (hnode : nodes[n]? = some node)
    (hcells : ∀ m < b.store.cells.size, store.cells[m]? = b.store.cells[m]?)
    (hsize : b.store.cells.size ≤ store.cells.size)
    (hnew : (∃ t s x, node = ⟨t, .scalar s⟩ ∧ i = .scalar x ∧ t.Means s.toList x ∧ more = []) ∨
      IsCollection node ∧ i = .node b.store.cells.size ∧ b.store.cells.size < store.cells.size ∧
        more = [(n, b.store.cells.size)]) :
    Goes nodes due b (b.withItem n i store more) := by
  have hgrows : b.Grows (b.withItem n i store more) := grows_withItem hnone
  have hhas := @has_withItem b n i store more hnone
  refine ⟨⟨h.nodes_eq, ?_, ?_, ?_, ?_, ?_⟩, hgrows, left_withItem hnone ?_⟩
  · rw [withItem, Array.size_setIfInBounds, h.size_eq]
  · intro k j t s hj hk
    rcases (hhas k j).1 hj with ⟨rfl, rfl⟩ | ⟨-, hj⟩
    · cases hnode.symm.trans hk
      rcases hnew with ⟨t', s', x, hnode', hx, hmeans, -⟩ | ⟨hcollection, -⟩
      · cases hnode'
        exact ⟨x, hx, hmeans⟩
      · exact absurd rfl (hcollection s)
    · exact h.scalar hj hk
  · intro k j node' hj hk hcollection'
    rcases (hhas k j).1 hj with ⟨rfl, rfl⟩ | ⟨-, hj⟩
    · cases hnode.symm.trans hk
      rcases hnew with ⟨t, s, x, rfl, -⟩ | ⟨-, hplace, hlt, hmore⟩
      · exact absurd rfl (hcollection' s)
      · refine ⟨_, hplace, hlt, .inl ?_⟩
        simp [withItem, hmore]
    · obtain ⟨m, rfl, hm, hfilled⟩ := h.placed hj hk hcollection'
      refine ⟨m, rfl, Nat.lt_of_lt_of_le hm hsize, hfilled.imp (fun hmem => ?_) fun hfilled => ?_⟩
      · rw [withItem, ← List.append_assoc]
        exact List.mem_append_left _ hmem
      · exact hfilled.grows hgrows (hcells m hm)
  · refine fun {k k' m} hk hk' => injective_withItem h hnone (fun m hm => ?_) hk hk'
    rcases hnew with ⟨t, s, x, -, hx, -⟩ | ⟨-, hplace, -⟩
    · cases hx.symm.trans hm
    · cases hplace.symm.trans hm
      exact Nat.le_refl _
  · intro k m hmem
    rw [withItem, ← List.append_assoc, List.mem_append] at hmem
    rcases hmem with hmem | hmem
    · exact hgrows.has _ _ (h.waits hmem)
    · rcases hnew with ⟨t, s, x, -, -, -, rfl⟩ | ⟨-, rfl, -, rfl⟩
      · cases hmem
      · cases List.mem_singleton.1 hmem
        exact (hhas _ _).2 (.inl ⟨rfl, rfl⟩)
  · rcases hnew with ⟨t, s, x, -, -, -, rfl⟩ | ⟨-, -, -, rfl⟩
    · exact Nat.zero_le _
    · exact Nat.le_refl _

end WithItem

theorem text_eq {t : Tag} {text : String} (h : b.nodes[n]? = some ⟨t, .scalar text⟩) :
    b.text n = .ok text.toList := by
  simp [Builder.text, scalarText, h]

/-- an empty collection is made, to be filled later -/
theorem goes_place (h : Stands nodes due b) (hnone : b.items[n]? = some none) (hnode : nodes[n]? = some node)
    (hcollection : IsCollection node) (c : Cell) :
    Goes nodes due b (b.place n c true).2 ∧ (b.place n c true).2.Has n (b.place n c true).1 := by
  have hsize : (b.store.push c).1.cells.size = b.store.cells.size + 1 := Array.size_push ..
  have hplace : b.place n c true = (.node b.store.cells.size,
      b.withItem n (.node b.store.cells.size) (b.store.push c).1 [(n, b.store.cells.size)]) := rfl
  rw [hplace]
  refine ⟨goes_withItem h hnone hnode (fun m hm => ?_) (by omega) (.inr ⟨hcollection, rfl, by omega, rfl⟩),
    (has_withItem hnone _ _).2 (.inl ⟨rfl, rfl⟩)⟩
  have hne : m ≠ b.store.cells.size := Nat.ne_of_lt hm
  change (b.store.cells.push c)[m]? = _
  rw [Array.getElem?_push, if_neg hne]

/-- each node of a plain document gets its item -/
theorem exists_item (hplain : ArePlain nodes) (h : Stands nodes due b) (hn : n < nodes.size) :
    ∃ i b', b.item n = .ok (i, b') ∧ Goes nodes due b b' ∧ b'.Has n i := by
  have hlt : n < b.items.size := by rwa [h.size_eq]
  obtain ⟨node, hnode⟩ : ∃ node, nodes[n]? = some node := ⟨_, Array.getElem?_eq_getElem hn⟩
  obtain ⟨met, hmet⟩ : ∃ met, b.items[n]? = some met := ⟨_, Array.getElem?_eq_getElem hlt⟩
  have hnode' : b.nodes[n]? = some node := by rw [h.nodes_eq, hnode]
  have htag := tagOf_eq hnode'
  cases met with
  | some i =>
    refine ⟨i, b, ?_, .refl h, hmet⟩
    unfold item
    rw [hmet]
    rfl
  | none =>
    cases hplain n node hnode with
    | @scalar t text x hmeans =>
      have hremember : b.remember n (.scalar x) = (.scalar x, b.withItem n (.scalar x) b.store []) := by
        simp [remember, withItem]
      refine ⟨_, _, (hmeans b n (by rw [hmet]; rfl) htag (text_eq hnode')).trans (congrArg _ hremember), ?_,
        (has_withItem hmet _ _).2 (.inl ⟨rfl, rfl⟩)⟩
      exact goes_withItem h hmet hnode (fun _ _ => rfl) (Nat.le_refl _)
        (.inl ⟨t, text, x, rfl, rfl, hmeans, rfl⟩)
    | sequence =>
      refine ⟨_, _, ?_, goes_place h hmet hnode (fun s hs => by cases hs) (.list [])⟩
      unfold item
      rw [hmet, htag]
      rfl
    | mapping =>
      refine ⟨_, _, ?_, goes_place h hmet hnode (fun s hs => by cases hs) (.dict [])⟩
      unfold item
      rw [hmet, htag]
      rfl

/-! ### The parts of a collection -/

theorem exists_itemsOf (hplain : ArePlain nodes) {ns : List Nat} (h : Stands nodes due b)
    (hns : ∀ n ∈ ns, n < nodes.size) :
    ∃ b', b.itemsOf ns = .ok (ns.map b'.itemAt, b') ∧ Goes nodes due b b' ∧ ∀ n ∈ ns, ∃ i, b'.Has n i := by
  induction ns generalizing b with
  | nil => exact ⟨b, rfl, .refl h, by simp⟩
  | cons n ns ih =>
    obtain ⟨hn, hns⟩ := List.forall_mem_cons.1 hns
    obtain ⟨i, b₁, hitem, hgoes, hi⟩ := exists_item hplain h hn
    obtain ⟨b₂, hrest, hgoes', hall⟩ := ih hgoes.stands hns
    have hkept := hgoes'.grows.has n i hi
    refine ⟨b₂, ?_, hgoes.trans hgoes', List.forall_mem_cons.2 ⟨⟨i, hkept⟩, hall⟩⟩
    rw [itemsOf, hitem, ok_bind]
    dsimp only
    rw [hrest, ok_bind, List.map_cons, hkept.itemAt_eq]
    rfl

/-- Pairs whose keys are texts, each there once. -/
structure AreTexts (ps : List Pair) : Prop where
  text : ∀ p ∈ ps, ∃ key, p.key = .scalar (.text key)
  nodup : (ps.map Pair.key).Nodup

/-- the keys and values of pairs -/
def entriesOf (ps : List Pair) : List (Item × Item) := ps.map fun p => (p.key, p.value)

section InsertPair

variable {ps : List Pair} {key : String} {value : Item}

theorem sameKey_iff {q : Pair} (hq : ∃ other, q.key = .scalar (.text other)) :
    b.sameKey ⟨n, .scalar (.text key), value⟩ q = true ↔ q.key = .scalar (.text key) := by
  obtain ⟨other, hq⟩ := hq
  have hread (x : String) : b.store.read (.scalar (.text x)) = .text x := rfl
  simp [sameKey, hq, hread, Data.same, Scalar.same, eq_comm]

theorem putEntry_of_ne {es : List (Item × Item)} (h : ∀ e ∈ es, e.1 ≠ .scalar (.text key)) :
    putEntry key value es = es ++ [(.scalar (.text key), value)] := by
  induction es with
  | nil => rfl
  | cons e es ih =>
    obtain ⟨he, hes⟩ := List.forall_mem_cons.1 h
    obtain ⟨k, w⟩ := e
    rw [putEntry, if_neg he, ih hes]
    rfl

theorem AreTexts.of_cons {q : Pair} (h : AreTexts (q :: ps)) :
    AreTexts ps ∧ ∀ r ∈ ps, r.key ≠ q.key := by
  have hnodup := List.nodup_cons.1 h.nodup
  refine ⟨⟨fun r hr => h.text r (List.mem_cons_of_mem _ hr), hnodup.2⟩, fun r hr heq => hnodup.1 ?_⟩
  rw [← heq]
  exact List.mem_map_of_mem hr

/-- the value under a key that is there is replaced in its place -/
theorem entriesOf_replace (hps : AreTexts ps) (hmem : ∃ q ∈ ps, q.key = .scalar (.text key)) :
    entriesOf (ps.map fun q =>
        if b.sameKey ⟨n, .scalar (.text key), value⟩ q then { q with value := value } else q) =
      putEntry key value (entriesOf ps) := by
  induction ps with
  | nil =>
    obtain ⟨q, hq, -⟩ := hmem
    cases hq
  | cons q ps ih =>
    obtain ⟨hrest, hother⟩ := hps.of_cons
    have hsame := @sameKey_iff b n key value q (hps.text q (List.mem_cons_self ..))
    by_cases hq : q.key = .scalar (.text key)
    · have hkept : ps.map (fun q =>
          if b.sameKey ⟨n, .scalar (.text key), value⟩ q then { q with value := value } else q) = ps := by
        refine (List.map_congr_left fun r hr => if_neg fun hr' => ?_).trans (List.map_id ps)
        rw [sameKey_iff (hrest.text r hr), ← hq] at hr'
        exact hother r hr hr'
      rw [List.map_cons, hkept, if_pos (hsame.2 hq)]
      simp [entriesOf, putEntry, hq]
    · have hmem' : ∃ r ∈ ps, r.key = .scalar (.text key) := by
        obtain ⟨r, hr, hkey⟩ := hmem
        rcases List.mem_cons.1 hr with rfl | hr
        · exact absurd hkey hq
        · exact ⟨r, hr, hkey⟩
      have htail := ih hrest hmem'
      rw [List.map_cons, if_neg fun hs => hq (hsame.1 hs)]
      change (q.key, q.value) :: entriesOf _ = putEntry key value ((q.key, q.value) :: entriesOf ps)
      rw [htail, putEntry, if_neg hq]

/-- inserting a pair with a text for its key puts an entry -/
theorem insertPair_eq (hps : AreTexts ps) :
    entriesOf (b.insertPair ps ⟨n, .scalar (.text key), value⟩) = putEntry key value (entriesOf ps) ∧
    AreTexts (b.insertPair ps ⟨n, .scalar (.text key), value⟩) := by
  unfold insertPair
  split
  · rename_i hany
    obtain ⟨q, hq, hsame⟩ := List.any_eq_true.1 hany
    refine ⟨entriesOf_replace hps ⟨q, hq, (sameKey_iff (hps.text q hq)).1 hsame⟩, ?_, ?_⟩
    · intro r hr
      obtain ⟨q, hq, rfl⟩ := List.mem_map.1 hr
      have htext := hps.text q hq
      split
      · exact htext
      · exact htext
    · rw [List.map_map]
      have hkeys : Pair.key ∘ (fun q : Pair =>
          if b.sameKey ⟨n, .scalar (.text key), value⟩ q then { q with value := value } else q) =
            Pair.key := by
        funext q
        simp only [Function.comp_apply]
        split <;> rfl
      rw [hkeys]
      exact hps.nodup
  · rename_i hany
    have hne : ∀ q ∈ ps, q.key ≠ .scalar (.text key) := fun q hq hkey =>
      hany (List.any_eq_true.2 ⟨q, hq, (sameKey_iff (hps.text q hq)).2 hkey⟩)
    refine ⟨?_, ?_, ?_⟩
    · rw [putEntry_of_ne]
      · simp [entriesOf]
      · intro e he
        obtain ⟨q, hq, rfl⟩ := List.mem_map.1 he
        exact hne q hq
    · intro r hr
      rcases List.mem_append.1 hr with hr | hr
      · exact hps.text r hr
      · cases List.mem_singleton.1 hr
        exact ⟨key, rfl⟩
    · rw [List.map_append, List.nodup_append]
      refine ⟨hps.nodup, List.nodup_singleton _, ?_⟩
      intro k hk k' hk'
      obtain ⟨q, hq, rfl⟩ := List.mem_map.1 hk
      rw [List.map_singleton, List.mem_singleton] at hk'
      rw [hk']
      exact hne q hq

end InsertPair

theorem keyText_eq {t : Tag} {text : String} (h : nodes[n]? = some ⟨t, .scalar text⟩) :
    keyText nodes n = text := by
  rw [keyText, h]
  rfl

/-- a text has itself for its item -/
theorem Stands.eq_text (h : Stands nodes due b) {key : String} (hkey : nodes[n]? = some ⟨.text, .scalar key⟩)
    (hi : b.Has n i) : i = .scalar (.text key) := by
  obtain ⟨x, rfl, hmeans⟩ := h.scalar hi hkey
  rw [hmeans.unique Tag.means_text, String.ofList_toList]

theorem exists_pairsOf (hplain : ArePlain nodes) {ps : List (Nat × Nat)} {qs : List Pair}
    (h : Stands nodes due b)
    (hps : ∀ p ∈ ps, p.2 < nodes.size ∧ ∃ key, nodes[p.1]? = some ⟨.text, .scalar key⟩) (hqs : AreTexts qs) :
    ∃ rs b', b.pairsOf ps qs = .ok (rs, b') ∧ Goes nodes due b b' ∧
      (∀ p ∈ ps, (∃ i, b'.Has p.1 i) ∧ ∃ i, b'.Has p.2 i) ∧
      entriesOf rs =
        ps.foldl (fun es p => putEntry (keyText nodes p.1) (b'.itemAt p.2) es) (entriesOf qs) := by
  induction ps generalizing b qs with
  | nil => exact ⟨qs, b, rfl, .refl h, by simp, rfl⟩
  | cons p ps ih =>
    obtain ⟨⟨hvalue, key, hkey⟩, hlater⟩ := List.forall_mem_cons.1 hps
    obtain ⟨k, v⟩ := p
    obtain ⟨i, b₁, hitem, hgoes, hi⟩ :=
      exists_item hplain h (Array.getElem?_eq_some_iff.1 hkey).1
    obtain rfl := hgoes.stands.eq_text hkey hi
    obtain ⟨j, b₂, hitem', hgoes', hj⟩ := exists_item hplain hgoes.stands hvalue
    obtain ⟨hentries, htexts⟩ := @insertPair_eq b₂ k qs key j hqs
    obtain ⟨rs, b₃, hrest, hgoes'', hall, hfold⟩ := ih hgoes'.stands hlater htexts
    have hgrows := hgoes'.grows.trans hgoes''.grows
    refine ⟨rs, b₃, ?_, (hgoes.trans hgoes').trans hgoes'', ?_, ?_⟩
    · rw [pairsOf, hitem, ok_bind]
      dsimp only [canBeKey]
      rw [hitem', ok_bind]
      exact hrest
    · exact List.forall_mem_cons.2 ⟨⟨⟨_, hgrows.has _ _ hi⟩, _, hgoes''.grows.has _ _ hj⟩, hall⟩
    · rw [hfold, hentries, List.foldl_cons, keyText_eq hkey, (hgoes''.grows.has _ _ hj).itemAt_eq]

/-! ### Filling -/

/-- a collection whose parts have their items is filled -/
theorem stands_withCell (h : Stands nodes [(n, m)] b) (hnode : nodes[n]? = some node)
    (hhas : ∀ c ∈ node.parts, ∃ i, b.Has c i) : Stands nodes [] (b.withCell m (b.cellOf node)) := by
  have hown : b.Has n (.node m) := h.waits (List.mem_cons_self ..)
  obtain ⟨-, -, -, hlt⟩ := h.exists_collection hown
  have hgrows : b.Grows (b.withCell m (b.cellOf node)) := ⟨rfl, fun _ _ hk => hk⟩
  refine ⟨h.nodes_eq, h.size_eq, h.scalar, ?_, h.injective,
    fun hmem => h.waits (List.mem_cons_of_mem _ hmem)⟩
  intro k i node' hk hnode' hcollection
  obtain ⟨m', rfl, hlt', hfilled⟩ := h.placed hk hnode' hcollection
  have hsize : (b.withCell m (b.cellOf node)).store.cells.size = b.store.cells.size :=
    Array.size_setIfInBounds
  refine ⟨m', rfl, by rwa [hsize], ?_⟩
  by_cases hm : m' = m
  · -- no other node has this cell
    subst hm
    obtain rfl := h.injective hk hown
    cases hnode.symm.trans hnode'
    exact .inr ⟨Array.getElem?_setIfInBounds_self_of_lt hlt, hhas⟩
  · refine hfilled.imp (fun hmem => ?_) fun hfilled => ?_
    · rcases List.mem_cons.1 hmem with heq | hmem
      · cases heq
        exact absurd rfl hm
      · exact hmem
    · exact hfilled.grows hgrows (Array.getElem?_setIfInBounds_ne (Ne.symm hm))

theorem exists_fill (hplain : ArePlain nodes) (h : Stands nodes [(n, m)] b) :
    ∃ b', b.fill n m = .ok b' ∧ Stands nodes [] b' ∧ b.Grows b' ∧ b'.left ≤ b.left := by
  obtain ⟨node, hnode, hcollection, -⟩ := h.exists_collection (h.waits (List.mem_cons_self ..))
  have hnode' : b.nodes[n]? = some node := by rw [h.nodes_eq, hnode]
  have htag := tagOf_eq hnode'
  cases hplain n node hnode with
  | @scalar t text x hmeans => exact absurd rfl (hcollection text)
  | @sequence ns hparts =>
    obtain ⟨b₁, hitems, hgoes, hhas⟩ := exists_itemsOf hplain h hparts
    have hsequence : b.sequenceOf n = .ok ns := by
      rw [sequenceOf, hnode']
      rfl
    refine ⟨b₁.withCell m (b₁.cellOf ⟨.sequence, .sequence ns⟩), ?_, stands_withCell hgoes.stands hnode hhas,
      ⟨hgoes.grows.nodes_eq, hgoes.grows.has⟩, hgoes.left_le⟩
    unfold fill
    simp only [htag, hsequence, ok_bind, hitems]
    rfl
  | @mapping ps hparts =>
    have hkeys : ∀ p ∈ ps, tagOf b.nodes p.1 = .text := by
      intro p hp
      obtain ⟨-, key, hkey⟩ := hparts p hp
      rw [h.nodes_eq]
      exact tagOf_eq hkey
    have hnone : AreTexts [] := ⟨by simp, by simp⟩
    obtain ⟨rs, b₁, hpairs, hgoes, hhas, hfold⟩ := exists_pairsOf hplain h hparts hnone
    have hmapping : b.mappingOf n = .ok (entriesOf rs, b₁) := by
      unfold mappingOf
      simp only [pairsOf?_eq hnode', mergePairs_eq hnode' hkeys, ok_bind, Option.getD_some, hpairs]
      rfl
    have hcell : b₁.cellOf ⟨.mapping, .mapping ps⟩ = .dict (entriesOf rs) := by
      rw [hfold, ← hgoes.stands.nodes_eq]
      rfl
    refine ⟨b₁.withCell m (b₁.cellOf ⟨.mapping, .mapping ps⟩), ?_,
      stands_withCell hgoes.stands hnode fun c hc => ?_, ⟨hgoes.grows.nodes_eq, hgoes.grows.has⟩, hgoes.left_le⟩
    · unfold fill
      simp only [htag, ok_bind, hmapping, hcell]
      rfl
    · obtain ⟨p, hp, hc⟩ := List.mem_flatMap.1 hc
      simp only [List.mem_cons, List.not_mem_nil, or_false] at hc
      rcases hc with rfl | rfl
      · exact (hhas p hp).1
      · exact (hhas p hp).2

/-- in the end nothing waits -/
theorem exists_fillAll (hplain : ArePlain nodes) (h : Stands nodes [] b) {fuel : Nat} (hfuel : b.left ≤ fuel) :
    ∃ b', fillAll fuel b = .ok b' ∧ Stands nodes [] b' ∧ b'.waiting = [] ∧ b.Grows b' := by
  -- on the fuel: each collection that is filled leaves a step less
  induction fuel generalizing b with
  | zero =>
    refine ⟨b, rfl, h, List.eq_nil_of_length_eq_zero ?_, .refl b⟩
    unfold left at hfuel
    omega
  | succ fuel ih =>
    cases hwaiting : b.waiting with
    | nil =>
      refine ⟨b, ?_, h, hwaiting, .refl b⟩
      unfold fillAll
      rw [hwaiting]
    | cons next rest =>
      obtain ⟨n, m⟩ := next
      have hdue : Stands nodes [(n, m)] { b with waiting := rest } := by
        refine ⟨h.nodes_eq, h.size_eq, h.scalar, ?_, h.injective, ?_⟩
        · intro k i node hk hnode hcollection
          obtain ⟨m', rfl, hlt, hfilled⟩ := h.placed hk hnode hcollection
          refine ⟨m', rfl, hlt, hfilled.imp (fun hmem => ?_) fun hfilled => ⟨hfilled.cell_eq, hfilled.has⟩⟩
          rwa [hwaiting] at hmem
        · intro k m' hmem
          refine h.waits ?_
          rwa [hwaiting]
      obtain ⟨b₁, hfill, hstands, hgrows, hleft⟩ := exists_fill hplain hdue
      have hless : b₁.left ≤ fuel := by
        have hlength : b.waiting.length = rest.length + 1 := by rw [hwaiting, List.length_cons]
        unfold left at hfuel hleft ⊢
        dsimp only at hleft
        omega
      obtain ⟨b₂, hall, hstands', hnil, hgrows'⟩ := ih hstands hless
      refine ⟨b₂, ?_, hstands', hnil, ?_⟩
      · rw [fillAll, hwaiting]
        dsimp only
        rw [hfill, ok_bind, hall]
      · exact ⟨hgrows'.nodes_eq.trans hgrows.nodes_eq, fun k i hk => hgrows'.has k i (hgrows.has k i hk)⟩

theorem stands_ofDocument (d : Document) : Stands d.nodes [] (ofDocument d) ∧
    (ofDocument d).left ≤ d.nodes.size := by
  have hnone : ∀ {n i}, ¬ (ofDocument d).Has n i := by
    intro n i hi
    have hget : (Array.replicate d.nodes.size (none : Option Item))[n]? = some (some i) := hi
    rw [Array.getElem?_replicate] at hget
    split at hget <;> cases hget
  refine ⟨⟨rfl, Array.size_replicate, fun hi => absurd hi hnone, fun hi => absurd hi hnone,
    fun hi => absurd hi hnone, fun hmem => ?_⟩, ?_⟩
  · cases hmem
  · have hcount : (ofDocument d).items.toList.count none ≤ (ofDocument d).items.toList.length :=
      List.count_le_length
    have hlength : (ofDocument d).items.toList.length = d.nodes.size := by simp [ofDocument]
    have hwaiting : (ofDocument d).waiting.length = 0 := rfl
    unfold left
    omega

end Builder

/-- **Documents.**  A plain document is turned into a store, in which each collection that was met has a cell of
its own that holds the items of its parts. -/
theorem Document.exists_value {d : Document} (hplain : ArePlain d.nodes) (hroot : d.root < d.nodes.size) :
    ∃ b i, d.value = .ok (b.store, i) ∧ Builder.Stands d.nodes [] b ∧ b.waiting = [] ∧ b.Has d.root i := by
  obtain ⟨hstands, hleft⟩ := Builder.stands_ofDocument d
  obtain ⟨i, b, hitem, hgoes, hi⟩ := Builder.exists_item hplain hstands hroot
  have hfuel : b.left ≤ d.nodes.size + 1 := Nat.le_succ_of_le (Nat.le_trans hgoes.left_le hleft)
  obtain ⟨b', hall, hstands', hnil, hgrows⟩ := Builder.exists_fillAll hplain hgoes.stands hfuel
  refine ⟨b', i, ?_, hstands', hnil, hgrows.has _ _ hi⟩
  unfold Document.value
  rw [hitem, ok_bind]
  dsimp only
  rw [hall]
  rfl

end MeshOperator.Yaml
