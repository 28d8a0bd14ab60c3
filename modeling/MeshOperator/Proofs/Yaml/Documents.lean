import MeshOperator.Proofs.Values.Effective
import MeshOperator.Proofs.Values.Laying
import MeshOperator.Proofs.Yaml.Filling

/-!
# Documents without aliases

In a document without aliases no node is a part of two others, and the nodes are numbered in the order in which
they begin. Turned into a store, its nodes read as their parts do, and the values that it holds are a tree.

* `Document.IsTree`: each node is a part of one other at most, which comes before it.
* `Document.Becomes`: a document that was turned into a store.
* `Document.Becomes.read_eq`: a collection reads as its parts do.
* `Document.Becomes.isTree_reroot`: the values of a document are a tree.
-/

namespace MeshOperator

/-! ### Entries that are put one after the other -/

theorem nodesOf_cons (i : Item) (is : List Item) : nodesOf (i :: is) = nodesOf [i] ++ nodesOf is := by
  rw [← List.singleton_append, nodesOf, List.filterMap_append]
  rfl

theorem nodes_dict_cons (k v : Item) (es : List (Item × Item)) :
    (Cell.dict ((k, v) :: es)).nodes = nodesOf [k] ++ (nodesOf [v] ++ (Cell.dict es).nodes) := by
  change nodesOf (k :: v :: (Cell.dict es).items) = _
  rw [nodesOf_cons, nodesOf_cons v]
  rfl

theorem count_nodes_putEntry (n : Nat) (key : String) (value : Item) (es : List (Item × Item)) :
    (Cell.dict (putEntry key value es)).nodes.count n ≤
      (Cell.dict es).nodes.count n + (nodesOf [value]).count n := by
  induction es with
  | nil =>
    rw [putEntry, nodes_dict_cons]
    exact Nat.le_of_eq (by simp [Cell.nodes, Cell.items, show nodesOf [.scalar (.text key)] = [] from rfl])
  | cons e es ih =>
    obtain ⟨k, v⟩ := e
    rw [putEntry]
    split
    · simp only [nodes_dict_cons, List.count_append]
      omega
    · simp only [nodes_dict_cons, List.count_append]
      omega

theorem count_nodes_foldl {α : Type} (n : Nat) (key : α → String) (value : α → Item) (as : List α)
    (es : List (Item × Item)) :
    (Cell.dict (as.foldl (fun es a => putEntry (key a) (value a) es) es)).nodes.count n ≤
      (Cell.dict es).nodes.count n + (nodesOf (as.map value)).count n := by
  induction as generalizing es with
  | nil => exact Nat.le_add_right ..
  | cons a as ih =>
    have hfirst := count_nodes_putEntry n (key a) (value a) es
    have hrest := ih (putEntry (key a) (value a) es)
    rw [List.foldl_cons, List.map_cons, nodesOf_cons, List.count_append]
    omega

theorem map_snd_sublist (ps : List (Nat × Nat)) :
    (ps.map Prod.snd).Sublist (ps.flatMap fun p => [p.1, p.2]) := by
  induction ps with
  | nil => exact .slnil
  | cons p ps ih => exact .cons _ (.cons_cons _ ih)

namespace Yaml

open Builder

/-- Each node is a part of one other at most, in one place, and comes after it; the root is a part of none. -/
structure Document.IsTree (d : Document) : Prop where
  nodup : (d.nodes.toList.flatMap Node.parts).Nodup
  lt : ∀ {n c : Nat} {node : Node}, d.nodes[n]? = some node → c ∈ node.parts → n < c
  root_notMem : ∀ {n : Nat} {node : Node}, d.nodes[n]? = some node → d.root ∉ node.parts

/-- A document that was turned into a store: the builder in the end. -/
structure Document.Becomes (d : Document) (b : Builder) : Prop where
  stands : Stands d.nodes [] b
  waiting : b.waiting = []
  sound : b.store.Sound

namespace Document.Becomes

variable {d : Document} {b : Builder} {n m c : Nat} {i : Item} {node : Node}

theorem has_of_itemAt (h : b.itemAt n = .node m) : b.Has n (.node m) := by
  unfold Builder.itemAt at h
  cases hmet : b.items[n]? with
  | none =>
    rw [hmet] at h
    cases h
  | some met =>
    cases met with
    | none =>
      rw [hmet] at h
      cases h
    | some i =>
      rw [hmet] at h
      cases h
      exact hmet

/-- what the cell of a collection holds -/
theorem mem_items_cellOf (hi : i ∈ (b.cellOf node).items) :
    (∃ x, i = .scalar x) ∨ ∃ c ∈ node.parts, i = b.itemAt c := by
  unfold cellOf at hi
  unfold Node.parts
  cases hbody : node.body with
  | scalar s =>
    rw [hbody] at hi
    cases hi
  | sequence ns =>
    rw [hbody] at hi
    obtain ⟨c, hc, rfl⟩ := List.mem_map.1 hi
    exact .inr ⟨c, hc, rfl⟩
  | mapping ps =>
    rw [hbody] at hi
    have hfold (es : List (Item × Item)) (hes : ∀ i ∈ (Cell.dict es).items,
        (∃ x, i = .scalar x) ∨ ∃ p ∈ ps, i = b.itemAt p.2) (qs : List (Nat × Nat)) (hqs : ∀ q ∈ qs, q ∈ ps) :
        ∀ i ∈ (Cell.dict (qs.foldl
            (fun es p => putEntry (keyText b.nodes p.1) (b.itemAt p.2) es) es)).items,
          (∃ x, i = .scalar x) ∨ ∃ p ∈ ps, i = b.itemAt p.2 := by
      induction qs generalizing es with
      | nil => exact hes
      | cons q qs ih =>
        obtain ⟨hq, hqs⟩ := List.forall_mem_cons.1 hqs
        refine ih _ (fun i hi => ?_) hqs
        rcases Store.items_putEntry i hi with rfl | rfl | hi
        · exact .inl ⟨_, rfl⟩
        · exact .inr ⟨q, hq, rfl⟩
        · exact hes i hi
    rcases hfold [] (by simp [Cell.items]) ps (fun _ h => h) i hi with hscalar | ⟨p, hp, hitem⟩
    · exact .inl hscalar
    · exact .inr ⟨p.2, List.mem_flatMap.2 ⟨p, hp, by simp⟩, hitem⟩

/-- the items of different nodes are different nodes of the store -/
theorem nodup_nodesOf (h : Stands d.nodes [] b) {ns : List Nat} (hns : ns.Nodup) :
    (nodesOf (ns.map b.itemAt)).Nodup := by
  rw [nodesOf, List.filterMap_map]
  refine hns.filterMap fun n n' m hm hm' => ?_
  have hitem : b.itemAt n = .node m := Item.node?_eq_some.1 hm
  have hitem' : b.itemAt n' = .node m := Item.node?_eq_some.1 hm'
  exact h.injective (has_of_itemAt hitem) (has_of_itemAt hitem')

theorem nodup_cellOf (h : Stands d.nodes [] b) (hparts : node.parts.Nodup) :
    (b.cellOf node).nodes.Nodup := by
  unfold cellOf
  unfold Node.parts at hparts
  cases hbody : node.body with
  | scalar s => exact List.nodup_nil
  | sequence ns =>
    rw [hbody] at hparts
    exact nodup_nodesOf h hparts
  | mapping ps =>
    rw [hbody] at hparts
    have hvalues := nodup_nodesOf h (hparts.sublist (map_snd_sublist ps))
    rw [List.map_map] at hvalues
    refine List.nodup_iff_count_le_one.2 fun n => ?_
    have hcount := count_nodes_foldl n (fun p => keyText b.nodes p.1) (fun p => b.itemAt p.2) ps []
    have hone := List.nodup_iff_count_le_one.1 hvalues n
    have hnil : (Cell.dict []).nodes = [] := rfl
    rw [hnil, List.count_nil, Nat.zero_add] at hcount
    exact Nat.le_trans hcount hone

/-! ### Reading the nodes -/

section Reading

variable (h : d.Becomes b)
include h

/-- only collections have nodes of the store, and these are filled in the end -/
theorem exists_filled (hi : b.Has n (.node m)) :
    ∃ node, d.nodes[n]? = some node ∧ IsCollection node ∧ b.IsFilled node m := by
  obtain ⟨node, hnode, hcollection, -⟩ := h.stands.exists_collection hi
  obtain ⟨m', hm', -, hfilled⟩ := h.stands.placed hi hnode hcollection
  cases hm'
  refine ⟨node, hnode, hcollection, hfilled.resolve_left fun hmem => ?_⟩
  rw [h.waiting] at hmem
  cases hmem

/-- a node of the store that another holds belongs to a part of the node that the other belongs to -/
theorem exists_part (hi : b.Has n (.node m)) {m' : Nat} (hhold : b.store.Holds (.node m) (.node m')) :
    ∃ node c, d.nodes[n]? = some node ∧ c ∈ node.parts ∧ b.Has c (.node m') := by
  obtain ⟨node, hnode, -, hfilled⟩ := h.exists_filled hi
  rcases mem_items_cellOf (hhold.mem_items hfilled.cell_eq) with ⟨x, hx⟩ | ⟨c, hc, hitem⟩
  · cases hx
  · exact ⟨node, c, hnode, hc, has_of_itemAt hitem.symm⟩

/-- what is reached belongs to no node that comes before -/
theorem exists_le_of_reaches (ht : d.IsTree) (hi : b.Has n (.node m)) {m' : Nat}
    (hreach : b.store.Reaches (.node m) (.node m')) : ∃ n', n ≤ n' ∧ b.Has n' (.node m') := by
  have hall : ∀ j, b.store.Reaches (.node m) j → ∀ m', j = .node m' → ∃ n', n ≤ n' ∧ b.Has n' (.node m') := by
    intro j hj
    induction hj with
    | refl =>
      rintro m' heq
      cases heq
      exact ⟨n, Nat.le_refl _, hi⟩
    | tail _ hhold ih =>
      rintro m' rfl
      obtain ⟨k, -, rfl, -⟩ := id hhold
      obtain ⟨n', hle, hn'⟩ := ih k rfl
      obtain ⟨node, c, hnode, hc, hpart⟩ := h.exists_part hn' hhold
      exact ⟨c, Nat.le_of_lt (Nat.lt_of_le_of_lt hle (ht.lt hnode hc)), hpart⟩
  exact hall _ hreach m' rfl

/-- **Collections.**  A collection reads as its parts do. -/
theorem read_eq (ht : d.IsTree) (hi : b.Has n (.node m)) (hnode : d.nodes[n]? = some node) :
    b.store.read (.node m) = (b.cellOf node).readWith b.store.read := by
  obtain ⟨node', hnode', -, hfilled⟩ := h.exists_filled hi
  cases hnode.symm.trans hnode'
  refine h.sound.read_node hfilled.cell_eq fun j hj hreach => ?_
  have hhold := Store.Holds.of_mem hfilled.cell_eq hj
  cases j with
  | scalar x =>
    rcases Relation.ReflTransGen.cases_head hreach with he | ⟨k, ⟨m', cell, hx, -⟩, -⟩
    · cases he
    · cases hx
  | node m' =>
    obtain ⟨node', c, hnode', hc, hpart⟩ := h.exists_part hi hhold
    obtain ⟨n', hle, hn'⟩ := h.exists_le_of_reaches ht hpart hreach
    cases h.stands.injective hi hn'
    have hlt := ht.lt hnode' hc
    omega

/-- a collection is a node of the store, and its parts have their items -/
theorem exists_node (hi : b.Has n i) (hnode : d.nodes[n]? = some node) (hcollection : IsCollection node) :
    ∃ m, i = .node m ∧ b.store.cells[m]? = some (b.cellOf node) ∧ ∀ c ∈ node.parts, ∃ j, b.Has c j := by
  obtain ⟨m, rfl, -⟩ := h.stands.placed hi hnode hcollection
  obtain ⟨node', hnode', -, hfilled⟩ := h.exists_filled hi
  cases hnode.symm.trans hnode'
  exact ⟨m, rfl, hfilled.cell_eq, hfilled.has⟩

end Reading

/-! ### Values of a document -/

/-- An item of the values of a document, and the node that it belongs to: the root has a node of its own, in
place of that of the document. -/
def Owns (b : Builder) (root : Nat) (j : Item) (n : Nat) : Prop :=
  j = .node b.store.cells.size ∧ n = root ∨ n ≠ root ∧ b.Has n j

section Values

variable {es : List (Item × Item)} {root n' : Nat} {j : Item}

theorem Owns.eq_of_item (h : Stands d.nodes [] b) (hn : Owns b root (.node m) n)
    (hn' : Owns b root (.node m) n') : n = n' := by
  have hlt : ∀ {k}, b.Has k (.node m) → m < b.store.cells.size := fun hk => by
    obtain ⟨-, -, -, hlt⟩ := h.exists_collection hk
    exact hlt
  rcases hn with ⟨hm, rfl⟩ | ⟨-, hk⟩
  · rcases hn' with ⟨-, rfl⟩ | ⟨-, hk'⟩
    · rfl
    · cases hm
      exact absurd (hlt hk') (Nat.lt_irrefl _)
  · rcases hn' with ⟨hm, -⟩ | ⟨-, hk'⟩
    · cases hm
      exact absurd (hlt hk) (Nat.lt_irrefl _)
    · exact h.injective hk hk'

theorem Owns.eq_of_node (hi : Owns b root i n) (hj : Owns b root j n) : i = j := by
  rcases hi with ⟨rfl, hn⟩ | ⟨hn, hi⟩
  · rcases hj with ⟨rfl, -⟩ | ⟨hn', -⟩
    · rfl
    · exact absurd hn hn'
  · rcases hj with ⟨-, hn'⟩ | ⟨-, hj⟩
    · exact absurd hn' hn
    · exact hi.unique hj

variable (h : d.Becomes b) (ht : d.IsTree) (hroot : b.Has d.root (.node m))
  (hes : b.store.entries? m = some es)
include h hroot hes

/-- the cell of an item of the values is that of the node that it belongs to -/
theorem Owns.exists_cell {k : Nat} (hk : Owns b d.root (.node k) n) :
    ∃ node, d.nodes[n]? = some node ∧ (Values.reroot b.store es).store.cells[k]? = some (b.cellOf node) := by
  rcases hk with ⟨hk, rfl⟩ | ⟨-, hk⟩
  · cases hk
    obtain ⟨node, hnode, -, hfilled⟩ := h.exists_filled hroot
    refine ⟨node, hnode, ?_⟩
    rw [← hfilled.cell_eq, Store.entries?_eq_some.1 hes]
    exact Array.getElem?_push_size
  · obtain ⟨node, hnode, -, hfilled⟩ := h.exists_filled hk
    have hlt : k < b.store.cells.size := (Array.getElem?_eq_some_iff.1 hfilled.cell_eq).1
    refine ⟨node, hnode, ?_⟩
    rw [← hfilled.cell_eq]
    change (b.store.cells.push (.dict es))[k]? = _
    rw [Array.getElem?_push, if_neg (Nat.ne_of_lt hlt)]

include ht

theorem Owns.exists_part (hi : Owns b d.root i n) {k : Nat}
    (hhold : (Values.reroot b.store es).store.Holds i (.node k)) :
    ∃ node c, d.nodes[n]? = some node ∧ c ∈ node.parts ∧ Owns b d.root (.node k) c := by
  obtain ⟨m', -, rfl, -⟩ := id hhold
  obtain ⟨node, hnode, hcell⟩ := Owns.exists_cell h hroot hes hi
  rcases mem_items_cellOf (hhold.mem_items hcell) with ⟨x, hx⟩ | ⟨c, hc, hitem⟩
  · cases hx
  · refine ⟨node, c, hnode, hc, .inr ⟨?_, has_of_itemAt hitem.symm⟩⟩
    rintro rfl
    exact ht.root_notMem hnode hc

/-- what the root reaches belongs to a node -/
theorem exists_owns {i : Item} {k : Nat}
    (hreach : (Values.reroot b.store es).store.Reaches (.node (Values.reroot b.store es).root) i)
    (hi : i = .node k) : ∃ n, Owns b d.root i n := by
  induction hreach generalizing k with
  | refl => exact ⟨d.root, .inl ⟨rfl, rfl⟩⟩
  | tail _ hhold ih =>
    subst hi
    obtain ⟨k', -, hk', -⟩ := id hhold
    obtain ⟨n, hn⟩ := ih hk'
    obtain ⟨-, c, -, -, hc⟩ := Owns.exists_part h ht hroot hes hn hhold
    exact ⟨c, hc⟩

/-- the values of a document are a tree -/
theorem isTree_reroot : (Values.reroot b.store es).IsTree := by
  refine ⟨fun {i j k} hi hj hhold hhold' => ?_, fun {k cell} hk hcell => ?_⟩
  · obtain ⟨m', -, hm', -⟩ := id hhold
    obtain ⟨m'', -, hm'', -⟩ := id hhold'
    obtain ⟨n, hn⟩ := exists_owns h ht hroot hes hi hm'
    obtain ⟨n', hn'⟩ := exists_owns h ht hroot hes hj hm''
    obtain ⟨node, c, hnode, hc, hown⟩ := Owns.exists_part h ht hroot hes hn hhold
    obtain ⟨node', c', hnode', hc', hown'⟩ := Owns.exists_part h ht hroot hes hn' hhold'
    obtain rfl := Owns.eq_of_item h.stands hown hown'
    rw [← Array.getElem?_toList] at hnode hnode'
    obtain rfl := eq_of_mem_of_nodup_flatMap ht.nodup hnode hnode' hc hc'
    exact hn.eq_of_node hn'
  · obtain ⟨n, hn⟩ := exists_owns h ht hroot hes hk rfl
    obtain ⟨node, hnode, hcell'⟩ := Owns.exists_cell h hroot hes hn
    cases hcell.symm.trans hcell'
    rw [← Array.getElem?_toList] at hnode
    exact nodup_cellOf h.stands ((List.nodup_flatMap.1 ht.nodup).1 node (List.mem_of_getElem? hnode))

omit ht in
/-- the values of a document read as the document does -/
theorem toData_reroot (ht : d.IsTree) : (Values.reroot b.store es).toData = b.store.read (.node m) := by
  obtain ⟨node, hnode, -, hfilled⟩ := h.exists_filled hroot
  have hcell := Store.entries?_eq_some.1 hes
  have hread : b.store.read (.node m) = (Cell.dict es).readWith b.store.read := by
    rw [h.read_eq ht hroot hnode, ← Option.some.inj (hcell.symm.trans hfilled.cell_eq)]
  have hitems := Store.sound_iff.1 h.sound m _ hcell
  have hgrows := @Store.Grows.push b.store b.store (Cell.dict es).items
    ⟨Nat.le_refl _, fun _ _ => rfl, id, hitems⟩ (.dict es) rfl
  rw [Values.toData_eq (Values.isSound_reroot h.sound hitems)
    (Store.entries?_eq_some.2 (Array.getElem?_push_size)), hread]
  exact Cell.readWith_congr (c := .dict es) fun i hi => (hgrows.carries h.sound).read_eq (hitems i hi)

end Values

end Document.Becomes

end Yaml

end MeshOperator
