import MeshOperator.Proofs.Data.Sameness
import MeshOperator.Proofs.Values.Trees

/-!
# Data laid out in a store

Data is put into a store with a node of its own for each of its parts. So the values of a mapping are a tree,
and they are read back as the mapping was.

* `Store.Lays`: a store after some items were made in it, from nodes that nothing else holds.
* `Store.Stacks`: or from nodes that hold only what was made before them.
* `Store.read_add`: data is read back from the nodes that were made for it.
* `Values.isTree_of_held`: values whose store holds each node once are a tree.
* `Values.isTree_ofEntries`, `Values.toData_ofEntries`: the values of a mapping.
-/

namespace MeshOperator

/-- In lists that have nothing in common, and nothing twice, each thing is in one list only. -/
theorem eq_of_mem_of_nodup_flatMap {α β : Type} {l : List α} {f : α → List β} (h : (l.flatMap f).Nodup)
    {i j : Nat} {a b : α} (hi : l[i]? = some a) (hj : l[j]? = some b) {x : β} (hxa : x ∈ f a)
    (hxb : x ∈ f b) : i = j := by
  have hpairwise := List.pairwise_iff_getElem.1 (List.nodup_flatMap.1 h).2
  obtain ⟨hlt, rfl⟩ := List.getElem?_eq_some_iff.1 hi
  obtain ⟨hlt', rfl⟩ := List.getElem?_eq_some_iff.1 hj
  rcases Nat.lt_trichotomy i j with hij | rfl | hij
  · exact absurd hxb (hpairwise i j hlt hlt' hij hxa)
  · rfl
  · exact absurd hxa (hpairwise j i hlt' hlt hij hxb)

namespace Store

/-- the nodes that the nodes of a store hold, each as often as it is held -/
def held (s : Store) : List Nat := s.cells.toList.flatMap Cell.nodes

variable {s t u : Store} {is js : List Item}

/-- The store `t` is `s` with the items `is` made in it: each new node is among the items, or a node holds it,
and that once. -/
structure Lays (s t : Store) (is : List Item) : Prop where
  size_le : s.cells.size ≤ t.cells.size
  count_eq : ∀ n, t.held.count n + (nodesOf is).count n =
    s.held.count n + if s.cells.size ≤ n ∧ n < t.cells.size then 1 else 0

theorem held_push (t : Store) (cell : Cell) : (t.push cell).1.held = t.held ++ cell.nodes := by
  simp [held, push]

namespace Lays

theorem nil (s : Store) : s.Lays s [] := by
  refine ⟨Nat.le_refl _, fun n => ?_⟩
  have hnone : ¬ (s.cells.size ≤ n ∧ n < s.cells.size) := by omega
  rw [if_neg hnone]
  rfl

theorem refl (s : Store) (x : Scalar) : s.Lays s [.scalar x] := ⟨Nat.le_refl _, (nil s).count_eq⟩

theorem append (h : s.Lays t is) (h' : t.Lays u js) : s.Lays u (is ++ js) := by
  refine ⟨Nat.le_trans h.size_le h'.size_le, fun n => ?_⟩
  have hcount := h.count_eq n
  have hcount' := h'.count_eq n
  have hle := h.size_le
  have hle' := h'.size_le
  have hnodes : nodesOf (is ++ js) = nodesOf is ++ nodesOf js := List.filterMap_append
  rw [hnodes, List.count_append]
  split_ifs at hcount hcount' ⊢ <;> omega

/-- items are put into a node, which is made last -/
theorem push (h : s.Lays t is) {cell : Cell} (hcell : cell.items = is) :
    s.Lays (t.push cell).1 [.node (t.push cell).2] := by
  have hsize : (t.push cell).1.cells.size = t.cells.size + 1 := Array.size_push ..
  have hnodes : cell.nodes = nodesOf is := by rw [Cell.nodes, hcell, nodesOf]
  have hle := h.size_le
  refine ⟨by omega, fun n => ?_⟩
  have hcount := h.count_eq n
  have hnew : (nodesOf [.node (t.push cell).2]).count n = if t.cells.size = n then 1 else 0 := by
    simp [nodesOf, Item.node?, Store.push, List.count_singleton]
  rw [held_push, List.count_append, hnodes, hsize, hnew]
  split_ifs at hcount ⊢ <;> omega

end Lays

mutual

/-- data is put into a store with nodes of its own -/
theorem lays_add (s : Store) : (d : Data) → s.Lays (s.add d).1 [(s.add d).2]
  | .scalar x => .refl s x
  | .date _ => (Lays.nil s).push rfl
  | .moment _ => (Lays.nil s).push rfl
  | .list ds => (lays_addItems s ds).push rfl
  | .tuple ds => (lays_addItems s ds).push rfl
  | .set ds => (lays_addItems s ds).push rfl
  | .dict es => (lays_addEntries s es).push rfl
  | .again _ => .refl s .null

theorem lays_addItems (s : Store) : (ds : List Data) → s.Lays (s.addItems ds).1 (s.addItems ds).2
  | [] => .nil s
  | d :: ds => (lays_add s d).append (lays_addItems (s.add d).1 ds)

theorem lays_addEntries (s : Store) :
    (es : List (Data × Data)) →
      s.Lays (s.addEntries es).1 ((s.addEntries es).2.flatMap fun e => [e.1, e.2])
  | [] => .nil s
  | (k, v) :: es =>
    ((lays_add s k).append (lays_add (s.add k).1 v)).append
      (lays_addEntries ((s.add k).1.add v).1 es)

end

/-! ### Nodes made one after the other -/

/-- The store `t` is `s` with the items `is` made in it, and each new node holds only new nodes that were made
before it. -/
structure Stacks (s t : Store) (is : List Item) : Prop where
  grows : s.Grows t is
  below : ∀ n cell, s.cells.size ≤ n → t.cells[n]? = some cell →
    ∀ i ∈ cell.items, i.Within fun m => s.cells.size ≤ m ∧ m < n
  within : ∀ i ∈ is, i.Within fun m => s.cells.size ≤ m ∧ m < t.cells.size

namespace Stacks

theorem nil (s : Store) : s.Stacks s [] := by
  refine ⟨.nil s, fun n cell hn hcell => ?_, List.forall_mem_nil _⟩
  have hlt : n < s.cells.size := (Array.getElem?_eq_some_iff.1 hcell).1
  omega

theorem refl (s : Store) (x : Scalar) : s.Stacks s [.scalar x] :=
  ⟨.refl s x, (nil s).below, List.forall_mem_singleton.2 trivial⟩

theorem append (h : s.Stacks t is) (h' : t.Stacks u js) : s.Stacks u (is ++ js) := by
  have hle := h.grows.size_le
  have hle' := h'.grows.size_le
  refine ⟨h.grows.append h'.grows, fun n cell hn hcell => ?_, fun i hi => ?_⟩
  · by_cases hlt : n < t.cells.size
    · rw [h'.grows.cell_eq n hlt] at hcell
      exact h.below n cell hn hcell
    · intro i hi
      exact (h'.below n cell (Nat.le_of_not_lt hlt) hcell i hi).mono fun m hm => ⟨by omega, hm.2⟩
  · rcases List.mem_append.1 hi with hi | hi
    · exact (h.within i hi).mono fun m hm => ⟨hm.1, by omega⟩
    · exact (h'.within i hi).mono fun m hm => ⟨by omega, hm.2⟩

/-- items are put into a node, which is made last -/
theorem push (h : s.Stacks t is) {cell : Cell} (hcell : cell.items = is) :
    s.Stacks (t.push cell).1 [.node (t.push cell).2] := by
  have hsize : (t.push cell).1.cells.size = t.cells.size + 1 := Array.size_push ..
  have hle := h.grows.size_le
  refine ⟨h.grows.push hcell, fun n c hn hc => ?_, List.forall_mem_singleton.2 ⟨hle, ?_⟩⟩
  · change (t.cells.push cell)[n]? = some c at hc
    rw [Array.getElem?_push] at hc
    split at hc
    · rename_i heq
      cases hc
      rw [heq, hcell]
      exact h.within
    · exact h.below n c hn hc
  · rw [hsize]
    exact Nat.lt_succ_self _

end Stacks

mutual

/-- data is put into a store with nodes that hold each other as its parts do -/
theorem stacks_add (s : Store) : (d : Data) → s.Stacks (s.add d).1 [(s.add d).2]
  | .scalar x => .refl s x
  | .date _ => (Stacks.nil s).push rfl
  | .moment _ => (Stacks.nil s).push rfl
  | .list ds => (stacks_addItems s ds).push rfl
  | .tuple ds => (stacks_addItems s ds).push rfl
  | .set ds => (stacks_addItems s ds).push rfl
  | .dict es => (stacks_addEntries s es).push rfl
  | .again _ => .refl s .null

theorem stacks_addItems (s : Store) : (ds : List Data) → s.Stacks (s.addItems ds).1 (s.addItems ds).2
  | [] => .nil s
  | d :: ds => (stacks_add s d).append (stacks_addItems (s.add d).1 ds)

theorem stacks_addEntries (s : Store) :
    (es : List (Data × Data)) →
      s.Stacks (s.addEntries es).1 ((s.addEntries es).2.flatMap fun e => [e.1, e.2])
  | [] => .nil s
  | (k, v) :: es =>
    ((stacks_add s k).append (stacks_add (s.add k).1 v)).append
      (stacks_addEntries ((s.add k).1.add v).1 es)

end

/-! ### Reading data that was laid out -/

/-- The nodes of a store are in `u` too, with the same numbers. -/
def IsIn (t u : Store) : Prop := ∀ n < t.cells.size, u.cells[n]? = t.cells[n]?

theorem IsIn.of_grows (h : t.IsIn u) (hgrows : s.Grows t is) : s.IsIn u := fun n hn => by
  rw [h n (Nat.lt_of_lt_of_le hn hgrows.size_le), hgrows.cell_eq n hn]

/-- a node that was made last, of items that were made before, reads as its cell does -/
theorem Stacks.read_push (cell : Cell) (h : s.Stacks t cell.items) (hu : u.Sound)
    (hin : (t.push cell).1.IsIn u) :
    t.IsIn u ∧ u.read (.node (t.push cell).2) = cell.readWith u.read := by
  have hsize : (t.push cell).1.cells.size = t.cells.size + 1 := Array.size_push ..
  have hlast : u.cells[t.cells.size]? = some cell := by
    rw [hin _ (by rw [hsize]; exact Nat.lt_succ_self _)]
    exact Array.getElem?_push_size
  have hbefore : t.IsIn u := fun n hn => by
    have hne : n ≠ t.cells.size := Nat.ne_of_lt hn
    rw [hin n (by omega)]
    change (t.cells.push cell)[n]? = _
    rw [Array.getElem?_push, if_neg hne]
  refine ⟨hbefore, hu.read_node hlast fun i hi => ?_⟩
  -- from the items one comes to nodes that were made before only
  refine not_reaches_of_closed (C := (Item.Within fun m => s.cells.size ≤ m ∧ m < t.cells.size)) ?_
    (h.within i hi) fun hself => Nat.lt_irrefl _ hself.2
  rintro i j hi ⟨n, c, rfl, hc, hj⟩
  rw [hbefore n hi.2] at hc
  exact (h.below n c hi.1 hc j hj).mono fun m hm => ⟨hm.1, Nat.lt_trans hm.2 hi.2⟩

mutual

/-- data that was laid out is read back -/
theorem read_add (hu : u.Sound) (s : Store) (d : Data) (hd : d.isWhole = true) (hin : (s.add d).1.IsIn u) :
    u.read (s.add d).2 = d := by
  match d with
  | .scalar x => rfl
  | .date x => exact (Stacks.read_push (.date x) (Stacks.nil s) hu hin).2
  | .moment x => exact (Stacks.read_push (.moment x) (Stacks.nil s) hu hin).2
  | .list ds =>
    obtain ⟨hbefore, hread⟩ := (stacks_addItems s ds).read_push (.list _) hu hin
    exact hread.trans (congrArg Data.list (read_addItems hu s ds hd hbefore))
  | .tuple ds =>
    obtain ⟨hbefore, hread⟩ := (stacks_addItems s ds).read_push (.tuple _) hu hin
    exact hread.trans (congrArg Data.tuple (read_addItems hu s ds hd hbefore))
  | .set ds =>
    obtain ⟨hbefore, hread⟩ := (stacks_addItems s ds).read_push (.set _) hu hin
    exact hread.trans (congrArg Data.set (read_addItems hu s ds hd hbefore))
  | .dict es =>
    obtain ⟨hbefore, hread⟩ := (stacks_addEntries s es).read_push (.dict _) hu hin
    exact hread.trans (congrArg Data.dict (read_addEntries hu s es hd hbefore))
  | .again _ => cases hd

theorem read_addItems (hu : u.Sound) (s : Store) (ds : List Data) (hds : Data.areWhole ds = true)
    (hin : (s.addItems ds).1.IsIn u) : (s.addItems ds).2.map u.read = ds := by
  match ds with
  | [] => rfl
  | d :: ds =>
    rw [Data.areWhole, Bool.and_eq_true] at hds
    have hfirst := read_add hu s d hds.1 (hin.of_grows (grows_addItems (s.add d).1 ds))
    exact congrArg₂ List.cons hfirst (read_addItems hu (s.add d).1 ds hds.2 hin)

theorem read_addEntries (hu : u.Sound) (s : Store) (es : List (Data × Data))
    (hes : Data.areWholeEntries es = true) (hin : (s.addEntries es).1.IsIn u) :
    (s.addEntries es).2.map (fun e => (u.read e.1, u.read e.2)) = es := by
  match es with
  | [] => rfl
  | (k, w) :: es =>
    rw [Data.areWholeEntries, Bool.and_eq_true, Bool.and_eq_true] at hes
    obtain ⟨⟨hk, hw⟩, hes⟩ := hes
    have hvalue : ((s.add k).1.add w).1.IsIn u := hin.of_grows (grows_addEntries ((s.add k).1.add w).1 es)
    have hkey : (s.add k).1.IsIn u := hvalue.of_grows (grows_add (s.add k).1 w)
    exact congrArg₂ List.cons (Prod.ext (read_add hu s k hk hkey) (read_add hu _ w hw hvalue))
      (read_addEntries hu _ es hes hin)

end

end Store

namespace Values

variable {v : Values}

/-- values whose store holds each node once are a tree -/
theorem isTree_of_held (h : v.store.held.Nodup) : v.IsTree := by
  refine ⟨?_, fun {n cell} _ hcell => ?_⟩
  · rintro i j m - - ⟨n, cell, rfl, hcell, hm⟩ ⟨n', cell', rfl, hcell', hm'⟩
    rw [← Array.getElem?_toList] at hcell hcell'
    exact congrArg Item.node
      (eq_of_mem_of_nodup_flatMap h hcell hcell' (Cell.mem_nodes.2 hm) (Cell.mem_nodes.2 hm'))
  · rw [← Array.getElem?_toList] at hcell
    exact (List.nodup_flatMap.1 h).1 cell (List.mem_of_getElem? hcell)

/-- the values of a mapping are a tree -/
theorem isTree_ofEntries (es : List (Data × Data)) : (ofEntries es).IsTree := by
  have hlays := @Store.Lays.push _ _ _ (Store.lays_addEntries .empty es) (.dict (Store.empty.addEntries es).2) rfl
  refine isTree_of_held (List.nodup_iff_count_le_one.2 fun n => ?_)
  have hcount := hlays.count_eq n
  have hnone : Store.empty.held = [] := rfl
  rw [hnone, List.count_nil] at hcount
  change List.count n ((Store.empty.addEntries es).1.push (.dict (Store.empty.addEntries es).2)).1.held ≤ 1
  split_ifs at hcount <;> omega

/-- the values of a mapping read as the mapping does -/
theorem toData_ofEntries {es : List (Data × Data)} (hes : (Data.dict es).isDefinite = true) :
    (ofEntries es).toData = .dict es := by
  have hv := isSound_ofEntries es
  obtain ⟨hbefore, hread⟩ := (Store.stacks_addEntries .empty es).read_push (.dict _) hv.store
    fun _ _ => rfl
  exact hread.trans (congrArg Data.dict
    (Store.read_addEntries hv.store _ es (Data.isWhole_of_isDefinite _ hes) hbefore))

end Values

end MeshOperator
