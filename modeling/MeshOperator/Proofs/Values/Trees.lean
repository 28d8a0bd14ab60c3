import MeshOperator.Proofs.Values.Building

/-!
# Values that are trees

Values in which no node stands in two places are a tree below their root. A node of a tree is never read
within itself, so it reads as its cell does with the items in it read.

* `Values.IsTree`: no node below the root is held in two places.
* `Values.IsTree.not_reaches_self`: no node of a tree is held by one that it reaches.
* `Values.IsTree.read_node`: reading a node of a tree.
-/

namespace MeshOperator

/-- the node that an item is -/
def Item.node? : Item → Option Nat
  | .scalar _ => none
  | .node n => some n

theorem Item.node?_eq_some {i : Item} {n : Nat} : i.node? = some n ↔ i = .node n := by
  cases i <;> simp [node?]

/-- the nodes that a node holds, each as often as it holds it -/
def Cell.nodes (c : Cell) : List Nat := c.items.filterMap Item.node?

theorem Cell.mem_nodes {c : Cell} {n : Nat} : n ∈ c.nodes ↔ .node n ∈ c.items := by
  simp [nodes, List.mem_filterMap, Item.node?_eq_some]

/-- the nodes among some items, each as often as it is there -/
def nodesOf (is : List Item) : List Nat := is.filterMap Item.node?

theorem Cell.items_rename (c : Cell) (f : Nat → Nat) : (c.rename f).items = c.items.map (Item.rename f) := by
  cases c <;> simp [rename, items, List.flatMap_map, List.map_flatMap]

namespace Store

variable {s : Store} {n m : Nat} {i j : Item} {cell : Cell}

/-- what a mapping holds after an entry was put into it -/
theorem items_putEntry {key : String} {value : Item} {es : List (Item × Item)} :
    ∀ i ∈ (Cell.dict (putEntry key value es)).items,
      i = .scalar (.text key) ∨ i = value ∨ i ∈ (Cell.dict es).items := by
  induction es with
  | nil => simp [putEntry, Cell.items]
  | cons e es ih =>
    obtain ⟨k, v⟩ := e
    have hitems (w : Item) (fs : List (Item × Item)) :
        (Cell.dict ((k, w) :: fs)).items = k :: w :: (Cell.dict fs).items := rfl
    rw [putEntry]
    split
    · simp only [hitems, List.mem_cons]
      tauto
    · simp only [hitems, List.mem_cons]
      intro i hi
      rcases hi with hi | hi | hi
      · tauto
      · tauto
      · have hrest := ih i hi
        tauto

/-! ### Reading a node that does not reach itself -/

/-- from items of which all that they hold is of their kind one comes to such items only -/
theorem not_reaches_of_closed {C : Item → Prop} (hclosed : ∀ i j, C i → s.Holds i j → C j) (hi : C i)
    (hj : ¬ C j) : ¬ s.Reaches i j := by
  intro hreach
  have hall : ∀ k, s.Reaches i k → C k := by
    intro k hk
    induction hk with
    | refl => exact hi
    | tail _ hhold ih => exact hclosed _ _ ih hhold
  exact hj (hall j hreach)

theorem Holds.of_mem (hcell : s.cells[n]? = some cell) (hi : i ∈ cell.items) : s.Holds (.node n) i :=
  ⟨n, cell, rfl, hcell, hi⟩

theorem Holds.mem_items (hcell : s.cells[n]? = some cell) (h : s.Holds (.node n) i) :
    i ∈ cell.items := by
  obtain ⟨m, cell', hm, hcell', hi⟩ := h
  cases hm
  cases hcell.symm.trans hcell'
  exact hi

/-- a store that has grown carries what was there -/
theorem Grows.carries {t : Store} {is : List Item} (h : s.Grows t is) (hs : s.Sound) :
    s.Carries t (· < s.cells.size) id := Closed.carries_id hs h.cell_eq h.size_le

/-- what an item is read within matters only as far as the item reaches it -/
theorem readFrom_congr_above {fuel : Nat} {above above' : List Nat}
    (h : ∀ n, s.Reaches i (.node n) → (n ∈ above ↔ n ∈ above')) :
    s.readFrom fuel above i = s.readFrom fuel above' i := by
  induction fuel generalizing above above' i with
  | zero => cases i <;> rfl
  | succ fuel ih =>
    cases i with
    | scalar x => rfl
    | node n =>
      cases hcell : s.cells[n]? with
      | none => simp only [readFrom, hcell]
      | some cell =>
        have hcontains : above.contains n = above'.contains n := by
          rw [Bool.eq_iff_iff, List.contains_iff_mem, List.contains_iff_mem]
          exact h n .refl
        have hitem (j : Item) (hj : j ∈ cell.items) :
            s.readFrom fuel (n :: above) j = s.readFrom fuel (n :: above') j := by
          refine ih fun m hm => ?_
          rw [List.mem_cons, List.mem_cons, h m (.head (.of_mem hcell hj) hm)]
        rw [readFrom_node hcell, readFrom_node hcell, hcontains, Cell.readWith_congr hitem]

theorem Sound.read_node (hs : s.Sound) (hcell : s.cells[n]? = some cell)
    (h : ∀ i ∈ cell.items, ¬ s.Reaches i (.node n)) : s.read (.node n) = cell.readWith s.read := by
  have hlt : n < s.cells.size := (Array.getElem?_eq_some_iff.1 hcell).1
  rw [read, readFrom_node_of_notMem hcell _ (List.not_mem_nil)]
  refine Cell.readWith_congr fun i hi => ?_
  have hroom : s.readFrom s.cells.size [n] i = s.readFrom (s.cells.size + 1) [n] i := by
    refine hs.readFrom_of_room (sound_iff.1 hs n cell hcell i hi) (List.nodup_singleton n) ?_ ?_ ?_
    · simpa using hlt
    · simp
    · simp only [List.length_singleton]
      omega
  rw [hroom]
  refine readFrom_congr_above fun m hm => ?_
  rw [List.mem_singleton]
  refine iff_of_false ?_ (List.not_mem_nil)
  rintro rfl
  exact h i hi hm

/-- an item that is reached from one that it holds is held -/
theorem Holds.exists_of_reaches (hj : s.Holds i j) (hreach : s.Reaches j i) :
    ∃ k, s.Reaches i k ∧ s.Holds k i := by
  rcases Relation.ReflTransGen.cases_tail hreach with he | ⟨k, hk, hhold⟩
  · rw [← he] at hj
    exact ⟨i, .refl, he ▸ hj⟩
  · exact ⟨k, .head hj hk, hhold⟩

end Store

namespace Values

variable {v w : Values} {n m : Nat} {i j : Item} {cell : Cell} {ns : String}

/-- No node below the root is held by two nodes, or in two places of one. -/
structure IsTree (v : Values) : Prop where
  holder_eq : ∀ {i j m}, v.store.Reaches (.node v.root) i → v.store.Reaches (.node v.root) j →
    v.store.Holds i (.node m) → v.store.Holds j (.node m) → i = j
  nodup : ∀ {n cell}, v.store.Reaches (.node v.root) (.node n) → v.store.cells[n]? = some cell →
    cell.nodes.Nodup

namespace IsTree

variable (hv : v.IsSound) (ht : v.IsTree)
include hv ht

/-- no node below the root reaches itself by way of what it holds -/
theorem not_reaches_self (hi : v.store.Reaches (.node v.root) i) (hj : v.store.Holds i j) :
    ¬ v.store.Reaches j i := by
  intro hreach
  obtain ⟨k, hk, hhold⟩ := hj.exists_of_reaches hreach
  -- on the way from the root: the node that closes a circle is the one that the way came from
  induction hi generalizing j k with
  | refl => exact hv.unheld k hhold
  | @tail p i hp hpi ih =>
    obtain ⟨m, rfl⟩ : ∃ m, i = .node m := by
      obtain ⟨m, -, hm, -⟩ := hj
      exact ⟨m, hm⟩
    obtain rfl := ht.holder_eq hp (hp.tail hpi |>.trans hk) hpi hhold
    obtain ⟨k', hk', hhold'⟩ := hpi.exists_of_reaches hk
    exact ih hpi hk k' hk' hhold'

/-- a node below the root reads as its cell does -/
theorem read_node (hn : v.store.Reaches (.node v.root) (.node n)) (hcell : v.store.cells[n]? = some cell) :
    v.store.read (.node n) = cell.readWith v.store.read :=
  hv.store.read_node hcell fun _ hi => not_reaches_self hv ht hn (.of_mem hcell hi)

end IsTree

end Values

end MeshOperator
