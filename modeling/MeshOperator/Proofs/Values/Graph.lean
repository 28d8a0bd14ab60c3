import Mathlib.Data.List.Nodup
import Mathlib.Data.List.Perm.Subperm
import Mathlib.Logic.Relation
import MeshOperator.Values.Store

/-!
# Nodes that hold each other

What an item reads as depends on the nodes that it reaches, and not on their numbers. So a change of one
node shows only in the items that reach it, and a copy of the nodes reads as they do.

* `Store.Sound`: no node holds one that is not there.
* `Store.Reaches`: an item holds another, or one that reaches it.
* `Store.Carries`: a part of a store is found in another, with other numbers.
* `Store.Carries.read_rename`, `Store.Carries.resolve?_rename`: it reads the same there, and paths lead to
  the same items.
* `Store.Closed.carries_id`: a part that is found under the same numbers.
-/

namespace MeshOperator

/-! ### What a node holds -/

/-- the items that a node holds -/
def Cell.items : Cell → List Item
  | .dict entries => entries.flatMap fun e => [e.1, e.2]
  | .list items => items
  | .tuple items => items
  | .set items => items
  | .date _ => []
  | .moment _ => []

/-- The item is a scalar, or a node of which `P` holds. -/
def Item.Within (P : Nat → Prop) : Item → Prop
  | .scalar _ => True
  | .node n => P n

theorem Item.Within.mono {P Q : Nat → Prop} {i : Item} (h : i.Within P) (hsub : ∀ n, P n → Q n) :
    i.Within Q := by
  cases i with
  | scalar x => trivial
  | node n => exact hsub n h

theorem Item.rename_eq_scalar {f : Nat → Nat} {i : Item} {x : Scalar} :
    i.rename f = .scalar x ↔ i = .scalar x := by
  cases i <;> simp [rename]

@[simp] theorem Item.rename_id (i : Item) : i.rename id = i := by
  cases i <;> rfl

@[simp] theorem Cell.rename_id (c : Cell) : c.rename id = c := by
  have hrename : Item.rename id = id := funext Item.rename_id
  cases c <;> simp [rename, hrename]

/-! ### Entries under a text -/

theorem entryAt?_mem {key : String} {es : List (Item × Item)} {i : Item}
    (h : entryAt? key es = some i) : (.scalar (.text key), i) ∈ es := by
  fun_induction entryAt? key es <;> simp_all

theorem entryAt?_rename (f : Nat → Nat) (key : String) (es : List (Item × Item)) :
    entryAt? key (es.map fun e => (e.1.rename f, e.2.rename f)) =
      (entryAt? key es).map (Item.rename f) := by
  induction es with
  | nil => rfl
  | cons e es ih =>
    obtain ⟨k, v⟩ := e
    by_cases h : k = .scalar (.text key)
    · simp [entryAt?, h, Item.rename]
    · have h' : ¬ k.rename f = .scalar (.text key) := fun he => h (Item.rename_eq_scalar.1 he)
      simp [entryAt?, h, h', ih]

theorem entryAt?_putEntry_self (key : String) (v : Item) (es : List (Item × Item)) :
    entryAt? key (putEntry key v es) = some v := by
  fun_induction putEntry key v es <;> simp_all [entryAt?]

theorem entryAt?_putEntry_of_ne {key other : String} (h : other ≠ key) (v : Item)
    (es : List (Item × Item)) : entryAt? other (putEntry key v es) = entryAt? other es := by
  fun_induction putEntry key v es <;> simp_all [entryAt?, Ne.symm h]

theorem putEntry_of_entryAt? {key : String} {v : Item} {es : List (Item × Item)}
    (h : entryAt? key es = some v) : putEntry key v es = es := by
  fun_induction putEntry key v es <;> simp_all [entryAt?]

namespace Store

/-! ### Sound stores -/

/-- The nodes of which `P` holds are there, and hold only such nodes. -/
structure Closed (s : Store) (P : Nat → Prop) : Prop where
  exists_cell : ∀ n, P n → ∃ cell, s.cells[n]? = some cell ∧ ∀ i ∈ cell.items, i.Within P

/-- No node holds one that is not there. -/
def Sound (s : Store) : Prop := s.Closed (· < s.cells.size)

theorem Closed.lt_size {s : Store} {P : Nat → Prop} (h : s.Closed P) {n : Nat} (hn : P n) :
    n < s.cells.size := by
  obtain ⟨cell, hcell, -⟩ := h.exists_cell n hn
  exact (Array.getElem?_eq_some_iff.1 hcell).1

/-- One item is a node that holds the other. -/
def Holds (s : Store) (i j : Item) : Prop :=
  ∃ n cell, i = .node n ∧ s.cells[n]? = some cell ∧ j ∈ cell.items

/-- The items are the same, or one holds an item that reaches the other. -/
def Reaches (s : Store) : Item → Item → Prop := Relation.ReflTransGen s.Holds

/-- The node is there, and does not reach `g`. -/
def Misses (s : Store) (g n : Nat) : Prop := n < s.cells.size ∧ ¬ s.Reaches (.node n) (.node g)

theorem Misses.ne {s : Store} {g n m : Nat} (h : s.Misses g n) (hm : s.Reaches (.node m) (.node g)) :
    n ≠ m := by
  rintro rfl
  exact h.2 hm

theorem within_misses {s : Store} {g : Nat} {i : Item} (hi : i.Within (· < s.cells.size))
    (hreach : ¬ s.Reaches i (.node g)) : i.Within (s.Misses g) := by
  cases i with
  | scalar x => trivial
  | node n => exact ⟨hi, hreach⟩

/-- the nodes that do not reach a node are closed -/
theorem Sound.closed_misses {s : Store} (h : s.Sound) (g : Nat) : s.Closed (s.Misses g) := by
  refine ⟨fun n ⟨hlt, hn⟩ => ?_⟩
  obtain ⟨cell, hcell, hitems⟩ := h.exists_cell n hlt
  refine ⟨cell, hcell, fun i hi => within_misses (hitems i hi) fun hreach => hn ?_⟩
  exact .head ⟨n, cell, rfl, hcell, hi⟩ hreach

theorem entries?_eq_some {s : Store} {n : Nat} {es : List (Item × Item)} :
    s.entries? n = some es ↔ s.cells[n]? = some (.dict es) := by
  unfold entries?
  split <;> simp_all

theorem lt_of_entries? {s : Store} {n : Nat} {es : List (Item × Item)} (h : s.entries? n = some es) :
    n < s.cells.size := (Array.getElem?_eq_some_iff.1 (entries?_eq_some.1 h)).1

theorem itemEntries?_eq_some {s : Store} {i : Item} {es : List (Item × Item)} :
    s.itemEntries? i = some es ↔ ∃ n, i = .node n ∧ s.cells[n]? = some (.dict es) := by
  cases i with
  | scalar x => simp [itemEntries?]
  | node n => simp [itemEntries?, entries?_eq_some]

theorem resolve?_cons (s : Store) (i : Item) (key : String) (keys : List String) :
    s.resolve? i (key :: keys) =
      ((s.itemEntries? i).bind (entryAt? key)).bind fun j => s.resolve? j keys := by
  rw [resolve?]
  cases s.itemEntries? i with
  | none => rfl
  | some es =>
    dsimp only [Option.bind_some]
    cases entryAt? key es <;> rfl

theorem Closed.within_entryAt? {s : Store} {P : Nat → Prop} (h : s.Closed P) {i j : Item}
    {es : List (Item × Item)} {key : String} (hi : i.Within P) (hes : s.itemEntries? i = some es)
    (hj : entryAt? key es = some j) : j.Within P := by
  obtain ⟨n, rfl, hcell⟩ := itemEntries?_eq_some.1 hes
  obtain ⟨cell, hcell', hitems⟩ := h.exists_cell n hi
  cases hcell.symm.trans hcell'
  refine hitems j ?_
  have hmem := entryAt?_mem hj
  simp only [Cell.items, List.mem_flatMap]
  exact ⟨_, hmem, by simp⟩

theorem Closed.within_resolve? {s : Store} {P : Nat → Prop} (h : s.Closed P) {i j : Item}
    {keys : List String} (hi : i.Within P) (hj : s.resolve? i keys = some j) : j.Within P := by
  fun_induction resolve? s i keys with
  | case1 i =>
    cases hj
    exact hi
  | case2 => cases hj
  | case3 => cases hj
  | case4 i part rest es hes k hk ih => exact ih (h.within_entryAt? hi hes hk) hj

end Store

/-! ### Reading a node -/

/-- what a node reads as, given what the items in it read as -/
def Cell.readWith (read : Item → Data) : Cell → Data
  | .dict entries => .dict (entries.map fun e => (read e.1, read e.2))
  | .list items => .list (items.map read)
  | .tuple items => .tuple (items.map read)
  | .set items => .set (items.map read)
  | .date d => .date d
  | .moment m => .moment m

/-- what a node that can hold itself reads as within itself -/
def Cell.again? : Cell → Option Data
  | .dict _ => some (.again true)
  | .list _ => some (.again false)
  | .tuple _ => some (.again false)
  | .set _ => some (.again false)
  | .date _ => none
  | .moment _ => none

namespace Cell

variable {f g : Item → Data} {c : Cell}

theorem readWith_congr (h : ∀ i ∈ c.items, f i = g i) : c.readWith f = c.readWith g := by
  cases c with
  | dict entries =>
    refine congrArg Data.dict (List.map_congr_left fun e he => ?_)
    have hitems : ∀ i ∈ [e.1, e.2], f i = g i := fun i hi => h i (List.mem_flatMap.2 ⟨e, he, hi⟩)
    rw [hitems e.1 (by simp), hitems e.2 (by simp)]
  | list items => exact congrArg Data.list (List.map_congr_left h)
  | tuple items => exact congrArg Data.tuple (List.map_congr_left h)
  | set items => exact congrArg Data.set (List.map_congr_left h)
  | date d => rfl
  | moment m => rfl

/-- a node reads the same only if each item in it does -/
theorem eq_of_readWith_eq (h : c.readWith f = c.readWith g) : ∀ i ∈ c.items, f i = g i := by
  cases c with
  | dict entries =>
    intro i hi
    obtain ⟨e, he, hi⟩ := List.mem_flatMap.1 hi
    have hentry := List.map_inj_left.1 (Data.dict.inj h) e he
    simp only [Prod.mk.injEq] at hentry
    simp only [List.mem_cons, List.not_mem_nil, or_false] at hi
    rcases hi with rfl | rfl
    · exact hentry.1
    · exact hentry.2
  | list items => exact List.map_inj_left.1 (Data.list.inj h)
  | tuple items => exact List.map_inj_left.1 (Data.tuple.inj h)
  | set items => exact List.map_inj_left.1 (Data.set.inj h)
  | date d => simp [items]
  | moment m => simp [items]

theorem readWith_rename (r : Nat → Nat) :
    (c.rename r).readWith f = c.readWith fun i => f (i.rename r) := by
  cases c <;> simp [rename, readWith, Function.comp_def]

@[simp] theorem again?_rename (r : Nat → Nat) : (c.rename r).again? = c.again? := by
  cases c <;> rfl

end Cell

namespace Store

/-- A node reads as its cell does, or as that it holds itself. -/
theorem readFrom_node {s : Store} {n : Nat} {cell : Cell} (h : s.cells[n]? = some cell) (fuel : Nat)
    (above : List Nat) :
    s.readFrom (fuel + 1) above (.node n) =
      ((if above.contains n then cell.again? else none).getD
        (cell.readWith (s.readFrom fuel (n :: above)))) := by
  simp only [readFrom, h]
  cases cell <;> cases above.contains n <;> rfl

theorem readFrom_node_of_notMem {s : Store} {n : Nat} {cell : Cell} (h : s.cells[n]? = some cell)
    (fuel : Nat) {above : List Nat} (hn : n ∉ above) :
    s.readFrom (fuel + 1) above (.node n) = cell.readWith (s.readFrom fuel (n :: above)) := by
  have hcontains : ¬ above.contains n = true := fun hmem => hn (List.contains_iff_mem.1 hmem)
  rw [readFrom_node h, if_neg hcontains]
  rfl

/-! ### How deep an item is read -/

/-- nodes that are there, each once, are no more than there are -/
theorem Closed.length_le {s : Store} {P : Nat → Prop} (h : s.Closed P) {above : List Nat}
    (hnodup : above.Nodup) (habove : ∀ n ∈ above, P n) : above.length ≤ s.cells.size := by
  have hsub : above ⊆ List.range s.cells.size := fun n hn => List.mem_range.2 (h.lt_size (habove n hn))
  have hle := (hnodup.subperm hsub).length_le
  rwa [List.length_range] at hle

/-- Once there is room for all nodes that are not above, more does not change what an item reads as: no
node is read within itself. -/
theorem Closed.readFrom_of_room {s : Store} {P : Nat → Prop} (h : s.Closed P) {fuel fuel' : Nat}
    {above : List Nat} {i : Item} (hi : i.Within P) (hnodup : above.Nodup)
    (habove : ∀ n ∈ above, P n) (hroom : s.cells.size < fuel + above.length)
    (hroom' : s.cells.size < fuel' + above.length) :
    s.readFrom fuel above i = s.readFrom fuel' above i := by
  have hlength := h.length_le hnodup habove
  -- on the fuel: each node that is read joins those above, so the room left for the others is the same
  induction fuel generalizing fuel' above i with
  | zero => omega
  | succ fuel ih =>
    obtain ⟨fuel', rfl⟩ : ∃ m, fuel' = m + 1 := ⟨fuel' - 1, by omega⟩
    cases i with
    | scalar x => rfl
    | node n =>
      obtain ⟨cell, hcell, hitems⟩ := h.exists_cell n hi
      by_cases hn : n ∈ above
      · -- only a date or a moment is read within itself, and it holds nothing
        have hcontains : above.contains n = true := List.contains_iff_mem.2 hn
        rw [readFrom_node hcell, readFrom_node hcell, if_pos hcontains]
        cases cell <;> rfl
      · have hnodup' : (n :: above).Nodup := List.nodup_cons.2 ⟨hn, hnodup⟩
        have habove' : ∀ m ∈ n :: above, P m := List.forall_mem_cons.2 ⟨hi, habove⟩
        have hitem (j : Item) (hj : j ∈ cell.items) :
            s.readFrom fuel (n :: above) j = s.readFrom fuel' (n :: above) j := by
          have hlong := h.length_le hnodup' habove'
          refine ih (hitems j hj) hnodup' habove' ?_ ?_ hlong
          · rw [List.length_cons]
            omega
          · rw [List.length_cons]
            omega
        rw [readFrom_node_of_notMem hcell _ hn, readFrom_node_of_notMem hcell _ hn,
          Cell.readWith_congr hitem]

theorem Closed.read_eq {s : Store} {P : Nat → Prop} (h : s.Closed P) {fuel : Nat} {i : Item}
    (hi : i.Within P) (hroom : s.cells.size < fuel) : s.readFrom fuel [] i = s.read i :=
  h.readFrom_of_room hi List.nodup_nil (by simp) (by simpa using hroom) (by simp)

/-! ### A part of a store in another one -/

/-- The nodes of which `P` holds are in the store `t` too, with other numbers. -/
structure Carries (s t : Store) (P : Nat → Prop) (f : Nat → Nat) : Prop where
  closed : s.Closed P
  injective : Function.Injective f
  cell_eq : ∀ n, P n → t.cells[f n]? = (s.cells[n]?).map (Cell.rename f)
  size_le : s.cells.size ≤ t.cells.size

namespace Carries

variable {s t : Store} {P : Nat → Prop} {f : Nat → Nat} (h : s.Carries t P f)
include h

theorem readFrom_rename {fuel : Nat} {above : List Nat} {i : Item} (hi : i.Within P) :
    t.readFrom fuel (above.map f) (i.rename f) = s.readFrom fuel above i := by
  induction fuel generalizing above i with
  | zero => cases i <;> rfl
  | succ fuel ih =>
    cases i with
    | scalar x => rfl
    | node n =>
      obtain ⟨cell, hcell, hitems⟩ := h.closed.exists_cell n hi
      have hcell' : t.cells[f n]? = some (cell.rename f) := by
        rw [h.cell_eq n hi, hcell]
        rfl
      have hcontains : (above.map f).contains (f n) = above.contains n := by
        rw [Bool.eq_iff_iff, List.contains_iff_mem, List.contains_iff_mem,
          List.mem_map_of_injective h.injective]
      have hitem (j : Item) (hj : j ∈ cell.items) :
          t.readFrom fuel (f n :: above.map f) (j.rename f) = s.readFrom fuel (n :: above) j :=
        @ih (n :: above) j (hitems j hj)
      rw [readFrom_node hcell, Item.rename, readFrom_node hcell', hcontains, Cell.again?_rename,
        Cell.readWith_rename, Cell.readWith_congr hitem]

theorem read_rename {i : Item} (hi : i.Within P) : t.read (i.rename f) = s.read i := by
  have hroom : s.cells.size < t.cells.size + 1 := Nat.lt_succ_of_le h.size_le
  rw [← h.closed.read_eq hi hroom]
  exact @readFrom_rename s t P f h (t.cells.size + 1) [] i hi

theorem itemEntries?_rename {i : Item} (hi : i.Within P) :
    t.itemEntries? (i.rename f) =
      (s.itemEntries? i).map (List.map fun e => (e.1.rename f, e.2.rename f)) := by
  cases i with
  | scalar x => rfl
  | node n =>
    simp only [Item.rename, itemEntries?, entries?, h.cell_eq n hi]
    obtain ⟨cell, hcell, -⟩ := h.closed.exists_cell n hi
    rw [hcell]
    cases cell <;> rfl

theorem resolve?_rename {i : Item} {keys : List String} (hi : i.Within P) :
    t.resolve? (i.rename f) keys = (s.resolve? i keys).map (Item.rename f) := by
  induction keys generalizing i with
  | nil => rfl
  | cons key keys ih =>
    rw [resolve?_cons, resolve?_cons, h.itemEntries?_rename hi]
    cases hes : s.itemEntries? i with
    | none => rfl
    | some es =>
      rw [Option.map_some, Option.bind_some, Option.bind_some, entryAt?_rename]
      cases hj : entryAt? key es with
      | none => rfl
      | some j => exact ih (h.closed.within_entryAt? hi hes hj)

end Carries

/-! ### The same numbers -/

section Same

variable {s t : Store} {P : Nat → Prop} {i : Item}

theorem Closed.carries_id (h : s.Closed P) (hcell : ∀ n, P n → t.cells[n]? = s.cells[n]?)
    (hsize : s.cells.size ≤ t.cells.size) : s.Carries t P id := by
  have hid : Cell.rename id = id := funext Cell.rename_id
  refine ⟨h, fun _ _ h => h, fun n hn => ?_, hsize⟩
  rw [id, hcell n hn, hid, Option.map_id]
  rfl

variable (h : s.Carries t P id) (hi : i.Within P)
include h hi

theorem Carries.read_eq : t.read i = s.read i := by
  rw [← h.read_rename hi, Item.rename_id]

theorem Carries.resolve?_eq (keys : List String) : t.resolve? i keys = s.resolve? i keys := by
  have hid : Item.rename id = id := funext Item.rename_id
  have hresolve : t.resolve? (i.rename id) keys = _ := h.resolve?_rename hi
  rwa [hid, Option.map_id] at hresolve

theorem Carries.itemEntries?_eq : t.itemEntries? i = s.itemEntries? i := by
  have hentries := h.itemEntries?_rename hi
  simpa using hentries

end Same

end Store

end MeshOperator
