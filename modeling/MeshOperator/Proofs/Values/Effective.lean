import MeshOperator.Proofs.Data.Entries
import MeshOperator.Proofs.Values.Frame
import MeshOperator.Proofs.Values.Trees

/-!
# Effective values as data

Where the values are a tree, the override of the namespace shows in one place of what they read as. So the
effective values depend on what the values read as and on nothing else.

* `Data.withNamespace`: data with the namespace put under `global`.
* `Store.Carries.read_over`: reading a node that holds what was carried over from another store.
* `Values.toData_override`: what the effective values of a tree read as.
-/

namespace MeshOperator

/-! ### Entries that are read -/

section Entries

variable {f g : Item → Data} {key : String} {i : Item} {es : List (Item × Item)}

theorem lookup?_map (hf : ∀ i, f i = .text key ↔ i = .scalar (.text key)) :
    Data.lookup? key (es.map fun e => (f e.1, f e.2)) = (entryAt? key es).map f := by
  induction es with
  | nil => rfl
  | cons e es ih =>
    obtain ⟨k, v⟩ := e
    rw [List.map_cons, entryAt?]
    by_cases hk : k = .scalar (.text key)
    · rw [if_pos hk, (hf k).2 hk, Data.lookup?_cons_self]
      rfl
    · rw [if_neg hk, Data.lookup?_cons_of_ne (fun he => hk ((hf k).1 he)), ih]

theorem map_putEntry (hf : ∀ i, f i = .text key ↔ i = .scalar (.text key)) (i : Item) :
    (putEntry key i es).map (fun e => (f e.1, f e.2)) =
      Data.withEntry key (f i) (es.map fun e => (f e.1, f e.2)) := by
  induction es with
  | nil => simp [putEntry, Data.withEntry, (hf _).2 rfl]
  | cons e es ih =>
    obtain ⟨k, v⟩ := e
    rw [putEntry, List.map_cons]
    by_cases hk : k = .scalar (.text key)
    · rw [if_pos hk, List.map_cons, (hf k).2 hk, Data.withEntry_cons_self]
    · rw [if_neg hk, List.map_cons, ih, Data.withEntry_cons_of_ne (fun he => hk ((hf k).1 he))]

/-- Entries read as others do, but for one item, which stands there once. -/
theorem map_eq_withEntry {n : Nat} (hg : ∀ i, g i = .text key ↔ i = .scalar (.text key))
    (hentry : entryAt? key es = some (.node n)) (hnodup : (Cell.dict es).nodes.Nodup)
    (h : ∀ i ∈ (Cell.dict es).items, i ≠ .node n → f i = g i) :
    es.map (fun e => (f e.1, f e.2)) =
      Data.withEntry key (f (.node n)) (es.map fun e => (g e.1, g e.2)) := by
  induction es with
  | nil => cases hentry
  | cons e es ih =>
    obtain ⟨k, v⟩ := e
    have hitems : (Cell.dict ((k, v) :: es)).items = k :: v :: (Cell.dict es).items := rfl
    have hnodes : (Cell.dict ((k, v) :: es)).nodes =
        [k, v].filterMap Item.node? ++ (Cell.dict es).nodes := by
      simp [Cell.nodes, hitems, ← List.filterMap_append]
    rw [hnodes] at hnodup
    obtain ⟨-, hnodup', hapart⟩ := List.nodup_append.1 hnodup
    have hother : n ∉ [k, v].filterMap Item.node? ∨ n ∉ (Cell.dict es).nodes :=
      not_and_or.1 fun hboth => hapart n hboth.1 n hboth.2 rfl
    rw [hitems] at h
    obtain ⟨hk', hv', hrest⟩ : _ ∧ _ ∧ _ := by simpa only [List.forall_mem_cons] using h
    rw [entryAt?] at hentry
    rw [List.map_cons, List.map_cons]
    by_cases hk : k = .scalar (.text key)
    · rw [if_pos hk] at hentry
      cases hentry
      have hnot : n ∉ (Cell.dict es).nodes := hother.resolve_left fun hnot => hnot (by simp [Item.node?])
      have hsame : es.map (fun e => (f e.1, f e.2)) = es.map fun e => (g e.1, g e.2) := by
        refine List.map_congr_left fun e he => ?_
        have hboth : ∀ i ∈ [e.1, e.2], f i = g i := by
          intro i hi
          have hmem : i ∈ (Cell.dict es).items := List.mem_flatMap.2 ⟨e, he, hi⟩
          refine hrest i hmem fun heq => hnot (Cell.mem_nodes.2 ?_)
          rwa [heq] at hmem
        rw [hboth e.1 (by simp), hboth e.2 (by simp)]
      rw [hsame, hk' (by rw [hk]; simp), (hg k).2 hk, Data.withEntry_cons_self]
    · rw [if_neg hk] at hentry
      have hmem : n ∈ (Cell.dict es).nodes :=
        Cell.mem_nodes.2 (List.mem_flatMap.2 ⟨_, entryAt?_mem hentry, by simp⟩)
      have hnot := hother.resolve_right fun hnot => hnot hmem
      rw [List.mem_filterMap] at hnot
      have hne : ∀ i ∈ [k, v], i ≠ .node n :=
        fun i hi heq => hnot ⟨i, hi, Item.node?_eq_some.2 heq⟩
      rw [ih hentry hnodup' hrest, hk' (hne k (by simp)), hv' (hne v (by simp)),
        Data.withEntry_cons_of_ne fun he => hk ((hg k).1 he)]

end Entries

/-! ### Stores after the override -/

namespace Store

variable {s t : Store} {P : Nat → Prop} {f : Nat → Nat} {n : Nat} {i j : Item}

/-- the item is in the part of a store that was carried over from another -/
def IsCarried (P : Nat → Prop) (f : Nat → Nat) (j : Item) : Prop :=
  ∃ i : Item, i.Within P ∧ j = i.rename f

theorem isCarried_scalar (x : Scalar) : IsCarried P f (.scalar x) := ⟨.scalar x, trivial, rfl⟩

theorem not_isCarried (hn : ∀ m, P m → f m ≠ n) : ¬ IsCarried P f (.node n) := by
  rintro ⟨i, hi, hrename⟩
  cases i with
  | scalar x => cases hrename
  | node m =>
    cases hrename
    exact hn m hi rfl

theorem Carries.isCarried_of_holds (h : s.Carries t P f) (hi : IsCarried P f i) (hhold : t.Holds i j) :
    IsCarried P f j := by
  obtain ⟨i, hi, rfl⟩ := hi
  obtain ⟨n, cell, hn, hcell, hj⟩ := hhold
  cases i with
  | scalar x => cases hn
  | node m =>
    cases hn
    obtain ⟨cell', hcell', hitems⟩ := h.closed.exists_cell m hi
    rw [h.cell_eq m hi, hcell'] at hcell
    cases hcell
    rw [Cell.items_rename] at hj
    obtain ⟨i, hmem, rfl⟩ := List.mem_map.1 hj
    exact ⟨i, hitems i hmem, rfl⟩

/-- a node that is not carried over reads as its cell does, if what it holds is carried over -/
theorem Carries.read_beside (h : s.Carries t P f) (ht : t.Sound) (hn : ∀ k, P k → f k ≠ n) {cell : Cell}
    (hcell : t.cells[n]? = some cell) (hitems : ∀ i ∈ cell.items, IsCarried P f i) :
    t.read (.node n) = cell.readWith t.read :=
  ht.read_node hcell fun i hi =>
    not_reaches_of_closed (fun _ _ => h.isCarried_of_holds) (hitems i hi) (not_isCarried hn)

/-- and so does one that holds a node of that kind too -/
theorem Carries.read_over (h : s.Carries t P f) (ht : t.Sound) {m : Nat} (hm : ∀ k, P k → f k ≠ m)
    (hne : n ≠ m) (hinner : ∀ i, t.Holds (.node n) i → IsCarried P f i) {cell : Cell}
    (hcell : t.cells[m]? = some cell) (hitems : ∀ i ∈ cell.items, IsCarried P f i ∨ i = .node n) :
    t.read (.node m) = cell.readWith t.read := by
  refine ht.read_node hcell fun i hi => ?_
  refine not_reaches_of_closed (C := fun i => IsCarried P f i ∨ i = .node n) ?_ (hitems i hi) ?_
  · rintro i j (hi | rfl) hhold
    · exact .inl (h.isCarried_of_holds hi hhold)
    · exact .inl (hinner j hhold)
  · rintro (hcarried | heq)
    · exact not_isCarried hm hcarried
    · cases heq
      exact hne rfl

section

variable {es : List (Item × Item)} (hes : ∀ i ∈ (Cell.dict es).items, i.Within P)
include hes

/-- the entries of a mapping, carried over -/
theorem isCarried_of_mem_map :
    ∀ i ∈ (Cell.dict (es.map fun e => (e.1.rename f, e.2.rename f))).items, IsCarried P f i := by
  intro i hi
  have hmap := (Cell.dict es).items_rename f
  rw [Cell.rename] at hmap
  rw [hmap] at hi
  obtain ⟨j, hj, rfl⟩ := List.mem_map.1 hi
  exact ⟨j, hes j hj, rfl⟩

theorem Carries.map_read (h : s.Carries t P f) :
    (es.map fun e => (e.1.rename f, e.2.rename f)).map (fun e => (t.read e.1, t.read e.2)) =
      es.map fun e => (s.read e.1, s.read e.2) := by
  rw [List.map_map]
  refine List.map_congr_left fun e he => ?_
  have hboth : ∀ i ∈ [e.1, e.2], t.read (i.rename f) = s.read i :=
    fun i hi => h.read_rename (hes i (List.mem_flatMap.2 ⟨e, he, hi⟩))
  exact Prod.ext (hboth e.1 (by simp)) (hboth e.2 (by simp))

end

/-- an item reads as a text only if it is that text -/
theorem read_eq_text (s : Store) (x : String) (i : Item) : s.read i = .text x ↔ i = .scalar (.text x) := by
  constructor
  · exact readFrom_eq_text
  · rintro rfl
    rfl

/-- entries that are put one after the other read as data that is put so -/
theorem map_foldl_putEntry {α : Type} (s : Store) (key : α → String) (value : α → Item) (as : List α)
    (es : List (Item × Item)) :
    (as.foldl (fun es a => putEntry (key a) (value a) es) es).map (fun e => (s.read e.1, s.read e.2)) =
      (as.map fun a => (key a, s.read (value a))).foldl (fun es e => Data.withEntry e.1 e.2 es)
        (es.map fun e => (s.read e.1, s.read e.2)) := by
  induction as generalizing es with
  | nil => rfl
  | cons a as ih =>
    rw [List.foldl_cons, ih, map_putEntry (s.read_eq_text (key a)), List.map_cons, List.foldl_cons]

theorem Sound.twin (hs : s.Sound) : s.twin.Sound := by
  have hsize : s.twin.cells.size = s.cells.size + s.cells.size := by simp [Store.twin]
  refine sound_iff.2 fun n cell hcell i hi => ?_
  rw [hsize]
  rw [Store.twin, Array.getElem?_append] at hcell
  split at hcell
  · exact (sound_iff.1 hs n cell hcell i hi).mono fun m hm => Nat.lt_add_right _ hm
  · rw [Array.getElem?_map] at hcell
    obtain ⟨cell', hcell', rfl⟩ := Option.map_eq_some_iff.1 hcell
    rw [Cell.items_rename] at hi
    obtain ⟨j, hj, rfl⟩ := List.mem_map.1 hi
    have hwithin := sound_iff.1 hs _ cell' hcell' j hj
    cases j with
    | scalar x => trivial
    | node m => exact Nat.add_lt_add_right hwithin _

theorem Sound.push (hs : s.Sound) {c : Cell} (hc : ∀ i ∈ c.items, i.Within (· < s.cells.size)) :
    (s.push c).1.Sound :=
  (@Grows.push s s c.items ⟨Nat.le_refl _, fun _ _ => rfl, id, hc⟩ c rfl).sound hs

theorem Sound.put (hs : s.Sound) {key : String} {value : Item} (hvalue : value.Within (· < s.cells.size)) :
    (s.put n key value).Sound := by
  unfold Store.put
  split
  · exact hs
  · rename_i es hes
    refine hs.setIfInBounds (fun i hi => ?_) n
    rcases items_putEntry i hi with rfl | rfl | hi
    · trivial
    · exact hvalue
    · exact sound_iff.1 hs n _ (entries?_eq_some.1 hes) i hi

end Store

namespace Values

variable {v w : Values} {ns : String} {g : Nat}

theorem IsFresh.sound (hv : v.IsSound) (h : v.IsFresh ns w) : w.store.Sound := by
  rw [h.store_eq]
  refine Store.Sound.put (Store.Sound.put (hv.store.twin.push (by simp [Cell.items])) ?_) trivial
  change v.store.twin.cells.size < (v.store.twin.cells.push _).size
  rw [Array.size_push]
  exact Nat.lt_succ_self _

theorem IsChanged.sound (hv : v.IsSound) (h : v.IsChanged ns g w) : w.store.Sound := by
  rw [h.store_eq]
  exact hv.store.twin.put trivial

/-- the root reads as its entries do -/
theorem toData_eq (hv : v.IsSound) {es : List (Item × Item)} (hes : v.store.entries? v.root = some es) :
    v.toData = .dict (es.map fun e => (v.store.read e.1, v.store.read e.2)) :=
  have hcell := Store.entries?_eq_some.1 hes
  hv.store.read_node hcell fun _ hi => not_reaches_root_of_holds hv (.of_mem hcell hi)

/-- what stands under a key at the top -/
theorem lookup?_toData (hv : v.IsSound) {es : List (Data × Data)} (hes : v.toData = .dict es) {key : String}
    (hkey : pathKeys key = [key]) : Data.lookup? key es = v.valueAt? key := by
  obtain ⟨top, htop⟩ := hv.root
  cases hes.symm.trans (toData_eq hv htop)
  rw [lookup?_map (v.store.read_eq_text key), valueAt?, get?_eq_child? hkey, Store.child?, htop]
  rfl

/-- the new mapping holds no nodes -/
theorem IsFresh.isCarried_of_holds (hv : v.IsSound) (h : v.IsFresh ns w) {P : Nat → Prop} {f : Nat → Nat}
    {i : Item} (hi : w.store.Holds (.node v.store.twin.cells.size) i) : Store.IsCarried P f i := by
  have hmem := hi.mem_items (Store.entries?_eq_some.1 (h.entries?_eq hv).2)
  simp only [Cell.items, List.flatMap_cons, List.flatMap_nil, List.append_nil, List.mem_cons,
    List.not_mem_nil, or_false] at hmem
  rcases hmem with rfl | rfl <;> exact Store.isCarried_scalar _

theorem IsFresh.read_global (hv : v.IsSound) (h : v.IsFresh ns w) :
    w.store.read (.node v.store.twin.cells.size) = .object [("istioNamespace", .text ns)] := by
  have hcell := Store.entries?_eq_some.1 (h.entries?_eq hv).2
  have hsize := IsFresh.size_twin v
  have hnew : ∀ n, v.store.Misses v.root n → n + v.store.cells.size ≠ v.store.twin.cells.size := by
    rintro n ⟨hn, -⟩
    omega
  rw [(h.doubles.carries_misses hv.store).read_beside (h.sound hv) hnew hcell fun i hi =>
    h.isCarried_of_holds hv (.of_mem hcell hi)]
  rfl

theorem IsFresh.toData_eq (hv : v.IsSound) (h : v.IsFresh ns w) {es : List (Item × Item)}
    (hes : v.store.entries? v.root = some es) :
    w.toData = .dict (Data.withEntry "global" (.object [("istioNamespace", .text ns)])
      (es.map fun e => (v.store.read e.1, v.store.read e.2))) := by
  have hcarries := h.doubles.carries_misses hv.store
  obtain ⟨⟨es', hes', hroot⟩, -⟩ := h.entries?_eq hv
  cases hes.symm.trans hes'
  have hcell := Store.entries?_eq_some.1 hes
  have hitems : ∀ i ∈ (Cell.dict es).items, i.Within (v.store.Misses v.root) := fun i hi =>
    Store.within_misses (Store.sound_iff.1 hv.store _ _ hcell i hi)
      (not_reaches_root_of_holds hv (.of_mem hcell hi))
  have hcopy : ∀ n, v.store.Misses v.root n → n + v.store.cells.size ≠ w.root := by
    intro n hn heq
    rw [h.root_eq] at heq
    exact hn.ne .refl (Nat.add_right_cancel heq)
  have hapart : v.store.twin.cells.size ≠ w.root := by
    have hsize := IsFresh.size_twin v
    have hlt := hv.root_lt
    rw [h.root_eq]
    omega
  have htop : w.toData = (Cell.dict (putEntry "global" (.node v.store.twin.cells.size)
      (es.map fun e => (e.1.rename (· + v.store.cells.size), e.2.rename (· + v.store.cells.size))))).readWith
        w.store.read := by
    refine hcarries.read_over (h.sound hv) hcopy hapart (fun i hi => h.isCarried_of_holds hv hi)
      (Store.entries?_eq_some.1 hroot) fun i hi => ?_
    rcases Store.items_putEntry i hi with rfl | rfl | hi
    · exact .inl (Store.isCarried_scalar _)
    · exact .inr rfl
    · exact .inl (Store.isCarried_of_mem_map hitems i hi)
  rw [htop, Cell.readWith, map_putEntry (w.store.read_eq_text "global"), h.read_global hv,
    hcarries.map_read hitems]

/-- what the root holds beside the mapping at `global` does not reach it -/
theorem IsTree.not_reaches_global (hv : v.IsSound) (ht : v.IsTree) {cell : Cell}
    (hcell : v.store.cells[v.root]? = some cell) (hg : .node g ∈ cell.items) {i : Item} (hi : i ∈ cell.items)
    (hne : i ≠ .node g) : ¬ v.store.Reaches i (.node g) := by
  intro hreach
  rcases Relation.ReflTransGen.cases_tail hreach with he | ⟨k, hk, hhold⟩
  · exact hne he.symm
  · have hroot := ht.holder_eq .refl (.head (.of_mem hcell hi) hk) (.of_mem hcell hg) hhold
    rw [← hroot] at hk
    exact not_reaches_root_of_holds hv (.of_mem hcell hi) hk

namespace IsChanged

variable (hv : v.IsSound) (ht : v.IsTree) (h : v.IsChanged ns g w)
include hv h

theorem holds_global : v.store.Holds (.node v.root) (.node g) := by
  obtain ⟨es, hes⟩ := hv.root
  have hmapping := h.mapping
  rw [get?_global, Store.child?, hes] at hmapping
  exact .of_mem (Store.entries?_eq_some.1 hes) (List.mem_flatMap.2 ⟨_, entryAt?_mem hmapping, by simp⟩)

include ht

/-- the mapping at `global` holds nothing that reaches it -/
theorem within_misses {gs : List (Item × Item)} (hgs : v.store.entries? g = some gs) :
    ∀ i ∈ (Cell.dict gs).items, i.Within (v.store.Misses g) := by
  have hcell := Store.entries?_eq_some.1 hgs
  intro i hi
  exact Store.within_misses (Store.sound_iff.1 hv.store _ _ hcell i hi)
    (ht.not_reaches_self hv (.single (h.holds_global hv)) (.of_mem hcell hi))

/-- what the mapping that took the namespace holds is the namespace or was carried over -/
theorem isCarried_of_holds {i : Item} (hi : w.store.Holds (.node (g + v.store.cells.size)) i) :
    Store.IsCarried (v.store.Misses g) (· + v.store.cells.size) i := by
  obtain ⟨gs, hgs, hcopy⟩ := (h.alters hv).changed
  rcases Store.items_putEntry i (hi.mem_items (Store.entries?_eq_some.1 hcopy)) with rfl | rfl | hi
  · exact Store.isCarried_scalar _
  · exact Store.isCarried_scalar _
  · exact Store.isCarried_of_mem_map (h.within_misses hv ht hgs) i hi

theorem read_global {gs : List (Item × Item)} (hgs : v.store.entries? g = some gs) :
    w.store.read (.node (g + v.store.cells.size)) =
      .dict (Data.withEntry "istioNamespace" (.text ns)
        (gs.map fun e => (v.store.read e.1, v.store.read e.2))) := by
  have hcarries := (h.alters hv).doubles.carries_misses hv.store
  obtain ⟨gs', hgs', hcopy⟩ := (h.alters hv).changed
  cases hgs.symm.trans hgs'
  have hcell := Store.entries?_eq_some.1 hcopy
  have hne : ∀ n, v.store.Misses g n → n + v.store.cells.size ≠ g + v.store.cells.size :=
    fun n hn heq => hn.ne .refl (Nat.add_right_cancel heq)
  rw [hcarries.read_beside (h.sound hv) hne hcell fun i hi =>
      h.isCarried_of_holds hv ht (.of_mem hcell hi),
    Cell.readWith, map_putEntry (w.store.read_eq_text "istioNamespace"),
    hcarries.map_read (h.within_misses hv ht hgs)]
  rfl

theorem toData_eq {es gs : List (Item × Item)} (hes : v.store.entries? v.root = some es)
    (hgs : v.store.entries? g = some gs) :
    w.toData = .dict (Data.withEntry "global"
      (.dict (Data.withEntry "istioNamespace" (.text ns)
        (gs.map fun e => (v.store.read e.1, v.store.read e.2))))
      (es.map fun e => (v.store.read e.1, v.store.read e.2))) := by
  have halters := h.alters hv
  have hcarries := halters.doubles.carries_misses hv.store
  have hcell := Store.entries?_eq_some.1 hes
  have hholds := h.holds_global hv
  have hentry : entryAt? "global" es = some (.node g) := by
    have hmapping := h.mapping
    rwa [get?_global, Store.child?, hes] at hmapping
  have hbeside : ∀ i ∈ (Cell.dict es).items, i ≠ .node g → i.Within (v.store.Misses g) := fun i hi hg =>
    Store.within_misses (Store.sound_iff.1 hv.store _ _ hcell i hi)
      (ht.not_reaches_global hv hcell (hholds.mem_items hcell) hi hg)
  have hroot : ∀ n, v.store.Misses g n → n + v.store.cells.size ≠ w.root := by
    intro n hn heq
    rw [h.root_eq] at heq
    exact hn.ne (.single hholds) (Nat.add_right_cancel heq)
  have hne : g ≠ v.root := ne_root_of_get?_global hv h.mapping
  have hapart : g + v.store.cells.size ≠ w.root := by
    rw [h.root_eq]
    exact fun heq => hne (Nat.add_right_cancel heq)
  have hcopied : w.store.cells[w.root]? = some ((Cell.dict es).rename (· + v.store.cells.size)) := by
    rw [h.root_eq, halters.doubles.copy_eq v.root hv.root_lt (Ne.symm hne), hcell]
    rfl
  have htop : w.toData =
      ((Cell.dict es).rename (· + v.store.cells.size)).readWith w.store.read := by
    refine hcarries.read_over (h.sound hv) hroot hapart (fun i hi => h.isCarried_of_holds hv ht hi)
      hcopied fun i hi => ?_
    rw [Cell.items_rename] at hi
    obtain ⟨j, hj, rfl⟩ := List.mem_map.1 hi
    by_cases hg : j = .node g
    · rw [hg]
      exact .inr rfl
    · exact .inl ⟨j, hbeside j hj hg, rfl⟩
  rw [htop, Cell.readWith_rename, ← h.read_global hv ht hgs]
  exact congrArg Data.dict (map_eq_withEntry (f := fun i => w.store.read (i.rename (· + v.store.cells.size)))
    (v.store.read_eq_text "global") hentry (ht.nodup .refl hcell)
    fun i hi hg => hcarries.read_rename (hbeside i hi hg))

end IsChanged

/-! ### The effective values as data -/

theorem override_eq_error (hv : v.IsSound) {i : Item} (hi : v.get? "global" = some i)
    (hnull : i ≠ .scalar .null) (hes : v.store.itemEntries? i = none) :
    v.override (.text ns) = .error (.ofKind "global" "mapping" (v.store.read i)) := by
  have hdoubles := v.store.doubles_twin
  have hcarries := hdoubles.carries_copy hv.store fun _ _ => trivial
  have hchild := child?_copy hv hdoubles "global"
  have hentries := hcarries.itemEntries?_rename (hv.within_get? hi)
  have hread := hcarries.read_rename (hv.within_get? hi)
  rw [← get?_global, hi, Option.map_some] at hchild
  rw [hes] at hentries
  have hadd : v.store.twin.add (.text ns) = (v.store.twin, .scalar (.text ns)) := rfl
  rw [override, set, pathKeys_namespacePath, copy]
  dsimp only
  rw [hadd]
  dsimp only
  rw [Store.setPath_of_other hchild (fun he => hnull (Item.rename_eq_scalar.1 he)) hentries, hread]

end Values

/-- Entries with the namespace put under `global`, where there must be a mapping, null or nothing. -/
def Data.withNamespace (ns : String) (es : List (Data × Data)) : Except Fault Data :=
  match lookup? "global" es with
  | none | some .null => .ok (.dict (withEntry "global" (.object [("istioNamespace", .text ns)]) es))
  | some (.dict gs) =>
    .ok (.dict (withEntry "global" (.dict (withEntry "istioNamespace" (.text ns) gs)) es))
  | some d => .error (.ofKind "global" "mapping" d)

namespace Values

variable {v : Values}

/-- What the effective values of a tree read as depends on what the values read as only. -/
theorem toData_override (hv : v.IsSound) (ht : v.IsTree) {es : List (Data × Data)} (hes : v.toData = .dict es)
    (ns : String) : (v.override (.text ns)).map toData = Data.withNamespace ns es := by
  obtain ⟨top, htop⟩ := hv.root
  have hlookup : Data.lookup? "global" es = v.valueAt? "global" := lookup?_toData hv hes (by decide)
  cases hes.symm.trans (toData_eq hv htop)
  unfold Data.withNamespace
  rw [hlookup, valueAt?]
  cases hoverride : v.override (.text ns) with
  | ok w =>
    rcases override_eq_ok hv hoverride with h | ⟨g, h⟩
    · have hfresh := h.toData_eq hv htop
      rcases h.absent with habsent | habsent
      · rw [habsent]
        exact congrArg Except.ok hfresh
      · rw [habsent]
        exact congrArg Except.ok hfresh
    · obtain ⟨gs, hgs⟩ := h.entries
      have hchanged := h.toData_eq hv ht htop hgs
      have hread : v.store.read (.node g) = .dict (gs.map fun e => (v.store.read e.1, v.store.read e.2)) :=
        ht.read_node hv (.single (h.holds_global hv)) (Store.entries?_eq_some.1 hgs)
      rw [h.mapping, Option.map_some, hread]
      exact congrArg Except.ok hchanged
  | error f =>
    have hallows : ¬ v.Allows "global" v.store.itemEntries? := by
      rw [← override_isOk hv (.text ns)]
      rintro ⟨w, hw⟩
      cases hw.symm.trans hoverride
    simp only [Allows, not_forall, not_or] at hallows
    obtain ⟨i, hi, hnull, hother⟩ := hallows
    have hentries : v.store.itemEntries? i = none := by simpa using hother
    cases (override_eq_error hv hi hnull hentries).symm.trans hoverride
    rw [hi, Option.map_some]
    -- nothing but null and mappings reads as they do
    cases i with
    | scalar x =>
      cases x with
      | null => exact absurd rfl hnull
      | _ => rfl
    | node n =>
      obtain ⟨cell, hcell, -⟩ := hv.store.exists_cell n (hv.within_get? hi)
      rw [Store.read, Store.readFrom_node_of_notMem hcell _ (List.not_mem_nil)]
      cases cell with
      | dict gs => cases (Store.itemEntries?_eq_some.2 ⟨n, rfl, hcell⟩).symm.trans hentries
      | _ => rfl

end Values

end MeshOperator
