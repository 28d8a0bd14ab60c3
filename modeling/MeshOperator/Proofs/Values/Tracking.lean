import MeshOperator.Proofs.Values.Effective

/-!
# Stores that are changed alike

A part of a store that is found in another one, with other numbers, is found there still after both are given
the same new nodes and a value is set in both at the same place. The new nodes get the next numbers in each
store, so the numbers can be told beforehand. Nothing else in the other store is changed.

* `Store.join`: a store with the nodes of another one after its own.
* `Store.add_join`: data is put into a store as its nodes are joined to it.
* `Store.Closed.within_of_reaches`, `Store.Carries.closed_image`: what a part of a store reaches is in it.
* `Store.Tracks`: a part of a store is found in another one, and the next nodes will be too.
* `Store.Follows`: what was done to one store was done to the other.
* `Store.Tracks.setPath`: setting a value in both.
* `Store.Carries.exists_tracks`: the numbers of the next nodes are free to choose.
-/

namespace MeshOperator

/-! ### Other numbers -/

theorem Item.rename_rename (f g : Nat → Nat) (i : Item) : (i.rename f).rename g = i.rename (g ∘ f) := by
  cases i <;> rfl

theorem Cell.rename_rename (f g : Nat → Nat) (c : Cell) : (c.rename f).rename g = c.rename (g ∘ f) := by
  cases c <;> simp [rename, Item.rename_rename, Function.comp_def]

theorem Item.rename_congr {P : Nat → Prop} {f g : Nat → Nat} {i : Item} (hi : i.Within P)
    (h : ∀ n, P n → f n = g n) : i.rename f = i.rename g := by
  cases i with
  | scalar x => rfl
  | node n => exact congrArg Item.node (h n hi)

theorem Cell.rename_congr {P : Nat → Prop} {f g : Nat → Nat} {c : Cell} (hc : ∀ i ∈ c.items, i.Within P)
    (h : ∀ n, P n → f n = g n) : c.rename f = c.rename g := by
  have hitem (i : Item) (hi : i ∈ c.items) : i.rename f = i.rename g := Item.rename_congr (hc i hi) h
  cases c with
  | dict es =>
    refine congrArg Cell.dict (List.map_congr_left fun e he => ?_)
    rw [hitem e.1 (List.mem_flatMap.2 ⟨e, he, by simp⟩), hitem e.2 (List.mem_flatMap.2 ⟨e, he, by simp⟩)]
  | list is => exact congrArg Cell.list (List.map_congr_left hitem)
  | tuple is => exact congrArg Cell.tuple (List.map_congr_left hitem)
  | set is => exact congrArg Cell.set (List.map_congr_left hitem)
  | date d => rfl
  | moment m => rfl

theorem putEntry_rename (f : Nat → Nat) (key : String) (value : Item) (es : List (Item × Item)) :
    putEntry key (value.rename f) (es.map fun e => (e.1.rename f, e.2.rename f)) =
      (putEntry key value es).map fun e => (e.1.rename f, e.2.rename f) := by
  induction es with
  | nil => rfl
  | cons e es ih =>
    obtain ⟨k, v⟩ := e
    by_cases hk : k = .scalar (.text key)
    · subst hk
      simp [putEntry, Item.rename]
    · have hk' : ¬ k.rename f = .scalar (.text key) := fun he => hk (Item.rename_eq_scalar.1 he)
      simp [putEntry, hk, hk', ih]

namespace Store

variable {s t s' t' s'' t'' u : Store} {k n m : Nat} {f : Nat → Nat} {value : Item} {key : String}
variable {P : Nat → Prop}

/-! ### Joining stores -/

/-- the store with the nodes of another one after its own -/
def join (s u : Store) : Store := ⟨s.cells ++ u.cells.map (Cell.rename (· + s.cells.size))⟩

@[simp] theorem size_join (s u : Store) : (s.join u).cells.size = s.cells.size + u.cells.size := by
  simp [join]

theorem join_empty (s : Store) : s.join empty = s := by
  simp [join, empty]

/-- a node is joined as it is pushed, and its number is moved -/
theorem push_join (s t : Store) (c : Cell) :
    (((s.join t).push (c.rename (· + s.cells.size))).1,
      Item.node ((s.join t).push (c.rename (· + s.cells.size))).2) =
      (s.join (t.push c).1, (Item.node (t.push c).2).rename (· + s.cells.size)) := by
  refine Prod.ext (congrArg Store.mk ?_) (congrArg Item.node ?_)
  · rw [push, Array.map_push, Array.append_push]
    rfl
  · exact (size_join s t).trans (Nat.add_comm ..)

mutual

/-- data is put into a store as its nodes are joined to it -/
theorem add_join (s t : Store) : (d : Data) → (s.join t).add d =
    (s.join (t.add d).1, (t.add d).2.rename (· + s.cells.size))
  | .scalar x => rfl
  | .date d => push_join s t (.date d)
  | .moment m => push_join s t (.moment m)
  | .list ds => by
    rw [add, addItems_join s t ds]
    exact push_join s (t.addItems ds).1 (.list (t.addItems ds).2)
  | .tuple ds => by
    rw [add, addItems_join s t ds]
    exact push_join s (t.addItems ds).1 (.tuple (t.addItems ds).2)
  | .set ds => by
    rw [add, addItems_join s t ds]
    exact push_join s (t.addItems ds).1 (.set (t.addItems ds).2)
  | .dict es => by
    rw [add, addEntries_join s t es]
    exact push_join s (t.addEntries es).1 (.dict (t.addEntries es).2)
  | .again _ => rfl

theorem addItems_join (s t : Store) : (ds : List Data) → (s.join t).addItems ds =
    (s.join (t.addItems ds).1, (t.addItems ds).2.map (Item.rename (· + s.cells.size)))
  | [] => rfl
  | d :: ds => by
    simp only [addItems, add_join s t d, addItems_join s (t.add d).1 ds, List.map_cons]

theorem addEntries_join (s t : Store) : (es : List (Data × Data)) → (s.join t).addEntries es =
    (s.join (t.addEntries es).1,
      (t.addEntries es).2.map fun e => (e.1.rename (· + s.cells.size), e.2.rename (· + s.cells.size)))
  | [] => rfl
  | (k, v) :: es => by
    simp only [addEntries, add_join s t k, add_join s (t.add k).1 v,
      addEntries_join s ((t.add k).1.add v).1 es, List.map_cons]

end

/-! ### Closed parts -/

/-- from items of a closed part one comes to no others -/
theorem Closed.within_of_reaches (h : s.Closed P) {i j : Item} (hi : i.Within P) (hreach : s.Reaches i j) :
    j.Within P := by
  by_contra hj
  refine not_reaches_of_closed (fun i j hi hhold => ?_) hi hj hreach
  obtain ⟨n, c, rfl, hc, hj⟩ := hhold
  obtain ⟨c', hc', hitems⟩ := h.exists_cell n hi
  cases hc.symm.trans hc'
  exact hitems j hj

/-- the nodes that are found in another store hold no others there -/
theorem Carries.closed_image (h : s.Carries t P f) : t.Closed fun m => ∃ n, P n ∧ f n = m := by
  refine ⟨fun m hm => ?_⟩
  obtain ⟨n, hn, rfl⟩ := hm
  obtain ⟨c, hc, hitems⟩ := h.closed.exists_cell n hn
  refine ⟨c.rename f, by rw [h.cell_eq n hn, hc, Option.map_some], fun i hi => ?_⟩
  rw [Cell.items_rename] at hi
  obtain ⟨j, hj, rfl⟩ := List.mem_map.1 hi
  cases j with
  | scalar x => trivial
  | node m => exact ⟨m, hitems _ hj, rfl⟩

/-! ### The nodes from a number on -/

/-- The node is there, under the number `k` or a later one. -/
def From (s : Store) (k n : Nat) : Prop := k ≤ n ∧ n < s.cells.size

theorem closed_from : s.Closed (s.From k) ↔
    ∀ n c, k ≤ n → s.cells[n]? = some c → ∀ i ∈ c.items, i.Within (s.From k) := by
  constructor
  · intro h n c hn hc
    obtain ⟨c', hc', hitems⟩ := h.exists_cell n ⟨hn, (Array.getElem?_eq_some_iff.1 hc).1⟩
    cases hc.symm.trans hc'
    exact hitems
  · refine fun h => ⟨fun n hn => ?_⟩
    have hlt := hn.2
    have hc : s.cells[n]? = some s.cells[n] := Array.getElem?_eq_some_iff.2 ⟨hlt, rfl⟩
    exact ⟨_, hc, h n _ hn.1 hc⟩

theorem put_of_entries?_none (h : s.entries? n = none) (key : String) (value : Item) : s.put n key value = s := by
  rw [Store.put, h]

theorem Closed.put (h : s.Closed (s.From k)) (hvalue : value.Within (s.From k)) (hn : k ≤ n) (key : String) :
    (s.put n key value).Closed ((s.put n key value).From k) := by
  rw [closed_from] at h ⊢
  intro m c hm hc
  have hfrom : (s.put n key value).From k = s.From k := by
    funext m
    rw [From, size_put, From]
  rw [hfrom]
  by_cases hne : m = n
  · subst hne
    unfold Store.put at hc
    split at hc
    · exact h m c hm hc
    · rename_i es hes
      rw [Array.getElem?_setIfInBounds_self_of_lt (lt_of_entries? hes)] at hc
      cases hc
      intro i hi
      rcases items_putEntry i hi with rfl | rfl | hi
      · trivial
      · exact hvalue
      · exact h m _ hm (entries?_eq_some.1 hes) i hi
  · rw [getElem?_put_of_ne hne] at hc
    exact h m c hm hc

/-! ### A part of a store that is found in another one -/

/-- The nodes of `s` from `k` on are in `t` too, with other numbers, and so are those that each store is given
next. -/
structure Tracks (s t : Store) (k : Nat) (f : Nat → Nat) : Prop where
  carries : s.Carries t (s.From k) f
  ahead : ∀ j, f (s.cells.size + j) = t.cells.size + j

/-- From `s` and `t` one comes to `s'` and `t'`, where the part is found again, and `t'` holds the rest of `t`. -/
structure Follows (s t s' t' : Store) (k : Nat) (f : Nat → Nat) : Prop where
  tracks : s'.Tracks t' k f
  size_le : s.cells.size ≤ s'.cells.size
  spares : ∀ n < t.cells.size, (∀ m, s.From k m → f m ≠ n) → t'.cells[n]? = t.cells[n]?

/-- the numbers of the nodes that are found are those of nodes that are there -/
theorem Carries.lt_size (h : s.Carries t P f) (hn : P n) : f n < t.cells.size := by
  obtain ⟨c, hc, -⟩ := h.closed.exists_cell n hn
  have hcell := h.cell_eq n hn
  rw [hc] at hcell
  exact (Array.getElem?_eq_some_iff.1 hcell).1

theorem From.mono (hn : s.From k n) (hle : s.cells.size ≤ s'.cells.size) : s'.From k n :=
  ⟨hn.1, Nat.lt_of_lt_of_le hn.2 hle⟩

theorem Carries.entries?_rename (h : s.Carries t P f) (hn : P n) : t.entries? (f n) =
    (s.entries? n).map (List.map fun e => (e.1.rename f, e.2.rename f)) :=
  h.itemEntries?_rename (i := .node n) hn

theorem Carries.child?_rename (h : s.Carries t P f) (hn : P n) (key : String) :
    t.child? (f n) key = (s.child? n key).map (Item.rename f) := by
  rw [child?, child?, h.entries?_rename hn]
  cases s.entries? n with
  | none => rfl
  | some es => exact entryAt?_rename f key es

namespace Tracks

variable (h : s.Tracks t k f)
include h

theorem apply_size : f s.cells.size = t.cells.size := h.ahead 0

theorem refl : s.Follows t s t k f := ⟨h, Nat.le_refl _, fun _ _ _ => rfl⟩

/-- both stores have grown by as many nodes -/
theorem size_eq (h' : s'.Tracks t' k f) (hle : s.cells.size ≤ s'.cells.size) :
    t'.cells.size = t.cells.size + (s'.cells.size - s.cells.size) := by
  rw [← h'.apply_size, ← h.ahead, Nat.add_sub_cancel' hle]

theorem trans (h' : s.Follows t s' t' k f) (h'' : s'.Follows t' s'' t'' k f) : s.Follows t s'' t'' k f := by
  have hsize := h.size_eq h'.tracks h'.size_le
  refine ⟨h''.tracks, Nat.le_trans h'.size_le h''.size_le, fun n hn hspare => ?_⟩
  rw [h''.spares n (by omega) fun m hm => ?_, h'.spares n hn hspare]
  by_cases hlt : m < s.cells.size
  · exact hspare m ⟨hm.1, hlt⟩
  · -- the nodes that were made in between got later numbers
    obtain ⟨j, rfl⟩ := Nat.exists_eq_add_of_le (Nat.not_lt.1 hlt)
    rw [h.ahead]
    omega

/-- both are given the same nodes -/
theorem append {cs ds : Array Cell} (hds : ds = cs.map (Cell.rename f))
    (hcs : ∀ (j : Nat) (c : Cell), cs[j]? = some c → ∀ i ∈ c.items,
      i.Within fun n => k ≤ n ∧ n < s.cells.size + cs.size) :
    s.Follows t ⟨s.cells ++ cs⟩ ⟨t.cells ++ ds⟩ k f := by
  subst hds
  have hsize : (s.cells ++ cs).size = s.cells.size + cs.size := Array.size_append
  have hsize' : (t.cells ++ cs.map (Cell.rename f)).size = t.cells.size + cs.size := by simp
  refine ⟨⟨⟨closed_from.2 fun n c hn hc i hi => ?_, h.carries.injective, fun n hn => ?_, ?_⟩, fun j => ?_⟩, ?_,
    fun n hn _ => Array.getElem?_append_left hn⟩
  · rw [Array.getElem?_append] at hc
    split at hc
    · refine (closed_from.1 h.carries.closed n c hn hc i hi).mono fun m hm => ⟨hm.1, ?_⟩
      exact Nat.lt_of_lt_of_le hm.2 (hsize ▸ Nat.le_add_right ..)
    · exact (hcs _ c hc i hi).mono fun m hm => ⟨hm.1, Nat.lt_of_lt_of_eq hm.2 hsize.symm⟩
  · by_cases hlt : n < s.cells.size
    · rw [Array.getElem?_append_left hlt, Array.getElem?_append_left (h.carries.lt_size ⟨hn.1, hlt⟩),
        h.carries.cell_eq n ⟨hn.1, hlt⟩]
    · obtain ⟨j, rfl⟩ := Nat.exists_eq_add_of_le (Nat.not_lt.1 hlt)
      rw [h.ahead, Array.getElem?_append_right (Nat.le_add_right ..),
        Array.getElem?_append_right (Nat.le_add_right ..), Nat.add_sub_cancel_left, Nat.add_sub_cancel_left,
        Array.getElem?_map]
  · have hle := h.carries.size_le
    dsimp only
    omega
  · dsimp only
    rw [hsize, hsize', Nat.add_assoc, h.ahead, Nat.add_assoc]
  · dsimp only
    omega

theorem push_dict : s.Follows t (s.push (.dict [])).1 (t.push (.dict [])).1 k f := by
  have hsame : #[Cell.dict []] = #[Cell.dict []].map (Cell.rename f) := by simp [Cell.rename]
  have happend := h.append hsame fun j c hc i hi => ?_
  · rwa [← Array.push_eq_append, ← Array.push_eq_append] at happend
  · have hmem := Array.mem_of_getElem? hc
    cases Array.mem_singleton.1 hmem
    cases hi

theorem join (hk : k ≤ s.cells.size) (hu : u.Sound) : s.Follows t (s.join u) (t.join u) k f := by
  refine h.append ?_ fun j c hc i hi => ?_
  · refine Array.ext_getElem? fun j => ?_
    simp only [Array.getElem?_map, Option.map_map]
    refine Option.map_congr fun c hc => ?_
    have hitems := sound_iff.1 hu j c hc
    rw [Function.comp, Cell.rename_rename]
    refine Cell.rename_congr hitems fun n _ => ?_
    rw [Function.comp, Nat.add_comm n, Nat.add_comm n, h.ahead]
  · rw [Array.getElem?_map] at hc
    obtain ⟨c', hc', rfl⟩ := Option.map_eq_some_iff.1 hc
    rw [Cell.items_rename] at hi
    obtain ⟨i', hi', rfl⟩ := List.mem_map.1 hi
    have hwithin := sound_iff.1 hu j c' hc' i' hi'
    cases i' with
    | scalar x => trivial
    | node n =>
      rw [Array.size_map]
      have hn : n < u.cells.size := hwithin
      rw [Item.rename, Item.Within]
      omega

/-- the same entry is put into a node of both -/
theorem put (hn : s.From k n) (hvalue : value.Within (s.From k)) (key : String) :
    s.Follows t (s.put n key value) (t.put (f n) key (value.rename f)) k f := by
  have hsize := size_put s n key value
  refine ⟨⟨⟨h.carries.closed.put hvalue hn.1 key, h.carries.injective, fun m hm => ?_, ?_⟩, fun j => ?_⟩,
    Nat.le_of_eq hsize.symm, fun m _ hspare => getElem?_put_of_ne (Ne.symm (hspare n hn)) ..⟩
  · replace hm : s.From k m := ⟨hm.1, Nat.lt_of_lt_of_eq hm.2 hsize⟩
    by_cases hne : m = n
    · subst hne
      have hentries := h.carries.entries?_rename hm
      cases hes : s.entries? m with
      | none =>
        rw [hes, Option.map_none] at hentries
        rw [put_of_entries?_none hes, put_of_entries?_none hentries]
        exact h.carries.cell_eq m hm
      | some es =>
        rw [hes, Option.map_some] at hentries
        rw [entries?_eq_some.1 (entries?_put_self hes), entries?_eq_some.1 (entries?_put_self hentries),
          putEntry_rename]
        rfl
    · rw [getElem?_put_of_ne hne, getElem?_put_of_ne (h.carries.injective.ne hne), h.carries.cell_eq m hm]
  · rw [hsize, size_put]
    exact h.carries.size_le
  · rw [hsize, size_put]
    exact h.ahead j

/-- both are given a new mapping at the same place -/
theorem putNew (hn : s.From k n) (key : String) : s.Follows t (s.putNew n key) (t.putNew (f n) key) k f := by
  have hpush := h.push_dict
  have hsize : (s.push (.dict [])).1.cells.size = s.cells.size + 1 := Array.size_push ..
  have hlast : (Item.node s.cells.size).Within ((s.push (.dict [])).1.From k) :=
    ⟨Nat.le_trans hn.1 (Nat.le_of_lt hn.2), by omega⟩
  have hput := hpush.tracks.put (hn.mono hpush.size_le) hlast key
  rw [Item.rename, h.apply_size] at hput
  exact h.trans hpush hput

/-- numbers of nodes that are there are given to nodes that are there -/
theorem apply_lt (hlt : ∀ n < s.cells.size, f n < t.cells.size) (h' : s.Follows t s' t' k f) :
    ∀ n < s'.cells.size, f n < t'.cells.size := by
  intro n hn
  have hsize := h.size_eq h'.tracks h'.size_le
  by_cases hold : n < s.cells.size
  · have hf := hlt n hold
    omega
  · obtain ⟨j, rfl⟩ := Nat.exists_eq_add_of_le (Nat.not_lt.1 hold)
    rw [h.ahead]
    omega

/-! ### Setting a value in both -/

/-- A value is set in both at the same place, or stopped by the same. -/
theorem setPath (hn : s.From k n) (hvalue : value.Within (s.From k)) (walked keys : List String) :
    (t.setPath (f n) walked keys (value.rename f)).2 = (s.setPath n walked keys value).2 ∧
    s.Follows t (s.setPath n walked keys value).1 (t.setPath (f n) walked keys (value.rename f)).1 k f := by
  induction keys generalizing s t n walked with
  | nil => exact ⟨rfl, h.refl⟩
  | cons key keys ih =>
    by_cases hkeys : keys = []
    · subst hkeys
      exact ⟨rfl, h.put hn hvalue key⟩
    · have hchild := h.carries.child?_rename hn key
      by_cases hnew : s.child? n key = none ∨ s.child? n key = some (.scalar .null)
      · have hnew' : t.child? (f n) key = none ∨ t.child? (f n) key = some (.scalar .null) := by
          rcases hnew with hnew | hnew
          · exact .inl (by rw [hchild, hnew]; rfl)
          · exact .inr (by rw [hchild, hnew]; rfl)
        have hput := h.putNew hn key
        have hsize : (s.putNew n key).cells.size = s.cells.size + 1 := by simp [Store.putNew, push, size_put]
        have hlast : (s.putNew n key).From k s.cells.size :=
          ⟨Nat.le_trans hn.1 (Nat.le_of_lt hn.2), by omega⟩
        have hrest := ih hput.tracks hlast (hvalue.mono fun m hm => hm.mono hput.size_le) (walked ++ [key])
        rw [setPath_of_new hkeys hnew, setPath_of_new hkeys hnew', ← h.apply_size]
        exact ⟨hrest.1, h.trans hput hrest.2⟩
      · rw [not_or] at hnew
        obtain ⟨i, hi⟩ := Option.ne_none_iff_exists'.1 hnew.1
        have hnull : i ≠ .scalar .null := fun he => hnew.2 (he ▸ hi)
        have hi' : t.child? (f n) key = some (i.rename f) := by rw [hchild, hi]; rfl
        obtain ⟨es, hes, hentry⟩ := Option.bind_eq_some_iff.1 hi
        have hwithin : i.Within (s.From k) := h.carries.closed.within_entryAt? (i := .node n) hn hes hentry
        have hentries := h.carries.itemEntries?_rename hwithin
        cases hmapping : s.itemEntries? i with
        | none =>
          rw [hmapping, Option.map_none] at hentries
          have hnull' : i.rename f ≠ .scalar .null := fun he => hnull (Item.rename_eq_scalar.1 he)
          rw [setPath_of_otherwise hkeys hi hnull hmapping, setPath_of_otherwise hkeys hi' hnull' hentries,
            h.carries.read_rename hwithin]
          exact ⟨rfl, h.refl⟩
        | some es' =>
          rw [hmapping, Option.map_some] at hentries
          obtain ⟨m, rfl, -⟩ := itemEntries?_eq_some.1 hmapping
          rw [setPath_of_node hkeys hi hmapping, setPath_of_node hkeys hi' hentries]
          exact ih h hwithin hvalue (walked ++ [key])

end Tracks

/-! ### The numbers of the next nodes -/

/-- the numbers of the nodes that are made next are free to choose -/
theorem Carries.exists_tracks (h : s.Carries t (s.From k) f) (hlt : ∀ n < s.cells.size, f n < t.cells.size) :
    ∃ g, s.Tracks t k g ∧ ∀ n < s.cells.size, g n = f n := by
  let g (n : Nat) : Nat := if n < s.cells.size then f n else t.cells.size + (n - s.cells.size)
  have hold (n : Nat) (hn : n < s.cells.size) : g n = f n := if_pos hn
  have hnew (j : Nat) : g (s.cells.size + j) = t.cells.size + j := by
    have hge : ¬ s.cells.size + j < s.cells.size := by omega
    rw [show g (s.cells.size + j) = _ from if_neg hge, Nat.add_sub_cancel_left]
  refine ⟨g, ⟨⟨h.closed, fun a b hab => ?_, fun n hn => ?_, h.size_le⟩, hnew⟩, hold⟩
  · -- old nodes keep their numbers, and new ones get numbers beyond those
    rcases Nat.lt_or_ge a s.cells.size with ha | ha <;> rcases Nat.lt_or_ge b s.cells.size with hb | hb
    · rw [hold a ha, hold b hb] at hab
      exact h.injective hab
    · obtain ⟨j, rfl⟩ := Nat.exists_eq_add_of_le hb
      have hfa := hlt a ha
      rw [hold a ha, hnew] at hab
      omega
    · obtain ⟨j, rfl⟩ := Nat.exists_eq_add_of_le ha
      have hfb := hlt b hb
      rw [hold b hb, hnew] at hab
      omega
    · obtain ⟨i, rfl⟩ := Nat.exists_eq_add_of_le ha
      obtain ⟨j, rfl⟩ := Nat.exists_eq_add_of_le hb
      rw [hnew, hnew] at hab
      omega
  · rw [hold n hn.2, h.cell_eq n hn]
    obtain ⟨c, hc, hitems⟩ := h.closed.exists_cell n hn
    rw [hc, Option.map_some, Option.map_some]
    exact congrArg some (Cell.rename_congr hitems fun m hm => (hold m hm.2).symm)

end Store

end MeshOperator
