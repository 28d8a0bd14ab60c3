import MeshOperator.Proofs.Values.Building
import MeshOperator.Proofs.Values.Paths
import MeshOperator.Proofs.Values.Typed

/-!
# The nodes of overridden values

The override of the namespace copies all nodes and changes one of the copies: that of the mapping at
`global`, or of the root if nothing stands there. All nodes of the values that were given stay.

* `Store.Doubles`: a store with copies of its nodes, some of them changed.
* `Values.override_isOk`: when the namespace is overridden.
* `Values.override_eq_ok`: what that does to the nodes.
* `Values.get?_override_of_ne`: under the other keys of the root the effective values have copies.
-/

namespace MeshOperator

namespace Store

variable {s t u : Store} {P Q : Nat → Prop} {n m : Nat} {key : String} {value : Item}

/-! ### Putting an entry into a node -/

theorem size_put (s : Store) (n : Nat) (key : String) (value : Item) :
    (s.put n key value).cells.size = s.cells.size := by
  unfold put
  split
  · rfl
  · exact Array.size_setIfInBounds

theorem getElem?_put_of_ne (h : m ≠ n) (key : String) (value : Item) :
    (s.put n key value).cells[m]? = s.cells[m]? := by
  unfold put
  split
  · rfl
  · exact Array.getElem?_setIfInBounds_ne (Ne.symm h)

theorem entries?_put_self {es : List (Item × Item)} (h : s.entries? n = some es) :
    (s.put n key value).entries? n = some (putEntry key value es) := by
  rw [entries?_eq_some, put, h]
  have hlt := lt_of_entries? h
  exact Array.getElem?_setIfInBounds_self_of_lt hlt

theorem entries?_put_of_ne (h : m ≠ n) (key : String) (value : Item) :
    (s.put n key value).entries? m = s.entries? m := by
  rw [entries?, entries?, getElem?_put_of_ne h]

theorem put_of_entryAt? {es : List (Item × Item)} (h : s.entries? n = some es)
    (hentry : entryAt? key es = some value) : s.put n key value = s := by
  have hcell := entries?_eq_some.1 h
  obtain ⟨hlt, hget⟩ := Array.getElem?_eq_some_iff.1 hcell
  rw [put, h]
  dsimp only
  rw [putEntry_of_entryAt? hentry, ← hget, Array.setIfInBounds_def, dif_pos hlt, Array.set_getElem_self]

/-! ### Copies of nodes -/

/-- The store `t` has the nodes of `s`, and after them copies of those of which `P` holds. -/
structure Doubles (s t : Store) (P : Nat → Prop) : Prop where
  size_le : s.cells.size + s.cells.size ≤ t.cells.size
  cell_eq : ∀ n < s.cells.size, t.cells[n]? = s.cells[n]?
  copy_eq : ∀ n < s.cells.size, P n →
    t.cells[n + s.cells.size]? = (s.cells[n]?).map (Cell.rename (· + s.cells.size))

theorem doubles_twin (s : Store) : s.Doubles s.twin fun _ => True := by
  refine ⟨by simp [twin], fun n hn => ?_, fun n hn _ => ?_⟩
  · exact Array.getElem?_append_left hn
  · rw [twin, Array.getElem?_append_right (Nat.le_add_left ..), Nat.add_sub_cancel,
      Array.getElem?_map]

namespace Doubles

variable (h : s.Doubles t P)
include h

theorem mono (hsub : ∀ n < s.cells.size, Q n → P n) : s.Doubles t Q :=
  ⟨h.size_le, h.cell_eq, fun n hn hq => h.copy_eq n hn (hsub n hn hq)⟩

theorem grows {is : List Item} (ht : t.Grows u is) : s.Doubles u P := by
  refine ⟨Nat.le_trans h.size_le ht.size_le, fun n hn => ?_, fun n hn hp => ?_⟩
  · have hlt : n < t.cells.size := by
      have hle := h.size_le
      omega
    rw [ht.cell_eq n hlt, h.cell_eq n hn]
  · have hlt : n + s.cells.size < t.cells.size := by
      have hle := h.size_le
      omega
    rw [ht.cell_eq _ hlt, h.copy_eq n hn hp]

theorem put (hm : s.cells.size ≤ m) (key : String) (value : Item) :
    s.Doubles (t.put m key value) fun n => P n ∧ n + s.cells.size ≠ m := by
  refine ⟨?_, fun n hn => ?_, fun n hn hp => ?_⟩
  · rw [size_put]
    exact h.size_le
  · have hne : n ≠ m := by omega
    rw [getElem?_put_of_ne hne, h.cell_eq n hn]
  · rw [getElem?_put_of_ne hp.2, h.copy_eq n hn hp.1]

theorem carries (hs : s.Sound) : s.Carries t (· < s.cells.size) id :=
  hs.carries_id h.cell_eq (Nat.le_trans (Nat.le_add_right ..) h.size_le)

/-- the copies of nodes that hold only nodes with copies read as these do -/
theorem carries_copy (hclosed : s.Closed Q) (hsub : ∀ n, Q n → P n) :
    s.Carries t Q (· + s.cells.size) := by
  refine ⟨hclosed, fun a b hab => Nat.add_right_cancel hab, fun n hn => ?_, ?_⟩
  · exact h.copy_eq n (hclosed.lt_size hn) (hsub n hn)
  · have hle := h.size_le
    omega

theorem entries?_copy (hn : n < s.cells.size) (hp : P n) :
    t.entries? (n + s.cells.size) =
      (s.entries? n).map
        (List.map fun e => (e.1.rename (· + s.cells.size), e.2.rename (· + s.cells.size))) := by
  rw [entries?, entries?, h.copy_eq n hn hp]
  cases s.cells[n]? with
  | none => rfl
  | some cell => cases cell <;> rfl

end Doubles

/-- where all but one node have their copies, the copies of the nodes that do not reach it read as these do -/
theorem Doubles.carries_misses {g : Nat} (h : s.Doubles t (· ≠ g)) (hs : s.Sound) :
    s.Carries t (s.Misses g) (· + s.cells.size) :=
  h.carries_copy (hs.closed_misses g) fun _ hn => hn.ne .refl

/-! ### One key of a path -/

/-- the store with a new mapping under a key of another -/
def putNew (s : Store) (n : Nat) (key : String) : Store := (s.push (.dict [])).1.put n key (.node s.cells.size)

section New

variable {es : List (Item × Item)} (hes : s.entries? n = some es)
include hes

theorem entries?_putNew_self : (s.putNew n key).entries? n = some (putEntry key (.node s.cells.size) es) := by
  have hlt := lt_of_entries? hes
  refine entries?_put_self ?_
  rw [entries?_eq_some, push, Array.getElem?_push_lt hlt, ← Array.getElem?_eq_getElem hlt]
  exact entries?_eq_some.1 hes

/-- the new mapping is empty -/
theorem entries?_putNew (key : String) : (s.putNew n key).entries? s.cells.size = some [] := by
  rw [putNew, entries?_put_of_ne (Nat.ne_of_gt (lt_of_entries? hes)), entries?_eq_some]
  exact Array.getElem?_push_size

end New

section Step

variable {walked rest : List String} {i : Item} {es : List (Item × Item)} (hrest : rest ≠ [])
include hrest

theorem setPath_of_new (h : s.child? n key = none ∨ s.child? n key = some (.scalar .null)) :
    s.setPath n walked (key :: rest) value =
      (s.putNew n key).setPath s.cells.size (walked ++ [key]) rest value := by
  rw [setPath]
  · rcases h with h | h <;> rw [h] <;> rfl
  · exact hrest

theorem setPath_of_node (h : s.child? n key = some (.node m)) (hes : s.entries? m = some es) :
    s.setPath n walked (key :: rest) value = s.setPath m (walked ++ [key]) rest value := by
  rw [setPath]
  · simp only [h, itemEntries?, hes]
  · exact hrest

theorem setPath_of_otherwise (h : s.child? n key = some i) (hnull : i ≠ .scalar .null)
    (hi : s.itemEntries? i = none) :
    s.setPath n walked (key :: rest) value =
      (s, .error (.ofKind (String.intercalate "." (walked ++ [key])) "mapping" (s.read i))) := by
  rw [setPath]
  · cases i with
    | scalar y =>
      cases y with
      | null => exact absurd rfl hnull
      | _ => simp only [h]
    | node m => simp only [h, hi]
  · exact hrest

end Step

/-! ### Setting an item two keys away -/

section SetPath

variable {a b : String}

/-- where nothing stands under the first key, or null, it is given a new mapping -/
theorem setPath_of_fresh (h : s.child? n a = none ∨ s.child? n a = some (.scalar .null)) :
    s.setPath n [] [a, b] value = ((s.putNew n a).put s.cells.size b value, .ok ()) :=
  setPath_of_new (List.cons_ne_nil b []) h

theorem setPath_of_mapping {es : List (Item × Item)} (h : s.child? n a = some (.node m))
    (hes : s.entries? m = some es) : s.setPath n [] [a, b] value = (s.put m b value, .ok ()) :=
  setPath_of_node (List.cons_ne_nil b []) h hes

/-- anything but a mapping or null on the way stops the walk -/
theorem setPath_of_other {i : Item} (h : s.child? n a = some i) (hnull : i ≠ .scalar .null)
    (hi : s.itemEntries? i = none) :
    s.setPath n [] [a, b] value = (s, .error (.ofKind a "mapping" (s.read i))) :=
  setPath_of_otherwise (List.cons_ne_nil b []) h hnull hi

/-- an item is set if there is nothing on the way but mappings -/
theorem setPath_pair_eq_ok : (s.setPath n [] [a, b] value).2 = .ok () ↔
    ∀ i, s.child? n a = some i → i = .scalar .null ∨ (s.itemEntries? i).isSome = true := by
  cases h : s.child? n a with
  | none => simp [setPath_of_fresh (.inl h)]
  | some i =>
    cases i with
    | scalar x =>
      cases x with
      | null => simp [setPath_of_fresh (.inr h)]
      | _ => simp [setPath, h, itemEntries?]
    | node m =>
      cases hes : s.entries? m with
      | none => simp [setPath, h, itemEntries?, hes]
      | some es => simp [setPath_of_mapping h hes, itemEntries?, hes]

/-- Setting an item two keys away from a node changes nothing under its other keys, unless the first key leads
back to it. -/
theorem child?_setPath_pair {es : List (Item × Item)} (hes : s.entries? n = some es)
    (hself : s.child? n a ≠ some (.node n)) (hkey : key ≠ a) :
    (s.setPath n [] [a, b] value).1.child? n key = s.child? n key := by
  have hlt := lt_of_entries? hes
  have hfresh : s.child? n a = none ∨ s.child? n a = some (.scalar .null) →
      (s.setPath n [] [a, b] value).1.child? n key = s.child? n key := by
    intro h
    rw [setPath_of_fresh h, child?, child?, entries?_put_of_ne (Nat.ne_of_lt hlt), entries?_putNew_self hes, hes,
      Option.bind_some, Option.bind_some, entryAt?_putEntry_of_ne hkey]
  cases h : s.child? n a with
  | none => exact hfresh (.inl h)
  | some i =>
    cases i with
    | scalar x =>
      cases x with
      | null => exact hfresh (.inr h)
      | _ => simp [setPath, h]
    | node m =>
      have hm : n ≠ m := by
        rintro rfl
        exact hself h
      cases hms : s.entries? m with
      | none => simp [setPath, h, itemEntries?, hms]
      | some ms => rw [setPath_of_mapping h hms, child?, child?, entries?_put_of_ne hm]

end SetPath

end Store

namespace Values

variable {v w : Values} {ns : String}

/-! ### The nodes of the effective values -/

theorem pathKeys_namespacePath : pathKeys namespacePath = ["global", "istioNamespace"] := by decide

/-- a path of one key leads to what stands under it in the root -/
theorem get?_eq_child? {key : String} (hkeys : pathKeys key = [key]) :
    v.get? key = v.store.child? v.root key := by
  rw [get?, hkeys]
  simp only [Store.resolve?, Store.itemEntries?, Store.child?]
  cases v.store.entries? v.root with
  | none => rfl
  | some es =>
    simp only [Option.bind_some]
    cases entryAt? key es <;> rfl

theorem get?_global (v : Values) : v.get? "global" = v.store.child? v.root "global" :=
  get?_eq_child? (by decide)

theorem IsSound.root_lt (hv : v.IsSound) : v.root < v.store.cells.size := by
  obtain ⟨es, hes⟩ := hv.root
  exact Store.lt_of_entries? hes

theorem IsSound.within_get? (hv : v.IsSound) {path : String} {i : Item} (h : v.get? path = some i) :
    i.Within (· < v.store.cells.size) :=
  hv.store.within_resolve? (i := .node v.root) hv.root_lt h

/-- the mapping at `global` is not the root, which nothing holds -/
theorem ne_root_of_get?_global (hv : v.IsSound) {g : Nat}
    (h : v.get? "global" = some (.node g)) : g ≠ v.root := by
  rintro rfl
  rw [get?_global] at h
  obtain ⟨es, hes, hentry⟩ := Option.bind_eq_some_iff.1 h
  refine hv.unheld (.node v.root) ⟨v.root, _, rfl, Store.entries?_eq_some.1 hes, ?_⟩
  exact List.mem_flatMap.2 ⟨_, entryAt?_mem hentry, by simp⟩

/-- under each key the copy of the root has a copy of what is there -/
theorem child?_copy (hv : v.IsSound) {t : Store} (h : v.store.Doubles t fun _ => True) (key : String) :
    t.child? (v.root + v.store.cells.size) key =
      (v.store.child? v.root key).map (Item.rename (· + v.store.cells.size)) := by
  rw [Store.child?, Store.child?, h.entries?_copy hv.root_lt trivial]
  cases v.store.entries? v.root with
  | none => rfl
  | some es => exact entryAt?_rename _ _ es

/-- The namespace is overridden exactly if nothing stands at `global`, or null, or a mapping. -/
theorem override_isOk (hv : v.IsSound) (ns : Data) :
    (∃ w, v.override ns = .ok w) ↔ v.Allows "global" v.store.itemEntries? := by
  have hset : (∃ w, v.override ns = .ok w) ↔
      (((v.store.twin.add ns).1.setPath (v.root + v.store.cells.size) []
        ["global", "istioNamespace"] (v.store.twin.add ns).2).2 = .ok ()) := by
    rw [override, set, pathKeys_namespacePath, copy]
    dsimp only
    generalize Store.setPath _ _ _ _ _ = r
    obtain ⟨t, _ | ⟨⟨⟩⟩⟩ := r
    · simp
    · simp
  have hdoubles := v.store.doubles_twin.grows (v.store.twin.grows_add ns)
  have hcarries := hdoubles.carries_copy hv.store fun _ _ => trivial
  rw [hset, Store.setPath_pair_eq_ok, child?_copy hv hdoubles, ← get?_global, Allows]
  constructor
  · intro h i hi
    rcases h (i.rename (· + v.store.cells.size)) (by rw [hi]; rfl) with hnull | hsome
    · exact .inl (Item.rename_eq_scalar.1 hnull)
    · rw [hcarries.itemEntries?_rename (hv.within_get? hi), Option.isSome_map] at hsome
      exact .inr hsome
  · intro h i hi
    obtain ⟨j, hj, rfl⟩ := Option.map_eq_some_iff.1 hi
    rcases h j hj with rfl | hsome
    · exact .inl rfl
    · rw [hcarries.itemEntries?_rename (hv.within_get? hj), Option.isSome_map]
      exact .inr hsome

/-- under a key of the root other than `global` the effective values have a copy of what is there -/
theorem get?_override_of_ne (hv : v.IsSound) {ns : Data} (hw : v.override ns = .ok w) {key : String}
    (hkeys : pathKeys key = [key]) (hkey : key ≠ "global") :
    w.get? key = (v.get? key).map (Item.rename (· + v.store.cells.size)) := by
  have hdoubles := v.store.doubles_twin.grows (v.store.twin.grows_add ns)
  obtain ⟨es, hes⟩ := hv.root
  have hroot := hdoubles.entries?_copy hv.root_lt trivial
  rw [hes] at hroot
  -- `global` leads to a copy of what it led to, and that is not the root
  have hself : (v.store.twin.add ns).1.child? (v.root + v.store.cells.size) "global" ≠
      some (.node (v.root + v.store.cells.size)) := by
    rw [child?_copy hv hdoubles, ← get?_global]
    intro h
    obtain ⟨i, hi, hrename⟩ := Option.map_eq_some_iff.1 h
    cases i with
    | scalar x => cases hrename
    | node g =>
      injection hrename with heq
      exact ne_root_of_get?_global hv hi (Nat.add_right_cancel heq)
  have hset := @Store.child?_setPath_pair (v.store.twin.add ns).1 (v.root + v.store.cells.size) key
    (v.store.twin.add ns).2 "global" "istioNamespace" _ hroot hself hkey
  rw [override, set, pathKeys_namespacePath, copy] at hw
  dsimp only at hw
  rw [get?_eq_child? hkeys, get?_eq_child? hkeys, ← child?_copy hv hdoubles, ← hset]
  generalize Store.setPath _ _ _ _ _ = r at hw ⊢
  obtain ⟨t, _ | ⟨⟨⟩⟩⟩ := r
  · cases hw
  · cases hw
    rfl

/-- The override gives the copy of the root a new mapping if nothing stands at `global`, or null. -/
structure IsFresh (v : Values) (ns : String) (w : Values) : Prop where
  absent : v.get? "global" = none ∨ v.get? "global" = some (.scalar .null)
  root_eq : w.root = v.root + v.store.cells.size
  store_eq : w.store =
    ((v.store.twin.push (.dict [])).1.put w.root "global" (.node v.store.twin.cells.size)).put
      v.store.twin.cells.size "istioNamespace" (.scalar (.text ns))

/-- The override changes the copy of the mapping at `global`, the node `g`. -/
structure IsChanged (v : Values) (ns : String) (g : Nat) (w : Values) : Prop where
  mapping : v.get? "global" = some (.node g)
  entries : ∃ es, v.store.entries? g = some es
  root_eq : w.root = v.root + v.store.cells.size
  store_eq : w.store = v.store.twin.put (g + v.store.cells.size) "istioNamespace" (.scalar (.text ns))

/-- what the override does to the nodes -/
theorem override_eq_ok (hv : v.IsSound) (hw : v.override (.text ns) = .ok w) :
    v.IsFresh ns w ∨ ∃ g, v.IsChanged ns g w := by
  have hallowed := (override_isOk hv (.text ns)).1 ⟨w, hw⟩
  have hdoubles := v.store.doubles_twin
  have hcarries := hdoubles.carries_copy hv.store fun _ _ => trivial
  have hchild := child?_copy hv hdoubles "global"
  rw [← get?_global] at hchild
  have hadd : v.store.twin.add (.text ns) = (v.store.twin, .scalar (.text ns)) := rfl
  rw [override, set, pathKeys_namespacePath, copy] at hw
  dsimp only at hw
  rw [hadd] at hw
  dsimp only at hw
  cases hglobal : v.get? "global" with
  | none =>
    rw [hglobal] at hchild
    rw [Store.setPath_of_fresh (.inl hchild)] at hw
    cases hw
    exact .inl ⟨.inl hglobal, rfl, rfl⟩
  | some i =>
    rcases hallowed i hglobal with rfl | hsome
    · rw [hglobal] at hchild
      rw [Store.setPath_of_fresh (.inr hchild)] at hw
      cases hw
      exact .inl ⟨.inr hglobal, rfl, rfl⟩
    · obtain ⟨es, hes⟩ := Option.isSome_iff_exists.1 hsome
      obtain ⟨g, rfl, hg⟩ := Store.itemEntries?_eq_some.1 hes
      have hcopy := hcarries.itemEntries?_rename (hv.within_get? hglobal)
      rw [hes] at hcopy
      rw [hglobal] at hchild
      rw [Store.setPath_of_mapping hchild hcopy] at hw
      cases hw
      exact .inr ⟨g, hglobal, ⟨es, hes⟩, rfl, rfl⟩

theorem IsFresh.doubles (h : v.IsFresh ns w) : v.store.Doubles w.store (· ≠ v.root) := by
  have hsize : v.store.twin.cells.size = v.store.cells.size + v.store.cells.size := by
    simp [Store.twin]
  have hpush := v.store.doubles_twin.grows
    (@Store.Grows.push _ _ _ (Store.Grows.nil v.store.twin) (.dict []) rfl)
  rw [h.store_eq, h.root_eq]
  refine Store.Doubles.mono (Store.Doubles.put (Store.Doubles.put hpush ?_ _ _) ?_ _ _) ?_
  · exact Nat.le_add_left ..
  · rw [hsize]
    exact Nat.le_add_left ..
  · intro n hlt hn
    refine ⟨⟨trivial, ?_⟩, ?_⟩ <;> omega

theorem IsChanged.doubles {g : Nat} (h : v.IsChanged ns g w) : v.store.Doubles w.store (· ≠ g) := by
  rw [h.store_eq]
  refine (v.store.doubles_twin.put (Nat.le_add_left ..) _ _).mono fun n _ hn => ⟨trivial, ?_⟩
  omega

end Values

end MeshOperator
