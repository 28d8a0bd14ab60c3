import Mathlib.Logic.Function.Basic
import MeshOperator.Proofs.Values.Tracking
import MeshOperator.Values.Twins

/-!
# Copies of values

A copy of values is a tree of its own, beside the original in one store. Values are set in both in any order. Each
tree then is what it would be if values had been set in it alone, and the two have no node in common. The same
values set in both give the same.

* `Parcel`: a value with the nodes that it needs, which may hold each other.
* `Values.assign`: sets such a value, `Values.set_eq_assign`: as `Values.set` sets data.
* `Twins.editAll_eq_assignAll`: edits set data in the two trees as values are set in them.
* `Values.Mirrors`: one tree has the nodes of another, with other numbers.
* `Twins.Runs`: the two trees of a store mirror two trees that have nothing to do with each other.
* `Values.SameContents`: trees that read the same, at every path, of which the nodes hold each other alike.
* `Values.copy_independent`: the copy is independent of the original.
-/

namespace MeshOperator

/-- A value with the nodes that it needs, which may hold each other. -/
structure Parcel where
  store : Store
  item : Item
  sound : store.Sound
  within : item.Within (· < store.cells.size)

/-- data in nodes of its own -/
def Parcel.ofData (d : Data) : Parcel where
  store := (Store.empty.add d).1
  item := (Store.empty.add d).2
  sound := (Store.empty.grows_add d).sound Store.sound_empty
  within := (Store.empty.grows_add d).within _ (List.mem_singleton_self _)

/-- A value for a path. -/
structure Assignment where
  path : String
  value : Parcel

/-- A tree and its copy. -/
inductive Side where
  | original
  | copy
deriving DecidableEq

/-- what is marked with a side, out of what is marked with both -/
def Side.own {α : Type} (side : Side) (xs : List (Side × α)) : List α :=
  xs.filterMap fun x => if x.1 = side then some x.2 else none

namespace Side

variable {α : Type} {side side' : Side}

@[simp] theorem own_cons_self (side : Side) (x : α) (xs : List (Side × α)) :
    side.own ((side, x) :: xs) = x :: side.own xs := by simp [own]

theorem own_cons_of_ne (h : side' ≠ side) (x : α) (xs : List (Side × α)) :
    side'.own ((side, x) :: xs) = side'.own xs := by simp [own, Ne.symm h]

end Side

namespace Values

/-- Sets a value whose nodes are joined to those of the values. -/
def assign (v : Values) (a : Assignment) : Values × Except Fault Unit :=
  let (s, r) := (v.store.join a.value.store).setPath v.root [] (pathKeys a.path)
    (a.value.item.rename (· + v.store.cells.size))
  (⟨s, v.root⟩, r)

/-- sets one value after another, and tells of each whether it was set -/
def assignAll (v : Values) : List Assignment → Values × List (Except Fault Unit)
  | [] => (v, [])
  | a :: as =>
    let (w, r) := v.assign a
    let (w, rs) := w.assignAll as
    (w, r :: rs)

theorem assignAll_cons (v : Values) (a : Assignment) (as : List Assignment) :
    v.assignAll (a :: as) =
      (((v.assign a).1.assignAll as).1, (v.assign a).2 :: ((v.assign a).1.assignAll as).2) := rfl

/-- data is set as a value in nodes of its own -/
theorem set_eq_assign (v : Values) (path : String) (d : Data) : v.set path d = v.assign ⟨path, .ofData d⟩ := by
  have hadd := Store.add_join v.store .empty d
  rw [Store.join_empty] at hadd
  rw [set, hadd]
  rfl

end Values

/-! ### Two trees in one store -/

namespace Twins

/-- the tree on a side: the saved one is the original -/
def tree (t : Twins) : Side → Values
  | .original => t.savedValues
  | .copy => t.values

/-- sets a value in the tree on a side -/
def assign (t : Twins) (side : Side) (a : Assignment) : Twins × Except Fault Unit :=
  let (v, r) := (t.tree side).assign a
  (⟨v.store, t.current, t.saved⟩, r)

/-- sets one value after another, each in the tree on its side -/
def assignAll (t : Twins) : List (Side × Assignment) → Twins × List (Side × Except Fault Unit)
  | [] => (t, [])
  | (side, a) :: xs =>
    let (t, r) := t.assign side a
    let (t, rs) := t.assignAll xs
    (t, (side, r) :: rs)

theorem assignAll_cons (t : Twins) (side : Side) (a : Assignment) (xs : List (Side × Assignment)) :
    t.assignAll ((side, a) :: xs) = (((t.assign side a).1.assignAll xs).1,
      (side, (t.assign side a).2) :: ((t.assign side a).1.assignAll xs).2) := rfl

/-! Edits set data in the tree at hand, which is the copy, and between two exchanges of the trees the original. -/

/-- sets data in the tree on a side by edits, with the answer of the one that sets it -/
def edit (t : Twins) : Side → String → Data → Twins × Except Fault EditAnswer
  | .copy, path, d => t.step (.set path d)
  | .original, path, d =>
    let (u, r) := (t.step .swap).1.step (.set path d)
    ((u.step .swap).1, r)

/-- sets one piece of data after another by edits, each in the tree on its side -/
def editAll (t : Twins) : List (Side × String × Data) → Twins × List (Side × Except Fault EditAnswer)
  | [] => (t, [])
  | (side, path, d) :: xs =>
    let (t, r) := t.edit side path d
    let (t, rs) := t.editAll xs
    (t, (side, r) :: rs)

/-- the answer of an edit that sets data -/
def answerOf (r : Except Fault Unit) : Except Fault EditAnswer := r.map fun _ => .done

theorem edit_eq_assign (t : Twins) (side : Side) (path : String) (d : Data) :
    t.edit side path d =
      ((t.assign side ⟨path, .ofData d⟩).1, answerOf (t.assign side ⟨path, .ofData d⟩).2) := by
  cases side with
  | original =>
    rw [edit, step, Values.set_eq_assign]
    rfl
  | copy =>
    rw [edit, step, Values.set_eq_assign]
    rfl

theorem editAll_eq_assignAll (t : Twins) (xs : List (Side × String × Data)) :
    t.editAll xs = ((t.assignAll (xs.map fun x => (x.1, ⟨x.2.1, .ofData x.2.2⟩))).1,
      (t.assignAll (xs.map fun x => (x.1, ⟨x.2.1, .ofData x.2.2⟩))).2.map fun r => (r.1, answerOf r.2)) := by
  induction xs generalizing t with
  | nil => rfl
  | cons x xs ih =>
    obtain ⟨side, path, d⟩ := x
    rw [editAll, edit_eq_assign]
    dsimp only
    rw [ih, List.map_cons, assignAll_cons, List.map_cons]

end Twins

/-- the value is found among the nodes that are joined -/
theorem Parcel.within_join {s : Store} {k : Nat} (hk : k ≤ s.cells.size) (p : Parcel) :
    (p.item.rename (· + s.cells.size)).Within ((s.join p.store).From k) := by
  have hwithin := p.within
  have hsize := Store.size_join s p.store
  cases hitem : p.item with
  | scalar x => trivial
  | node n =>
    rw [hitem] at hwithin
    have hn : n < p.store.cells.size := hwithin
    rw [Item.rename, Item.Within, Store.From]
    omega

namespace Values

variable {v w : Values} {k n : Nat} {f : Nat → Nat}

/-! ### Trees with other numbers -/

/-- The nodes of `v` from `k` on, of which the root is one, are nodes of `w` with other numbers. -/
structure Mirrors (v w : Values) (k : Nat) (f : Nat → Nat) : Prop where
  carries : v.store.Carries w.store (v.store.From k) f
  apply_lt : ∀ n < v.store.cells.size, f n < w.store.cells.size
  root : v.store.From k v.root
  root_eq : w.root = f v.root

/-- a tree whose nodes have their own numbers in another store -/
theorem mirrors_id (hclosed : v.store.Closed (v.store.From k)) (hroot : v.store.From k v.root)
    (hroot_eq : w.root = v.root) (hle : v.store.cells.size ≤ w.store.cells.size)
    (hcell : ∀ n < v.store.cells.size, w.store.cells[n]? = v.store.cells[n]?) : v.Mirrors w k id :=
  ⟨hclosed.carries_id (fun n hn => hcell n hn.2) hle, fun _ hn => Nat.lt_of_lt_of_le hn hle, hroot, hroot_eq⟩

/-- What setting the same value in two trees does: the nodes keep their numbers, the new ones of `w'` come after
those of `w`, and what is in `w` beside the nodes of `v` stays. -/
structure Advances (v w v' w' : Values) (k : Nat) (f g : Nat → Nat) : Prop where
  mirrors : v'.Mirrors w' k g
  kept : ∀ n < v.store.cells.size, g n = f n
  fresh : ∀ n, v.store.cells.size ≤ n → w.store.cells.size ≤ g n
  size_le : w.store.cells.size ≤ w'.store.cells.size
  spares : ∀ n < w.store.cells.size, (∀ m, v.store.From k m → f m ≠ n) →
    w'.store.cells[n]? = w.store.cells[n]?

/-- the same value is set in both, or stopped by the same -/
theorem Mirrors.assign (h : v.Mirrors w k f) (a : Assignment) :
    (w.assign a).2 = (v.assign a).2 ∧ ∃ g, v.Advances w (v.assign a).1 (w.assign a).1 k f g := by
  obtain ⟨g, htracks, hkept⟩ := h.carries.exists_tracks h.apply_lt
  have hroot_eq : w.root = g v.root := by rw [h.root_eq, hkept v.root h.root.2]
  have hk : k ≤ v.store.cells.size := Nat.le_trans h.root.1 (Nat.le_of_lt h.root.2)
  -- the nodes of the value, in both, and then the path
  have hjoin := htracks.join hk a.value.sound
  have hvalue := Parcel.within_join hk a.value
  have hrename : a.value.item.rename (· + w.store.cells.size) =
      (a.value.item.rename (· + v.store.cells.size)).rename g := by
    rw [Item.rename_rename]
    refine Item.rename_congr a.value.within fun n _ => ?_
    rw [Function.comp, Nat.add_comm n, Nat.add_comm n, htracks.ahead]
  have hset := hjoin.tracks.setPath (h.root.mono hjoin.size_le) hvalue [] (pathKeys a.path)
  rw [← hroot_eq, ← hrename] at hset
  have hboth := htracks.trans hjoin hset.2
  have hlt : ∀ n < v.store.cells.size, g n < w.store.cells.size := fun n hn => by
    rw [hkept n hn]
    exact h.apply_lt n hn
  refine ⟨hset.1, g, ⟨⟨hboth.tracks.carries, htracks.apply_lt hlt hboth, h.root.mono hboth.size_le, hroot_eq⟩,
    hkept, fun n hn => ?_, ?_, fun n hn hspare => hboth.spares n hn fun m hm => ?_⟩⟩
  · obtain ⟨j, rfl⟩ := Nat.exists_eq_add_of_le hn
    rw [htracks.ahead]
    exact Nat.le_add_right ..
  · have hsize := htracks.size_eq hboth.tracks hboth.size_le
    exact hsize ▸ Nat.le_add_right ..
  · rw [hkept m hm.2]
    exact hspare m hm

/-- a tree is mirrored still where the nodes of it that are found stay -/
theorem Mirrors.of_spared {w' : Values} (h : v.Mirrors w k f) (hroot : w'.root = w.root)
    (hle : w.store.cells.size ≤ w'.store.cells.size)
    (hcell : ∀ n, v.store.From k n → w'.store.cells[f n]? = w.store.cells[f n]?) : v.Mirrors w' k f := by
  refine ⟨⟨h.carries.closed, h.carries.injective, fun n hn => ?_, Nat.le_trans h.carries.size_le hle⟩,
    fun n hn => Nat.lt_of_lt_of_le (h.apply_lt n hn) hle, h.root, hroot.trans h.root_eq⟩
  rw [hcell n hn, h.carries.cell_eq n hn]

/-- the same values are set in both, one after another -/
theorem Mirrors.assignAll (h : v.Mirrors w k f) (as : List Assignment) :
    (w.assignAll as).2 = (v.assignAll as).2 ∧ ∃ g, (v.assignAll as).1.Mirrors (w.assignAll as).1 k g := by
  induction as generalizing v w f with
  | nil => exact ⟨rfl, f, h⟩
  | cons a as ih =>
    obtain ⟨hanswer, g, hone⟩ := h.assign a
    obtain ⟨hanswers, hall⟩ := ih hone.mirrors
    refine ⟨?_, hall⟩
    rw [assignAll_cons, assignAll_cons, hanswer, hanswers]

/-! ### The same contents -/

/-- Two trees have the same contents: they read the same, at every path, and their nodes hold each other alike. -/
structure SameContents (v w : Values) : Prop where
  toData_eq : w.toData = v.toData
  valueAt?_eq : ∀ path, w.valueAt? path = v.valueAt? path
  exists_rename : ∃ f : Nat → Nat, Function.Injective f ∧ w.root = f v.root ∧
    ∀ n, v.store.Reaches (.node v.root) (.node n) →
      w.store.cells[f n]? = (v.store.cells[n]?).map (Cell.rename f)

theorem Mirrors.sameContents (h : v.Mirrors w k f) : v.SameContents w := by
  have hroot : (Item.node v.root).Within (v.store.From k) := h.root
  have hnode : Item.node w.root = (Item.node v.root).rename f := congrArg Item.node h.root_eq
  refine ⟨?_, fun path => ?_, f, h.carries.injective, h.root_eq, fun n hn => ?_⟩
  · rw [toData, hnode, h.carries.read_rename hroot, toData]
  · rw [valueAt?, valueAt?, get?, get?, hnode, h.carries.resolve?_rename hroot]
    cases hi : v.store.resolve? (.node v.root) (pathKeys path) with
    | none => rfl
    | some i => exact congrArg some (h.carries.read_rename (h.carries.closed.within_resolve? hroot hi))
  · exact h.carries.cell_eq n (h.carries.closed.within_of_reaches hroot hn)

end Values

/-! ### Any order -/

namespace Twins

variable {t : Twins} {alone : Side → Values} {k : Side → Nat} {f : Side → Nat → Nat}

/-- Each of the trees mirrors one that is alone, and they have no node in common. -/
structure Runs (alone : Side → Values) (t : Twins) (k : Side → Nat) (f : Side → Nat → Nat) : Prop where
  mirrors : ∀ side, (alone side).Mirrors (t.tree side) (k side) (f side)
  apart : ∀ {side side'}, side ≠ side' → ∀ {n m}, (alone side).store.From (k side) n →
    (alone side').store.From (k side') m → f side n ≠ f side' m

theorem tree_assign (t : Twins) (side : Side) (a : Assignment) :
    (t.assign side a).1.tree side = ((t.tree side).assign a).1 := by
  cases side <;> rfl

theorem store_tree (t : Twins) (side : Side) : (t.tree side).store = t.store := by
  cases side <;> rfl

theorem root_tree_assign (t : Twins) (side side' : Side) (a : Assignment) :
    ((t.assign side a).1.tree side').root = (t.tree side').root := by
  cases side <;> cases side' <;> rfl

/-- one side goes on alone -/
def goOn (alone : Side → Values) (side : Side) (a : Assignment) : Side → Values :=
  Function.update alone side ((alone side).assign a).1

theorem goOn_self (alone : Side → Values) (side : Side) (a : Assignment) :
    goOn alone side a side = ((alone side).assign a).1 := Function.update_self ..

theorem goOn_of_ne {side side' : Side} (hside : side' ≠ side) (alone : Side → Values) (a : Assignment) :
    goOn alone side a side' = alone side' := Function.update_of_ne hside ..

namespace Runs

theorem apply_lt (h : Runs alone t k f) {side : Side} {n : Nat} (hn : (alone side).store.From (k side) n) :
    f side n < t.store.cells.size := by
  rw [← store_tree t side]
  exact (h.mirrors side).apply_lt n hn.2

section Advances

variable {side side' : Side} {a : Assignment} {g : Nat → Nat} (h : Runs alone t k f) (hside : side' ≠ side)
variable (hadvances : (alone side).Advances (t.tree side) ((alone side).assign a).1
  ((t.assign side a).1.tree side) (k side) (f side) g)
include h hside hadvances

/-- the other tree is mirrored as before -/
theorem mirrors_other : (alone side').Mirrors ((t.assign side a).1.tree side') (k side') (f side') := by
  have hsize := hadvances.size_le
  rw [store_tree, store_tree] at hsize
  refine (h.mirrors side').of_spared (root_tree_assign ..) ?_ fun n hn => ?_
  · rwa [store_tree, store_tree]
  · have hspares := hadvances.spares (f side' n)
    rw [store_tree, store_tree] at hspares
    rw [store_tree, store_tree]
    exact hspares (h.apply_lt hn) fun m hm => h.apart (Ne.symm hside) hm hn

/-- the nodes of the one tree, old and new, are none of the other one's -/
theorem apart_other {n m : Nat} (hn : ((alone side).assign a).1.store.From (k side) n)
    (hm : (alone side').store.From (k side') m) : g n ≠ f side' m := by
  by_cases hold : n < (alone side).store.cells.size
  · rw [hadvances.kept n hold]
    exact h.apart (Ne.symm hside) ⟨hn.1, hold⟩ hm
  · have hfresh := hadvances.fresh n (Nat.not_lt.1 hold)
    have hbefore := h.apply_lt hm
    rw [store_tree] at hfresh
    omega

end Advances

/-- a value is set in one tree, and the other one stays -/
theorem assign (h : Runs alone t k f) (side : Side) (a : Assignment) :
    (t.assign side a).2 = ((alone side).assign a).2 ∧ ∃ g, Runs (goOn alone side a) (t.assign side a).1 k g := by
  obtain ⟨hanswer, g, hadvances⟩ := (h.mirrors side).assign a
  rw [← tree_assign] at hadvances
  refine ⟨hanswer, Function.update f side g, ⟨fun side' => ?_, fun {side₁ side₂} hne n m hn hm => ?_⟩⟩
  · by_cases hside : side' = side
    · subst hside
      rw [goOn_self, Function.update_self]
      exact hadvances.mirrors
    · rw [goOn_of_ne hside, Function.update_of_ne hside]
      exact h.mirrors_other hside hadvances
  · by_cases hside₁ : side₁ = side
    · subst hside₁
      rw [goOn_self] at hn
      rw [goOn_of_ne (Ne.symm hne)] at hm
      rw [Function.update_self, Function.update_of_ne (Ne.symm hne)]
      exact h.apart_other (Ne.symm hne) hadvances hn hm
    · rw [goOn_of_ne hside₁] at hn
      rw [Function.update_of_ne hside₁]
      by_cases hside₂ : side₂ = side
      · subst hside₂
        rw [goOn_self] at hm
        rw [Function.update_self]
        exact (h.apart_other hne hadvances hm hn).symm
      · rw [goOn_of_ne hside₂] at hm
        rw [Function.update_of_ne hside₂]
        exact h.apart hne hn hm

/-- any number of values set in any order -/
theorem assignAll (h : Runs alone t k f) (xs : List (Side × Assignment)) :
    (∀ side, side.own (t.assignAll xs).2 = ((alone side).assignAll (side.own xs)).2) ∧
    ∃ g, Runs (fun side => ((alone side).assignAll (side.own xs)).1) (t.assignAll xs).1 k g := by
  induction xs generalizing t alone f with
  | nil => exact ⟨fun side => rfl, f, h⟩
  | cons x xs ih =>
    obtain ⟨side, a⟩ := x
    obtain ⟨hanswer, g, hone⟩ := h.assign side a
    obtain ⟨hanswers, g', hall⟩ := ih hone
    refine ⟨fun side' => ?_, g', ?_⟩
    · have hrest := hanswers side'
      rw [Twins.assignAll_cons]
      by_cases hside : side' = side
      · subst hside
        rw [goOn_self] at hrest
        rw [Side.own_cons_self, Side.own_cons_self, Values.assignAll_cons, hanswer, hrest]
      · rw [goOn_of_ne hside] at hrest
        rw [Side.own_cons_of_ne hside, Side.own_cons_of_ne hside, hrest]
    · have hsides : (fun side' => ((goOn alone side a side').assignAll (side'.own xs)).1) =
          fun side' => ((alone side').assignAll (side'.own ((side, a) :: xs))).1 := by
        funext side'
        by_cases hside : side' = side
        · subst hside
          rw [goOn_self, Side.own_cons_self, Values.assignAll_cons]
        · rw [goOn_of_ne hside, Side.own_cons_of_ne hside]
      rwa [hsides] at hall

end Runs

/-- No node is reached from the roots of both trees. -/
def AreApart (t : Twins) : Prop :=
  ∀ n, t.store.Reaches (.node t.saved) (.node n) → ¬ t.store.Reaches (.node t.current) (.node n)

theorem Runs.areApart (h : Runs alone t k f) : t.AreApart := by
  have hreached (side : Side) {n : Nat} (hn : t.store.Reaches (.node (t.tree side).root) (.node n)) :
      ∃ m, (alone side).store.From (k side) m ∧ f side m = n := by
    have hside := h.mirrors side
    rw [← store_tree t side] at hn
    exact hside.carries.closed_image.within_of_reaches (i := .node _) ⟨_, hside.root, hside.root_eq.symm⟩ hn
  intro n hn hn'
  obtain ⟨m, hm, rfl⟩ := hreached .original hn
  obtain ⟨m', hm', he⟩ := hreached .copy hn'
  exact h.apart (by decide) hm hm' he.symm

end Twins

namespace Values

variable {v : Values}

/-- Values that are accepted: read from raw values, or of a mapping whose nodes may hold each other. -/
inductive IsAccepted : Values → Prop
  | raw {raw : Data} {v : Values} (h : ofRaw raw = .ok v) : IsAccepted v
  | mapping {s : Store} {es : List (Item × Item)} (hs : s.Sound)
    (hes : ∀ i ∈ (Cell.dict es).items, i.Within (· < s.cells.size)) : IsAccepted (reroot s es)

theorem IsAccepted.isSound (h : v.IsAccepted) : v.IsSound := by
  cases h with
  | raw h => exact isSound_of_ofRaw h
  | mapping hs hes => exact isSound_reroot hs hes

/-- the tree on a side, where there is no other -/
def alone (v : Values) : Side → Values
  | .original => v
  | .copy => v.copy

/-- the values and a copy of them, in one store -/
def twins (v : Values) : Twins := ((Twins.ofValues v).step .copy).1

theorem size_copy (v : Values) : v.copy.store.cells.size = v.store.cells.size + v.store.cells.size := by
  simp [copy, Store.twin]

/-- the copy has the nodes of the original under numbers of its own -/
theorem mirrors_copy (hv : v.IsSound) : v.Mirrors v.copy 0 (· + v.store.cells.size) := by
  have hall : v.store.From 0 = (· < v.store.cells.size) := by
    funext n
    exact propext ⟨fun h => h.2, fun h => ⟨Nat.zero_le n, h⟩⟩
  refine ⟨?_, fun n hn => ?_, ⟨Nat.zero_le _, hv.root_lt⟩, rfl⟩
  · rw [hall]
    exact v.store.doubles_twin.carries_copy hv.store fun _ _ => trivial
  · rw [size_copy]
    omega

/-- the number from which the nodes of a side are, when the copy is taken -/
def start (v : Values) : Side → Nat
  | .original => 0
  | .copy => v.store.cells.size

/-- the copies hold copies only -/
theorem closed_copy (hv : v.IsSound) : v.copy.store.Closed (v.copy.store.From v.store.cells.size) := by
  have himage : v.copy.store.From v.store.cells.size =
      fun m => ∃ n, v.store.From 0 n ∧ n + v.store.cells.size = m := by
    funext m
    rw [Store.From, size_copy]
    refine propext ⟨fun h => ⟨m - v.store.cells.size, ⟨Nat.zero_le _, by omega⟩, by omega⟩, ?_⟩
    rintro ⟨n, hn, rfl⟩
    have hlt := hn.2
    omega
  rw [himage]
  exact (mirrors_copy hv).carries.closed_image

/-- at first both trees have their own numbers -/
theorem runs_twins (hv : v.IsSound) : Twins.Runs v.alone v.twins v.start fun _ => id := by
  have hcopy := mirrors_copy hv
  have hroot : v.copy.store.From v.store.cells.size v.copy.root :=
    ⟨Nat.le_add_left .., hcopy.root_eq ▸ hcopy.apply_lt _ hv.root_lt⟩
  refine ⟨fun side => ?_, fun {side side'} hne n m hn hm => ?_⟩
  · cases side with
    | original =>
      exact mirrors_id hcopy.carries.closed hcopy.root rfl hcopy.carries.size_le v.store.doubles_twin.cell_eq
    | copy => exact mirrors_id (closed_copy hv) hroot rfl (Nat.le_refl _) fun _ _ => rfl
  · cases side <;> cases side'
    · exact absurd rfl hne
    · exact Nat.ne_of_lt (Nat.lt_of_lt_of_le hn.2 hm.1)
    · exact Nat.ne_of_gt (Nat.lt_of_lt_of_le hm.2 hn.1)
    · exact absurd rfl hne

/-- **Independence.**  Values are set in accepted values and in a copy of them, in any order, and some of them are
stopped. Each of the two trees comes to the same contents and answers as when its values are set in it alone, and
no node is in both. The same values set in both, each alone, come to the same contents and answers. Data is set
as such a value, also by edits of the two trees. -/
theorem copy_independent (hv : v.IsAccepted) :
    (∀ xs : List (Side × Assignment),
      (∀ side, ((v.alone side).assignAll (side.own xs)).1.SameContents ((v.twins.assignAll xs).1.tree side) ∧
        side.own (v.twins.assignAll xs).2 = ((v.alone side).assignAll (side.own xs)).2) ∧
      (v.twins.assignAll xs).1.AreApart) ∧
    (∀ as : List Assignment, (v.assignAll as).1.SameContents (v.copy.assignAll as).1 ∧
      (v.copy.assignAll as).2 = (v.assignAll as).2) ∧
    (∀ (w : Values) (path : String) (d : Data), w.set path d = w.assign ⟨path, .ofData d⟩) ∧
    ∀ (t : Twins) (xs : List (Side × String × Data)),
      t.editAll xs = ((t.assignAll (xs.map fun x => (x.1, ⟨x.2.1, .ofData x.2.2⟩))).1,
        (t.assignAll (xs.map fun x => (x.1, ⟨x.2.1, .ofData x.2.2⟩))).2.map fun r =>
          (r.1, Twins.answerOf r.2)) := by
  have hsound := hv.isSound
  refine ⟨fun xs => ?_, fun as => ?_, set_eq_assign, Twins.editAll_eq_assignAll⟩
  · obtain ⟨hanswers, g, hruns⟩ := (runs_twins hsound).assignAll xs
    exact ⟨fun side => ⟨(hruns.mirrors side).sameContents, hanswers side⟩, hruns.areApart⟩
  · obtain ⟨hanswers, g, hmirrors⟩ := (mirrors_copy hsound).assignAll as
    exact ⟨hmirrors.sameContents, hanswers⟩

/-- values with a mapping in two places, and one that holds itself -/
def tangled : Data := .text "a: &x\n  n: 1\nb: *x\nc: &y\n  again: *y\n"

/-- values for both sides, the last of them below a number -/
def tangledCalls : List (Side × Assignment) :=
  [(.original, ⟨"b.n", .ofData (.int 2)⟩), (.copy, ⟨"c.again.m", .ofData (.int 3)⟩),
    (.copy, ⟨"a.n.k", .ofData (.int 4)⟩)]

/-- What is set through the second place of a mapping shows in the first, on its own side. -/
theorem copy_tangled : ∃ v, ofRaw tangled = .ok v ∧
    ((v.twins.assignAll tangledCalls).1.tree .original).valueAt? "a.n" = some (.int 2) ∧
    ((v.twins.assignAll tangledCalls).1.tree .copy).valueAt? "a.n" = some (.int 1) ∧
    ((v.twins.assignAll tangledCalls).1.tree .original).valueAt? "c.m" = none ∧
    ((v.twins.assignAll tangledCalls).1.tree .copy).valueAt? "c.m" = some (.int 3) ∧
    (Side.copy.own (v.twins.assignAll tangledCalls).2).map Except.isOk = [true, false] := by
  have hfound : (do
      let v ← ofRaw tangled
      let original := v.assignAll (Side.original.own tangledCalls)
      let copy := v.copy.assignAll (Side.copy.own tangledCalls)
      return (original.1.get? "a.n", copy.1.get? "a.n", original.1.get? "c.m", copy.1.get? "c.m",
        copy.2.map Except.isOk) :
        Except Fault (Option Item × Option Item × Option Item × Option Item × List Bool)).toOption =
      some (some (.scalar (.int 2)), some (.scalar (.int 1)), none, some (.scalar (.int 3)), [true, false]) := by
    decide +kernel
  obtain ⟨v, hv, hend⟩ := bind_eq_ok.1 (eq_ok_of_toOption hfound)
  simp only [pure, Except.pure, Except.ok.injEq, Prod.mk.injEq] at hend
  obtain ⟨horiginal, hcopy, hnone, hm, hanswers⟩ := hend
  obtain ⟨hsides, -⟩ := (copy_independent (.raw hv)).1 tangledCalls
  have hvalue {w : Values} {path : String} {o : Option Item} (h : w.get? path = o) :
      w.valueAt? path = o.map w.store.read := by rw [valueAt?, h]
  refine ⟨v, hv, ?_, ?_, ?_, ?_, ?_⟩
  · rw [(hsides .original).1.valueAt?_eq]
    exact hvalue horiginal
  · rw [(hsides .copy).1.valueAt?_eq]
    exact hvalue hcopy
  · rw [(hsides .original).1.valueAt?_eq]
    exact hvalue hnone
  · rw [(hsides .copy).1.valueAt?_eq]
    exact hvalue hm
  · rw [(hsides .copy).2]
    exact hanswers

end Values

end MeshOperator
