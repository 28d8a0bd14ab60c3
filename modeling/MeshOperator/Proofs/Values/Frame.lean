import MeshOperator.Proofs.Values.Override

/-!
# What the override of the namespace leaves as it is

The values that are given read as before. In the effective values, what does not reach the node that was
changed reads as before, and what does reach it does not. Values read from YAML may hold the mapping at
`global` in other places too, where the namespace then shows as well.

* `Values.Keeps`: at all other paths, values read as other values do.
* `Values.SharesGlobal`: the mapping at `global` is reached from another path.
* `Values.keeps_iff`: the override changes nothing else exactly if it is not, or the namespace stood
  there before.
-/

namespace MeshOperator

/-! ### Walks that do not take a key at a node -/

namespace Store

variable {s t : Store} {g : Nat} {key : String} {value : Item} {es : List (Item × Item)}

/-- The copy of a node has an entry put into it, the copies of the others are as they were. -/
structure Alters (s t : Store) (g : Nat) (key : String) (value : Item) : Prop where
  sound : s.Sound
  doubles : s.Doubles t (· ≠ g)
  changed : ∃ es, s.entries? g = some es ∧ t.entries? (g + s.cells.size) =
    some (putEntry key value
      (es.map fun e => (e.1.rename (· + s.cells.size), e.2.rename (· + s.cells.size))))

namespace Alters

variable (h : s.Alters t g key value)
include h

/-- a walk that does not take the key at the node leads to the copy of where it led before -/
theorem resolve?_rename {keys : List String} {i : Item} (hi : i.Within (· < s.cells.size))
    (hwalk : ∀ keys', keys' ++ [key] <+: keys → s.resolve? i keys' ≠ some (.node g)) :
    t.resolve? (i.rename (· + s.cells.size)) keys =
      (s.resolve? i keys).map (Item.rename (· + s.cells.size)) := by
  induction keys generalizing i with
  | nil => rfl
  | cons k keys ih =>
    have hentry : (t.itemEntries? (i.rename (· + s.cells.size))).bind (entryAt? k) =
        ((s.itemEntries? i).bind (entryAt? k)).map (Item.rename (· + s.cells.size)) := by
      cases i with
      | scalar x => rfl
      | node n =>
        simp only [Item.rename, itemEntries?]
        by_cases hn : n = g
        · subst hn
          obtain ⟨es, hes, hcopy⟩ := h.changed
          have hk : k ≠ key := by
            rintro rfl
            exact hwalk [] (List.cons_prefix_cons.2 ⟨rfl, List.nil_prefix⟩) rfl
          rw [hes, hcopy, Option.bind_some, Option.bind_some, entryAt?_putEntry_of_ne hk,
            entryAt?_rename]
        · rw [h.doubles.entries?_copy hi hn]
          cases s.entries? n with
          | none => rfl
          | some es => exact entryAt?_rename _ _ es
    rw [resolve?_cons, resolve?_cons, hentry]
    cases hnext : (s.itemEntries? i).bind (entryAt? k) with
    | none => rfl
    | some j =>
      obtain ⟨es, hes, hj⟩ := Option.bind_eq_some_iff.1 hnext
      refine ih (h.sound.within_entryAt? hi hes hj) fun keys' hkeys' => ?_
      have hlonger := hwalk (k :: keys') (List.cons_prefix_cons.2 ⟨rfl, hkeys'⟩)
      rwa [resolve?_cons, hnext] at hlonger

/-- what does not reach the node reads as before -/
theorem read_rename {i : Item} (hi : i.Within (· < s.cells.size)) (hreach : ¬ s.Reaches i (.node g)) :
    t.read (i.rename (· + s.cells.size)) = s.read i :=
  (h.doubles.carries_misses h.sound).read_rename (within_misses hi hreach)

end Alters

/-! ### What reaches the node -/

/-- An item reaches another without passing the nodes `above`. -/
def ReachesBeside (s : Store) (above : List Nat) : Item → Item → Prop :=
  Relation.ReflTransGen fun i j => s.Holds i j ∧ ∀ n ∈ above, i ≠ .node n

/-- Once a node is passed it need not be passed again. -/
theorem ReachesBeside.exists_next {above : List Nat} {n : Nat}
    (h : s.ReachesBeside above (.node n) (.node g)) (hne : n ≠ g) :
    n ∉ above ∧ ∃ cell, s.cells[n]? = some cell ∧
      ∃ j ∈ cell.items, s.ReachesBeside (n :: above) j (.node g) := by
  -- from each item of the walk one comes to the end without passing `n`, or from an item in `n`
  have hwalk : ∀ i, s.ReachesBeside above i (.node g) → s.ReachesBeside (n :: above) i (.node g) ∨
      ∃ j, s.Holds (.node n) j ∧ s.ReachesBeside (n :: above) j (.node g) := by
    intro i hi
    induction hi using Relation.ReflTransGen.head_induction_on with
    | refl => exact .inl .refl
    | @head i j hstep _ ih =>
      rcases ih with hj | hlater
      · by_cases hi : i = .node n
        · rw [hi] at hstep
          exact .inr ⟨j, hstep.1, hj⟩
        · refine .inl (.head ⟨hstep.1, ?_⟩ hj)
          exact List.forall_mem_cons.2 ⟨hi, hstep.2⟩
      · exact .inr hlater
  have hstart {above : List Nat} (h : s.ReachesBeside above (.node n) (.node g)) : n ∉ above := by
    intro hn
    rcases Relation.ReflTransGen.cases_head h with he | ⟨j, hstep, -⟩
    · cases he
      exact hne rfl
    · exact hstep.2 n hn rfl
  refine ⟨hstart h, ?_⟩
  rcases hwalk _ h with hagain | ⟨j, ⟨m, cell, hm, hcell, hj⟩, hrest⟩
  · exact absurd (List.mem_cons_self ..) (hstart hagain)
  · cases hm
    exact ⟨cell, hcell, j, hj, hrest⟩

theorem readFrom_eq_text {fuel : Nat} {above : List Nat} {i : Item} {x : String}
    (h : s.readFrom fuel above i = .text x) : i = .scalar (.text x) := by
  cases i with
  | scalar y =>
    rw [readFrom] at h
    cases h
    rfl
  | node n =>
    cases fuel with
    | zero => cases h
    | succ fuel =>
      cases hcell : s.cells[n]? with
      | none =>
        rw [readFrom, hcell] at h
        cases h
      | some cell =>
        rw [readFrom_node hcell] at h
        cases cell <;> cases hn : above.contains n <;> rw [hn] at h <;> cases h

/-- Entries read the same after one was put among them only if the one that stood there read so. -/
theorem exists_entryAt?_of_map_putEntry {f : Nat → Nat} {F G : Item → Data}
    (h : (putEntry key value (es.map fun e => (e.1.rename f, e.2.rename f))).map
      (fun e => (F e.1, F e.2)) = es.map fun e => (G e.1, G e.2)) :
    ∃ i, entryAt? key es = some i ∧ G i = F value := by
  induction es with
  | nil => cases h
  | cons e es ih =>
    obtain ⟨k, v⟩ := e
    by_cases hk : k = .scalar (.text key)
    · have hk' : k.rename f = .scalar (.text key) := Item.rename_eq_scalar.2 hk
      rw [List.map_cons, putEntry, if_pos hk', List.map_cons, List.map_cons] at h
      have hhead := (List.cons.inj h).1
      refine ⟨v, by rw [entryAt?, if_pos hk], ?_⟩
      exact (Prod.mk.inj hhead).2.symm
    · have hk' : ¬ k.rename f = .scalar (.text key) := fun he => hk (Item.rename_eq_scalar.1 he)
      rw [List.map_cons, putEntry, if_neg hk', List.map_cons, List.map_cons] at h
      obtain ⟨i, hi, hread⟩ := ih (List.cons.inj h).2
      exact ⟨i, by rw [entryAt?, if_neg hk, hi], hread⟩

/-- what reaches the node reads differently, unless the text that was put there stood there before -/
theorem Alters.readFrom_rename_ne {x : String} (h : s.Alters t g key (.scalar (.text x)))
    (hnew : s.child? g key ≠ some (.scalar (.text x))) {fuel : Nat} {above : List Nat} {i : Item}
    (hi : i.Within (· < s.cells.size)) (hnodup : above.Nodup) (habove : ∀ n ∈ above, n < s.cells.size)
    (hg : g ∉ above) (hroom : s.cells.size < fuel + above.length)
    (hreach : s.ReachesBeside above i (.node g)) :
    t.readFrom fuel (above.map (· + s.cells.size)) (i.rename (· + s.cells.size)) ≠
      s.readFrom fuel above i := by
  have hlength := h.sound.length_le hnodup habove
  induction fuel generalizing above i with
  | zero => omega
  | succ fuel ih =>
    cases i with
    | scalar y =>
      -- a scalar holds nothing
      rcases Relation.ReflTransGen.cases_head hreach with he | ⟨j, ⟨⟨m, cell, hm, -⟩, -⟩, -⟩
      · cases he
      · cases hm
    | node n =>
      have hcopies (hn : n ∉ above) : n + s.cells.size ∉ above.map (· + s.cells.size) := by
        intro hmem
        obtain ⟨m, hm, he⟩ := List.mem_map.1 hmem
        exact hn (Nat.add_right_cancel he ▸ hm)
      by_cases hn : n = g
      · subst hn
        obtain ⟨es, hes, hcopy⟩ := h.changed
        rw [readFrom_node_of_notMem (entries?_eq_some.1 hes) _ hg, Item.rename,
          readFrom_node_of_notMem (entries?_eq_some.1 hcopy) _ (hcopies hg)]
        intro hread
        obtain ⟨i, hentry, hitem⟩ := exists_entryAt?_of_map_putEntry (Data.dict.inj hread)
        have htext := readFrom_eq_text (hitem.trans (by rw [readFrom]))
        rw [child?, hes, Option.bind_some, hentry, htext] at hnew
        exact hnew rfl
      · obtain ⟨hnot, cell, hcell, j, hj, hnext⟩ := hreach.exists_next hn
        have hcopy : t.cells[n + s.cells.size]? = some (cell.rename (· + s.cells.size)) := by
          rw [h.doubles.copy_eq n hi hn, hcell]
          rfl
        rw [readFrom_node_of_notMem hcell _ hnot, Item.rename,
          readFrom_node_of_notMem hcopy _ (hcopies hnot), Cell.readWith_rename]
        intro hread
        have hone := Cell.eq_of_readWith_eq hread j hj
        have hnodup' : (n :: above).Nodup := List.nodup_cons.2 ⟨hnot, hnodup⟩
        have habove' : ∀ m ∈ n :: above, m < s.cells.size := List.forall_mem_cons.2 ⟨hi, habove⟩
        have hg' : g ∉ n :: above := by
          rw [List.mem_cons, not_or]
          exact ⟨fun he => hn he.symm, hg⟩
        have hitems := sound_iff.1 h.sound n cell hcell j hj
        refine ih hitems hnodup' habove' hg' ?_ hnext (h.sound.length_le hnodup' habove') hone
        rw [List.length_cons]
        omega

theorem Alters.read_rename_ne {x : String} (h : s.Alters t g key (.scalar (.text x)))
    (hnew : s.child? g key ≠ some (.scalar (.text x))) {i : Item} (hi : i.Within (· < s.cells.size))
    (hreach : s.Reaches i (.node g)) : t.read (i.rename (· + s.cells.size)) ≠ s.read i := by
  have hroom : s.cells.size < t.cells.size + 1 := by
    have hle := h.doubles.size_le
    omega
  have hbeside : s.ReachesBeside [] i (.node g) :=
    Relation.ReflTransGen.mono (fun _ _ hstep => ⟨hstep, by simp⟩) _ _ hreach
  rw [← h.sound.read_eq hi hroom]
  exact h.readFrom_rename_ne hnew hi List.nodup_nil (by simp) (by simp) (by simpa using hroom) hbeside

end Store

theorem eq_ok_of_toOption {α : Type} {r : Except Fault α} {a : α} (h : r.toOption = some a) :
    r = .ok a := by
  cases r with
  | error f => cases h
  | ok b =>
    cases h
    rfl

namespace Values

variable {v w : Values} {ns : String} {g : Nat}

/-- what stands at a path, as data -/
def valueAt? (v : Values) (path : String) : Option Data := (v.get? path).map v.store.read

/-- At every path apart from that of the namespace, `w` holds what `v` holds. -/
def Keeps (v w : Values) : Prop :=
  ∀ path, IsApart namespacePath path → w.valueAt? path = v.valueAt? path

/-- The mapping at `global` is reached from a path apart from that of the namespace. -/
def SharesGlobal (v : Values) : Prop :=
  ∃ path g i, IsApart namespacePath path ∧ v.get? "global" = some (.node g) ∧
    v.get? path = some i ∧ v.store.Reaches i (.node g)

/-- the values that were given, in the store of those that were made from them -/
def before (v w : Values) : Values := ⟨w.store, v.root⟩

/-! ### The values that were given -/

/-- all nodes of the given values stay -/
theorem exists_doubles (hv : v.IsSound) (hw : v.override (.text ns) = .ok w) :
    ∃ P, v.store.Doubles w.store P := by
  rcases override_eq_ok hv hw with h | ⟨g, h⟩
  · exact ⟨_, h.doubles⟩
  · exact ⟨_, h.doubles⟩

theorem get?_before (hv : v.IsSound) (hw : v.override (.text ns) = .ok w) (path : String) :
    (v.before w).get? path = v.get? path := by
  obtain ⟨P, hdoubles⟩ := exists_doubles hv hw
  exact (hdoubles.carries hv.store).resolve?_eq (i := .node v.root) hv.root_lt _

theorem read_before (hv : v.IsSound) (hw : v.override (.text ns) = .ok w) {i : Item}
    (hi : i.Within (· < v.store.cells.size)) : (v.before w).store.read i = v.store.read i := by
  obtain ⟨P, hdoubles⟩ := exists_doubles hv hw
  exact (hdoubles.carries hv.store).read_eq hi

theorem before_eq (hv : v.IsSound) (hw : v.override (.text ns) = .ok w) :
    (v.before w).toData = v.toData ∧ ∀ path, (v.before w).valueAt? path = v.valueAt? path := by
  refine ⟨read_before hv hw (i := .node v.root) hv.root_lt, fun path => ?_⟩
  rw [valueAt?, valueAt?, get?_before hv hw]
  cases hi : v.get? path with
  | none => rfl
  | some i => exact congrArg some (read_before hv hw (hv.within_get? hi))

/-! ### The namespace -/

theorem get?_namespacePath (v : Values) :
    v.get? namespacePath =
      ((v.get? "global").bind v.store.itemEntries?).bind (entryAt? "istioNamespace") := by
  have hkeys : pathKeys "global" = ["global"] := by decide
  rw [get?, get?, pathKeys_namespacePath, hkeys]
  simp only [Store.resolve?_cons]
  cases (v.store.itemEntries? (.node v.root)).bind (entryAt? "global") with
  | none => rfl
  | some i =>
    simp only [Option.bind_some, Store.resolve?]
    cases (v.store.itemEntries? i).bind (entryAt? "istioNamespace") <;> rfl

theorem IsChanged.alters (hv : v.IsSound) (h : v.IsChanged ns g w) :
    v.store.Alters w.store g "istioNamespace" (.scalar (.text ns)) := by
  have hg : g < v.store.cells.size := hv.within_get? h.mapping
  obtain ⟨es, hes⟩ := h.entries
  refine ⟨hv.store, h.doubles, es, hes, ?_⟩
  rw [h.store_eq]
  refine Store.entries?_put_self ?_
  rw [v.store.doubles_twin.entries?_copy hg trivial, hes]
  rfl

theorem IsChanged.node_root (h : v.IsChanged ns g w) :
    Item.node w.root = (Item.node v.root).rename (· + v.store.cells.size) := by
  rw [h.root_eq]
  rfl

theorem IsFresh.size_twin (v : Values) :
    v.store.twin.cells.size = v.store.cells.size + v.store.cells.size := by
  simp [Store.twin]

theorem IsFresh.entries?_eq (hv : v.IsSound) (h : v.IsFresh ns w) :
    (∃ es, v.store.entries? v.root = some es ∧
      w.store.entries? w.root = some (putEntry "global" (.node v.store.twin.cells.size)
        (es.map fun e => (e.1.rename (· + v.store.cells.size), e.2.rename (· + v.store.cells.size))))) ∧
    w.store.entries? v.store.twin.cells.size =
      some [(.scalar (.text "istioNamespace"), .scalar (.text ns))] := by
  have hlt := hv.root_lt
  have hsize := IsFresh.size_twin v
  have hne : w.root ≠ v.store.twin.cells.size := by
    rw [h.root_eq]
    omega
  rw [h.store_eq]
  constructor
  · obtain ⟨es, hes⟩ := hv.root
    refine ⟨es, hes, ?_⟩
    rw [Store.entries?_put_of_ne hne]
    refine Store.entries?_put_self ?_
    have hpush := v.store.doubles_twin.grows
      (@Store.Grows.push _ _ _ (Store.Grows.nil v.store.twin) (.dict []) rfl)
    rw [h.root_eq, hpush.entries?_copy hlt trivial, hes]
    rfl
  · refine @Store.entries?_put_self _ _ _ _ [] ?_
    rw [Store.entries?_put_of_ne (Ne.symm hne), Store.entries?_eq_some]
    exact Array.getElem?_push_size

theorem get?_namespacePath_override (hv : v.IsSound) (hw : v.override (.text ns) = .ok w) :
    w.get? namespacePath = some (.scalar (.text ns)) := by
  rw [get?_namespacePath, get?_global, Store.child?]
  rcases override_eq_ok hv hw with h | ⟨g, h⟩
  · obtain ⟨⟨es, -, hroot⟩, hnew⟩ := h.entries?_eq hv
    rw [hroot, Option.bind_some, entryAt?_putEntry_self, Option.bind_some, Store.itemEntries?, hnew]
    rfl
  · have halters := h.alters hv
    have hne := ne_root_of_get?_global hv h.mapping
    obtain ⟨es, -, hcopy⟩ := halters.changed
    have hglobal := h.mapping
    rw [get?_global] at hglobal
    obtain ⟨top, htop, hentry⟩ := Option.bind_eq_some_iff.1 hglobal
    rw [h.root_eq, halters.doubles.entries?_copy hv.root_lt (Ne.symm hne), htop, Option.map_some,
      Option.bind_some, entryAt?_rename, hentry, Option.map_some, Option.bind_some, Item.rename,
      Store.itemEntries?, hcopy, Option.bind_some, entryAt?_putEntry_self]

/-! ### All other paths -/

theorem not_reaches_root (hv : v.IsSound) {i : Item} (hi : i ≠ .node v.root) :
    ¬ v.store.Reaches i (.node v.root) := by
  intro hreach
  rcases Relation.ReflTransGen.cases_tail hreach with he | ⟨j, -, hstep⟩
  · exact hi he.symm
  · exact hv.unheld j hstep

theorem not_reaches_root_of_holds (hv : v.IsSound) {i j : Item} (h : v.store.Holds i j) :
    ¬ v.store.Reaches j (.node v.root) := by
  refine not_reaches_root hv ?_
  rintro rfl
  exact hv.unheld i h

/-- a new mapping at `global` shows at no path apart -/
theorem IsFresh.keeps (hv : v.IsSound) (h : v.IsFresh ns w) : v.Keeps w := by
  intro path hapart
  have hcarries := h.doubles.carries_misses hv.store
  obtain ⟨⟨es, hes, hroot⟩, hnew⟩ := h.entries?_eq hv
  obtain ⟨hbegin, hextension⟩ := hapart
  rw [pathKeys_namespacePath] at hbegin hextension
  rw [valueAt?, valueAt?, get?, get?]
  -- the first key leads out of the root
  cases hkeys : pathKeys path with
  | nil =>
    rw [hkeys] at hextension
    exact absurd List.nil_prefix hextension
  | cons key keys =>
    rw [hkeys] at hbegin hextension
    rw [Store.resolve?_cons, Store.resolve?_cons, Store.itemEntries?, Store.itemEntries?, hes, hroot,
      Option.bind_some, Option.bind_some]
    by_cases hkey : key = "global"
    · subst hkey
      cases keys with
      | nil => exact absurd (List.prefix_append ["global"] ["istioNamespace"]) hextension
      | cons next rest =>
        have hnext : next ≠ "istioNamespace" := by
          rintro rfl
          exact hbegin (List.prefix_append ["global", "istioNamespace"] rest)
        have hnot : ¬ Item.scalar (.text "istioNamespace") = .scalar (.text next) := fun he => by
          cases he
          exact hnext rfl
        have habsent := h.absent
        rw [get?_global, Store.child?, hes, Option.bind_some] at habsent
        rw [entryAt?_putEntry_self, Option.bind_some, Store.resolve?_cons, Store.itemEntries?, hnew,
          Option.bind_some, entryAt?, if_neg hnot]
        rcases habsent with habsent | habsent
        · rw [habsent]
          rfl
        · rw [habsent, Option.bind_some, Store.resolve?_cons]
          rfl
    · rw [entryAt?_putEntry_of_ne hkey, entryAt?_rename]
      cases hj : entryAt? key es with
      | none => rfl
      | some j =>
        have hheld : v.store.Holds (.node v.root) j :=
          ⟨v.root, _, rfl, Store.entries?_eq_some.1 hes,
            List.mem_flatMap.2 ⟨_, entryAt?_mem hj, by simp⟩⟩
        have hj : j.Within (v.store.Misses v.root) :=
          Store.within_misses (hv.store.within_entryAt? (i := .node v.root) hv.root_lt hes hj)
            (not_reaches_root_of_holds hv hheld)
        rw [Option.map_some, Option.bind_some, Option.bind_some, hcarries.resolve?_rename hj]
        cases hend : v.store.resolve? j keys with
        | none => rfl
        | some i => exact congrArg some (hcarries.read_rename (hcarries.closed.within_resolve? hj hend))

/-- A path apart whose walk takes the key of the namespace at the mapping at `global` comes to this mapping
by a path apart. -/
theorem exists_apart_of_crossing (hv : v.IsSound) (hglobal : v.get? "global" = some (.node g))
    {path : String} (hapart : IsApart namespacePath path) {keys : List String}
    (hkeys : keys ++ ["istioNamespace"] <+: pathKeys path)
    (hg : v.store.resolve? (.node v.root) keys = some (.node g)) :
    ∃ p, pathKeys p = keys ∧ IsApart namespacePath p ∧ v.get? p = some (.node g) := by
  have hbegin : keys <+: pathKeys path := (List.prefix_append ..).trans hkeys
  have hne : keys ≠ [] := by
    rintro rfl
    cases hg
    exact ne_root_of_get?_global hv hglobal rfl
  obtain ⟨p, rfl⟩ := exists_pathKeys_eq hne hbegin
  obtain ⟨hnot, -⟩ := hapart
  refine ⟨p, rfl, ⟨fun h => hnot (h.trans hbegin), fun h => ?_⟩, hg⟩
  -- the only keys before the namespace's path are that of `global`, and the whole path
  rw [pathKeys_namespacePath] at h hnot
  cases hp : pathKeys p with
  | nil => exact hne hp
  | cons key rest =>
    rw [hp] at h hkeys hbegin
    obtain ⟨rfl, -⟩ := List.cons_prefix_cons.1 h
    cases rest with
    | nil => exact hnot hkeys
    | cons key' rest' =>
      obtain ⟨-, htail⟩ := List.cons_prefix_cons.1 h
      obtain ⟨rfl, hrest⟩ := List.cons_prefix_cons.1 htail
      cases List.prefix_nil.1 hrest
      exact hnot hbegin

/-- where the mapping at `global` is not shared, changing it shows at no path apart -/
theorem IsChanged.keeps (hv : v.IsSound) (h : v.IsChanged ns g w) (hshares : ¬ v.SharesGlobal) :
    v.Keeps w := by
  intro path hapart
  have halters := h.alters hv
  have hget : w.get? path = (v.get? path).map (Item.rename (· + v.store.cells.size)) := by
    rw [get?, h.node_root]
    refine halters.resolve?_rename (i := .node v.root) hv.root_lt fun keys hkeys hg => hshares ?_
    obtain ⟨p, -, hp, hmet⟩ := exists_apart_of_crossing hv h.mapping hapart hkeys hg
    exact ⟨p, g, .node g, hp, h.mapping, hmet, .refl⟩
  rw [valueAt?, valueAt?, hget]
  cases hi : v.get? path with
  | none => rfl
  | some i =>
    refine congrArg some (halters.read_rename (hv.within_get? hi) fun hreach => hshares ?_)
    exact ⟨path, g, i, hapart, h.mapping, hi, hreach⟩

/-- a namespace that stood there before is put in its own place -/
theorem IsChanged.keeps_of_same (hv : v.IsSound) (h : v.IsChanged ns g w)
    (hsame : v.get? namespacePath = some (.scalar (.text ns))) : v.Keeps w := by
  have hdoubles := v.store.doubles_twin
  have hstore : w.store = v.store.twin := by
    have hg : g < v.store.cells.size := hv.within_get? h.mapping
    obtain ⟨es, hes⟩ := h.entries
    have hentries := hdoubles.entries?_copy hg trivial
    rw [get?_namespacePath, h.mapping, Option.bind_some, Store.itemEntries?, hes,
      Option.bind_some] at hsame
    rw [hes, Option.map_some] at hentries
    have hentry := entryAt?_rename (· + v.store.cells.size) "istioNamespace" es
    rw [hsame] at hentry
    rw [h.store_eq]
    exact Store.put_of_entryAt? hentries hentry
  have hcarries := hdoubles.carries_copy hv.store fun _ _ => trivial
  intro path _
  rw [valueAt?, valueAt?, get?, h.node_root, hstore,
    hcarries.resolve?_rename (i := .node v.root) hv.root_lt]
  cases hi : v.get? path with
  | none =>
    rw [get?] at hi
    rw [hi]
    rfl
  | some i =>
    have hread := hcarries.read_rename (hv.within_get? hi)
    rw [get?] at hi
    rw [hi]
    exact congrArg some hread

/-- a shared mapping is reached from a path whose walk does not take the key of the namespace there -/
theorem exists_uncrossed (hv : v.IsSound) (hglobal : v.get? "global" = some (.node g)) {n : Nat}
    {path : String} {i : Item} (hn : (pathKeys path).length ≤ n)
    (hapart : IsApart namespacePath path) (hi : v.get? path = some i)
    (hreach : v.store.Reaches i (.node g)) :
    ∃ p j, IsApart namespacePath p ∧ v.get? p = some j ∧ v.store.Reaches j (.node g) ∧
      ∀ keys, keys ++ ["istioNamespace"] <+: pathKeys p →
        v.store.resolve? (.node v.root) keys ≠ some (.node g) := by
  induction n generalizing path i with
  | zero =>
    have hnil : pathKeys path = [] := List.length_eq_zero_iff.1 (Nat.le_zero.1 hn)
    refine absurd ?_ hapart.not_extension
    rw [hnil]
    exact List.nil_prefix
  | succ n ih =>
    by_cases hcross : ∃ keys, keys ++ ["istioNamespace"] <+: pathKeys path ∧
        v.store.resolve? (.node v.root) keys = some (.node g)
    · obtain ⟨keys, hkeys, hg⟩ := hcross
      obtain ⟨p, rfl, hp, hmet⟩ := exists_apart_of_crossing hv hglobal hapart hkeys hg
      refine ih ?_ hp hmet .refl
      have hlength := hkeys.length_le
      rw [List.length_append, List.length_singleton] at hlength
      omega
    · exact ⟨path, i, hapart, hi, hreach, fun keys hkeys hg => hcross ⟨keys, hkeys, hg⟩⟩

/-- a new namespace shows wherever the mapping at `global` is reached -/
theorem IsChanged.not_keeps (hv : v.IsSound) (h : v.IsChanged ns g w) (hshares : v.SharesGlobal)
    (hnew : v.get? namespacePath ≠ some (.scalar (.text ns))) : ¬ v.Keeps w := by
  obtain ⟨path, g', i, hapart, hg', hi, hreach⟩ := hshares
  cases h.mapping.symm.trans hg'
  obtain ⟨p, j, hp, hj, hreach, hwalk⟩ := exists_uncrossed hv h.mapping (Nat.le_refl _) hapart hi hreach
  have halters := h.alters hv
  have hchild : v.store.child? g "istioNamespace" ≠ some (.scalar (.text ns)) := by
    rw [get?_namespacePath, h.mapping] at hnew
    exact hnew
  intro hkeeps
  have hvalue := hkeeps p hp
  have hget : w.get? p = (v.get? p).map (Item.rename (· + v.store.cells.size)) := by
    rw [get?, h.node_root]
    exact halters.resolve?_rename (i := .node v.root) hv.root_lt hwalk
  rw [valueAt?, valueAt?, hget, hj] at hvalue
  exact halters.read_rename_ne hchild (hv.within_get? hj) hreach (Option.some.inj hvalue)

/-- **Frame.**  From values that were accepted, the override makes values that hold the namespace, and it
leaves the given ones as they are. At all paths apart it changes nothing exactly if the mapping at
`global` is not reached from one of them, or held the namespace before. -/
theorem keeps_iff {raw : Data} (hraw : ofRaw raw = .ok v) (hw : v.override (.text ns) = .ok w) :
    w.get? namespacePath = some (.scalar (.text ns)) ∧
    ((v.before w).toData = v.toData ∧ ∀ path, (v.before w).valueAt? path = v.valueAt? path) ∧
    (v.Keeps w ↔ ¬ v.SharesGlobal ∨ v.get? namespacePath = some (.scalar (.text ns))) := by
  have hv := isSound_of_ofRaw hraw
  refine ⟨get?_namespacePath_override hv hw, before_eq hv hw, ?_⟩
  rcases override_eq_ok hv hw with h | ⟨g, h⟩
  · refine iff_of_true (h.keeps hv) (.inl ?_)
    rintro ⟨path, g, i, -, hglobal, -⟩
    rcases h.absent with habsent | habsent
    · cases hglobal.symm.trans habsent
    · cases hglobal.symm.trans habsent
  · constructor
    · intro hkeeps
      by_cases hshares : v.SharesGlobal
      · refine .inr (Decidable.not_not.1 fun hnew => ?_)
        exact h.not_keeps hv hshares hnew hkeeps
      · exact .inl hshares
    · rintro (hshares | hsame)
      · exact h.keeps hv hshares
      · exact h.keeps_of_same hv hsame

/-- values without a mapping at `global` -/
def pilots : Data := .object [("pilot", .object [("replicas", .int 2)])]

theorem keeps_pilots :
    ∃ v w, ofRaw pilots = .ok v ∧ v.override (.text "istio-system") = .ok w ∧ v.Keeps w := by
  obtain ⟨w, hw⟩ : ∃ w, (ofRaw pilots >>= fun v => v.override (.text "istio-system")) = .ok w :=
    exists_of_isOk (by decide +kernel)
  obtain ⟨v, hv, hw⟩ := bind_eq_ok.1 hw
  refine ⟨v, w, hv, hw, (keeps_iff hv hw).2.2.2 (.inl ?_)⟩
  rintro ⟨path, g, i, -, hglobal, -⟩
  cases hv
  have habsent : (ofEntries [(.text "pilot", .object [("replicas", .int 2)])]).get? "global" = none := by
    decide +kernel
  cases hglobal.symm.trans habsent

/-- values that give the mapping at `global` a second place -/
def anchored : Data := .text "global: &g\n  x: 1\nother: *g\n"

/-- The namespace shows in the second place, where nothing stood before. -/
theorem leaks_anchored :
    ∃ v w, ofRaw anchored = .ok v ∧ v.override (.text "istio-system") = .ok w ∧
      IsApart namespacePath "other.istioNamespace" ∧ v.valueAt? "other.istioNamespace" = none ∧
      w.valueAt? "other.istioNamespace" = some (.text "istio-system") := by
  have hfound : (do
      let v ← ofRaw anchored
      let w ← v.override (.text "istio-system")
      return (v.get? "other.istioNamespace", w.get? "other.istioNamespace") :
        Except Fault (Option Item × Option Item)).toOption =
      some (none, some (.scalar (.text "istio-system"))) := by decide +kernel
  obtain ⟨v, hv, hrest⟩ := bind_eq_ok.1 (eq_ok_of_toOption hfound)
  obtain ⟨w, hw, hend⟩ := bind_eq_ok.1 hrest
  have hboth := Prod.mk.inj (Except.ok.inj hend)
  refine ⟨v, w, hv, hw, ⟨by decide, by decide⟩, ?_, ?_⟩
  · rw [valueAt?, hboth.1]
    rfl
  · rw [valueAt?, hboth.2]
    rfl

end Values

end MeshOperator
