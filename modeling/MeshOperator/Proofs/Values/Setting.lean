import MeshOperator.Proofs.Values.Laying
import MeshOperator.Proofs.Values.Walks

/-!
# Setting a value

Setting a value walks down the path as far as there are mappings. What stands in the way stops the walk before
anything is changed. If nothing does, one node gets an entry, and new mappings lead from there to the value.

* `Store.setPath_of_blocked`: what stands in the way.
* `Store.IsPut`: one node has an entry put into it.
* `Store.IsChain`: new mappings with a key each.
* `Store.exists_setPath`: what setting a value does to the nodes.
* `Values.set_exact`: what it comes to in values of which no node holds itself.
-/

namespace MeshOperator

/-- the keys of a mapping stay where they are when an entry is put into it -/
theorem map_fst_putEntry_prefix (key : String) (value : Item) (es : List (Item × Item)) :
    es.map Prod.fst <+: (putEntry key value es).map Prod.fst := by
  induction es with
  | nil => exact List.nil_prefix
  | cons e es ih =>
    obtain ⟨k, v⟩ := e
    rw [putEntry]
    split
    · exact List.prefix_refl _
    · exact List.cons_prefix_cons.2 ⟨rfl, ih⟩

namespace Store

variable {s t u : Store} {n m : Nat} {i x y value : Item} {key : String}
variable {keys before rest walked : List String} {es : List (Item × Item)}

/-! ### What stands in the way -/

/-- what leads on is a mapping -/
theorem exists_node_of_resolve? (h : s.resolve? i keys = some x) (hkeys : keys ≠ []) :
    ∃ m es, i = .node m ∧ s.entries? m = some es := by
  obtain ⟨k, rest, rfl⟩ := List.exists_cons_of_ne_nil hkeys
  rw [resolve?_cons] at h
  obtain ⟨j, hj, -⟩ := Option.bind_eq_some_iff.1 h
  obtain ⟨es, hes, -⟩ := Option.bind_eq_some_iff.1 hj
  obtain ⟨m, rfl, hcell⟩ := itemEntries?_eq_some.1 hes
  exact ⟨m, es, rfl, hes⟩

/-- what stands in the way stops the walk before anything is changed -/
theorem setPath_of_blocked (h : s.resolve? (.node n) (before ++ [key]) = some i) (hnull : i ≠ .scalar .null)
    (hi : s.itemEntries? i = none) (hrest : rest ≠ []) (walked : List String) (value : Item) :
    s.setPath n walked (before ++ key :: rest) value =
      (s, .error (.ofKind (String.intercalate "." (walked ++ (before ++ [key]))) "mapping" (s.read i))) := by
  induction before generalizing n walked with
  | nil =>
    obtain ⟨m, hm, hchild⟩ := resolve?_concat.1 h
    cases hm
    exact setPath_of_otherwise hrest hchild hnull hi
  | cons k before ih =>
    rw [List.cons_append, resolve?_cons, itemEntries?_node] at h
    obtain ⟨j, hj, hend⟩ := Option.bind_eq_some_iff.1 h
    obtain ⟨m, es, rfl, hes⟩ := exists_node_of_resolve? hend (by simp)
    rw [List.cons_append, setPath_of_node (by simp) hj hes, ih hend, List.append_assoc]
    rfl

/-! ### Stores that differ in one node -/

/-- All nodes of the store `s` but one are in `t` as they were. -/
structure KeepsBut (s t : Store) (m : Nat) : Prop where
  size_le : s.cells.size ≤ t.cells.size
  cell_eq : ∀ n < s.cells.size, n ≠ m → t.cells[n]? = s.cells[n]?

theorem keepsBut_put (s : Store) (m : Nat) (key : String) (x : Item) : s.KeepsBut (s.put m key x) m :=
  ⟨Nat.le_of_eq (size_put ..).symm, fun _ _ hn => getElem?_put_of_ne hn key x⟩

theorem keepsBut_push (s : Store) (c : Cell) (m : Nat) : s.KeepsBut (s.push c).1 m := by
  have hsize : (s.push c).1.cells.size = s.cells.size + 1 := Array.size_push ..
  refine ⟨by omega, fun n hn _ => ?_⟩
  change (s.cells.push c)[n]? = _
  rw [Array.getElem?_push, if_neg (Nat.ne_of_lt hn)]

namespace KeepsBut

/-- a new node may be changed as well -/
theorem trans (h : s.KeepsBut t m) (h' : t.KeepsBut u n) (hn : n = m ∨ s.cells.size ≤ n) : s.KeepsBut u m := by
  have hle := h.size_le
  refine ⟨Nat.le_trans hle h'.size_le, fun k hk hkm => ?_⟩
  have hkn : k ≠ n := by
    rcases hn with rfl | hn
    · exact hkm
    · omega
  rw [h'.cell_eq k (by omega) hkn, h.cell_eq k hk hkm]

theorem entries?_eq (h : s.KeepsBut t m) (hn : n < s.cells.size) (hne : n ≠ m) : t.entries? n = s.entries? n := by
  rw [entries?, entries?, h.cell_eq n hn hne]

/-- what does not reach the node is found again -/
theorem carries (h : s.KeepsBut t m) (hs : s.Sound) : s.Carries t (s.Misses m) id :=
  (hs.closed_misses m).carries_id (fun _ hn => h.cell_eq _ hn.1 (hn.ne .refl)) h.size_le

end KeepsBut

/-- One node has an entry put into it. -/
structure IsPut (s t : Store) (m : Nat) (key : String) (x : Item) : Prop where
  keeps : s.KeepsBut t m
  entries_eq : ∃ es, s.entries? m = some es ∧ t.entries? m = some (putEntry key x es)

namespace IsPut

variable (h : s.IsPut t m key x)
include h

/-- a walk that does not take the key at the node leads where it led before -/
theorem resolve?_eq (hs : s.Sound) (hi : i.Within (· < s.cells.size))
    (hwalk : ∀ keys', keys' ++ [key] <+: keys → s.resolve? i keys' ≠ some (.node m)) :
    t.resolve? i keys = s.resolve? i keys := by
  induction keys generalizing i with
  | nil => rfl
  | cons k keys ih =>
    have hentry : (t.itemEntries? i).bind (entryAt? k) = (s.itemEntries? i).bind (entryAt? k) := by
      cases i with
      | scalar x => rfl
      | node n =>
        rw [itemEntries?, itemEntries?]
        by_cases hn : n = m
        · subst hn
          obtain ⟨es, hes, hput⟩ := h.entries_eq
          have hk : k ≠ key := by
            rintro rfl
            exact hwalk [] (List.cons_prefix_cons.2 ⟨rfl, List.nil_prefix⟩) rfl
          rw [hes, hput, Option.bind_some, Option.bind_some, entryAt?_putEntry_of_ne hk]
        · rw [h.keeps.entries?_eq hi hn]
    rw [resolve?_cons, resolve?_cons, hentry]
    cases hnext : (s.itemEntries? i).bind (entryAt? k) with
    | none => rfl
    | some j =>
      obtain ⟨es, hes, hj⟩ := Option.bind_eq_some_iff.1 hnext
      refine ih (hs.within_entryAt? hi hes hj) fun keys' hkeys' => ?_
      have hlonger := hwalk (k :: keys') (List.cons_prefix_cons.2 ⟨rfl, hkeys'⟩)
      rwa [resolve?_cons, hnext] at hlonger

/-- the keys of all mappings stay where they are -/
theorem exists_entries (hn : s.entries? n = some es) :
    ∃ es', t.entries? n = some es' ∧ es.map Prod.fst <+: es'.map Prod.fst := by
  by_cases hne : n = m
  · subst hne
    obtain ⟨es', hes, hput⟩ := h.entries_eq
    cases hn.symm.trans hes
    exact ⟨_, hput, map_fst_putEntry_prefix key x es⟩
  · exact ⟨es, (h.keeps.entries?_eq (lt_of_entries? hn) hne).trans hn, List.prefix_refl _⟩

theorem child?_self : t.child? m key = some x := by
  obtain ⟨es, -, hput⟩ := h.entries_eq
  rw [child?, hput, Option.bind_some, entryAt?_putEntry_self]

/-- new nodes may be changed later -/
theorem of_keepsBut (hu : t.KeepsBut u n) (hn : s.cells.size ≤ n) : s.IsPut u m key x := by
  obtain ⟨es, hes, hput⟩ := h.entries_eq
  have hlt := lt_of_entries? hes
  have hle := h.keeps.size_le
  exact ⟨h.keeps.trans hu (.inr hn), es, hes, (hu.entries?_eq (by omega) (by omega)).trans hput⟩

end IsPut

theorem isPut_put (hes : s.entries? m = some es) : s.IsPut (s.put m key x) m key x :=
  ⟨keepsBut_put .., es, hes, entries?_put_self hes⟩

/-! ### New mappings -/

theorem isPut_putNew (hes : s.entries? n = some es) (key : String) :
    s.IsPut (s.putNew n key) n key (.node s.cells.size) :=
  ⟨(keepsBut_push s _ n).trans (keepsBut_put ..) (.inl rfl), es, hes, entries?_putNew_self hes⟩

/-- The keys lead from an item to another, and no keys apart from them lead anywhere. -/
structure IsChain (t : Store) (x : Item) (keys : List String) (value : Item) : Prop where
  leads : t.resolve? x keys = some value
  alone : ∀ keys', ¬ keys' <+: keys → ¬ keys <+: keys' → t.resolve? x keys' = none

theorem isChain_nil (t : Store) (x : Item) : t.IsChain x [] x :=
  ⟨rfl, fun _ _ h => absurd List.nil_prefix h⟩

theorem IsChain.cons (h : t.IsChain y keys value) (hm : t.entries? m = some [(.scalar (.text key), y)]) :
    t.IsChain (.node m) (key :: keys) value := by
  have hentry : entryAt? key [(.scalar (.text key), y)] = some y := by rw [entryAt?, if_pos rfl]
  constructor
  · rw [resolve?_cons, itemEntries?, hm, Option.bind_some, hentry, Option.bind_some, h.leads]
  · intro keys' hbegin hextends
    cases keys' with
    | nil => exact absurd List.nil_prefix hbegin
    | cons k keys' =>
      rw [resolve?_cons, itemEntries?, hm, Option.bind_some]
      by_cases hk : k = key
      · subst hk
        rw [hentry, Option.bind_some]
        exact h.alone keys' (fun hp => hbegin (List.cons_prefix_cons.2 ⟨rfl, hp⟩))
          fun hp => hextends (List.cons_prefix_cons.2 ⟨rfl, hp⟩)
      · have hne : ¬ Item.scalar (.text key) = .scalar (.text k) := fun he => by
          cases he
          exact hk rfl
        rw [entryAt?, if_neg hne]
        rfl

/-- in an empty mapping a chain of new ones is made -/
theorem exists_chain (hm : s.entries? m = some []) (hkeys : keys ≠ []) (walked : List String) (value : Item) :
    ∃ t, s.setPath m walked keys value = (t, .ok ()) ∧ s.KeepsBut t m ∧ t.IsChain (.node m) keys value := by
  induction keys generalizing s m walked with
  | nil => exact absurd rfl hkeys
  | cons key keys ih =>
    cases keys with
    | nil =>
      refine ⟨s.put m key value, rfl, keepsBut_put .., (isChain_nil _ value).cons ?_⟩
      rw [entries?_put_self hm]
      rfl
    | cons key' rest =>
      have habsent : s.child? m key = none := by
        rw [child?, hm]
        rfl
      obtain ⟨t, hset, hkeeps, hchain⟩ :=
        ih (entries?_putNew hm key) (List.cons_ne_nil key' rest) (walked ++ [key])
      have hput := (isPut_putNew hm key).of_keepsBut hkeeps (Nat.le_refl _)
      refine ⟨t, ?_, hput.keeps, hchain.cons ?_⟩
      · rw [setPath_of_new (List.cons_ne_nil key' rest) (.inl habsent), hset]
      · obtain ⟨es, hes, hentries⟩ := hput.entries_eq
        cases hm.symm.trans hes
        exact hentries

/-! ### The whole path -/

/-- The value is set: mappings lead to the node `m`, which has `x` put into it under `key`, and from there new
mappings lead to the value, if the path goes on. -/
structure Sets (s t : Store) (n : Nat) (before : List String) (key : String) (rest : List String) (m : Nat)
    (x value : Item) : Prop where
  walk : s.resolve? (.node n) before = some (.node m)
  free : rest = [] ∨ s.child? m key = none ∨ s.child? m key = some (.scalar .null)
  put : s.IsPut t m key x
  chain : t.IsChain x rest value

/-- where nothing stands in the way the value is set -/
theorem exists_setPath (hn : ∃ es, s.entries? n = some es) (hkeys : keys ≠ [])
    (hfree : ∀ before key rest i, keys = before ++ key :: rest → rest ≠ [] →
      s.resolve? (.node n) (before ++ [key]) = some i → i = .scalar .null ∨ ∃ es, s.itemEntries? i = some es)
    (walked : List String) (value : Item) :
    ∃ t before key rest m x, s.setPath n walked keys value = (t, .ok ()) ∧ keys = before ++ key :: rest ∧
      s.Sets t n before key rest m x value := by
  induction keys generalizing n walked with
  | nil => exact absurd rfl hkeys
  | cons key keys ih =>
    obtain ⟨es, hes⟩ := hn
    by_cases hrest : keys = []
    · subst hrest
      exact ⟨_, [], key, [], n, value, rfl, rfl, rfl, .inl rfl, isPut_put hes, isChain_nil _ value⟩
    · by_cases hnew : s.child? n key = none ∨ s.child? n key = some (.scalar .null)
      · obtain ⟨t, hset, hkeeps, hchain⟩ :=
          exists_chain (entries?_putNew hes key) hrest (walked ++ [key]) value
        refine ⟨t, [], key, keys, n, .node s.cells.size, ?_, rfl, rfl, .inr hnew, ?_, hchain⟩
        · rw [setPath_of_new hrest hnew, hset]
        · exact (isPut_putNew hes key).of_keepsBut hkeeps (Nat.le_refl _)
      · rw [not_or] at hnew
        obtain ⟨i, hi⟩ := Option.ne_none_iff_exists'.1 hnew.1
        have hfirst : s.resolve? (.node n) ([] ++ [key]) = some i := resolve?_concat.2 ⟨n, rfl, hi⟩
        rcases hfree [] key keys i rfl hrest hfirst with rfl | ⟨es', hes'⟩
        · exact absurd hi hnew.2
        · obtain ⟨m, rfl, -⟩ := itemEntries?_eq_some.1 hes'
          have hwalk {keys' : List String} : s.resolve? (.node n) (key :: keys') = s.resolve? (.node m) keys' := by
            rw [resolve?_cons, itemEntries?_node, hi, Option.bind_some]
          obtain ⟨t, before, key', rest, m', x, hset, hsplit, hsets⟩ :=
            ih ⟨es', hes'⟩ hrest (fun before key' rest j hsplit hne hj => hfree (key :: before) key' rest j
              (by rw [hsplit]; rfl) hne (by rwa [List.cons_append, hwalk])) (walked ++ [key])
          refine ⟨t, key :: before, key', rest, m', x, ?_, by rw [hsplit]; rfl, ?_, hsets.free, hsets.put,
            hsets.chain⟩
          · rw [setPath_of_node hrest hi hes', hset]
          · rw [hwalk, hsets.walk]

/-- items that were made together read as before where their nodes are as they were -/
theorem Stacks.carries {is : List Item} (h : s.Stacks t is) (hsize : t.cells.size ≤ u.cells.size)
    (hcell : ∀ n, s.cells.size ≤ n ∧ n < t.cells.size → u.cells[n]? = t.cells[n]?) :
    t.Carries u (fun n => s.cells.size ≤ n ∧ n < t.cells.size) id := by
  refine Closed.carries_id ⟨fun n hn => ?_⟩ hcell hsize
  have hget : t.cells[n]? = some t.cells[n] := Array.getElem?_eq_some_iff.2 ⟨hn.2, rfl⟩
  exact ⟨_, hget, fun i hi => (h.below n _ hn.1 hget i hi).mono fun m hm => ⟨hm.1, Nat.lt_trans hm.2 hn.2⟩⟩

end Store

namespace Values

variable {v : Values} {t : Store} {path p q : String} {i j x : Item} {value : Data} {m : Nat}
variable {before rest : List String} {key : String}

/-! ### Blocked paths -/

/-- Something other than null and mappings stands at a path with which another path begins. -/
structure Blocks (v : Values) (path p : String) (i : Item) : Prop where
  begins : pathKeys p <+: pathKeys path
  proper : pathKeys p ≠ pathKeys path
  stands : v.get? p = some i
  not_null : i ≠ .scalar .null
  not_mapping : v.store.itemEntries? i = none

/-- nothing stands beyond what stands in the way -/
theorem Blocks.prefix (h : v.Blocks path p i) (h' : v.Blocks path q j) : pathKeys p <+: pathKeys q := by
  rcases List.prefix_or_prefix_of_prefix h.begins h'.begins with hp | ⟨rest, hp⟩
  · exact hp
  · by_cases hrest : rest = []
    · rw [hrest, List.append_nil] at hp
      exact hp ▸ List.prefix_refl _
    · have hi := h.stands
      have hj := h'.stands
      rw [get?] at hi hj
      rw [← hp, Store.resolve?_append, hj, Option.bind_some] at hi
      obtain ⟨n, es, rfl, hes⟩ := Store.exists_node_of_resolve? hi hrest
      cases h'.not_mapping.symm.trans hes

theorem set_of_blocks (hv : v.IsSound) (h : v.Blocks path p i) :
    v.set path value =
      (⟨(v.store.add value).1, v.root⟩, .error (.ofKind p "mapping" (v.store.read i))) := by
  have hcarries := (v.store.grows_add value).carries hv.store
  have hwithin := hv.within_get? h.stands
  obtain ⟨rest, hpath⟩ := h.begins
  have hrest : rest ≠ [] := by
    rintro rfl
    exact h.proper (by rwa [List.append_nil] at hpath)
  obtain ⟨before, key, hkeys⟩ : ∃ before key, pathKeys p = before ++ [key] := by
    rcases List.eq_nil_or_concat (pathKeys p) with hnil | ⟨before, key, hkeys⟩
    · exact absurd hnil (pathKeys_ne_nil p)
    · exact ⟨before, key, by rw [hkeys, List.concat_eq_append]⟩
  have hstands : (v.store.add value).1.resolve? (.node v.root) (before ++ [key]) = some i := by
    rw [hcarries.resolve?_eq (i := .node v.root) hv.root_lt, ← hkeys]
    exact h.stands
  have hentries := (hcarries.itemEntries?_eq hwithin).trans h.not_mapping
  have hset := Store.setPath_of_blocked hstands h.not_null hentries hrest [] (v.store.add value).2
  rw [set, ← hpath, hkeys, List.append_assoc, List.singleton_append]
  dsimp only
  rw [hset, List.nil_append, ← hkeys, intercalate_pathKeys, hcarries.read_eq hwithin]

/-! ### Where nothing stands in the way -/

/-- the value is set, and its nodes are as they were made -/
theorem exists_set (hv : v.IsSound) (h : ∀ p i, ¬ v.Blocks path p i) (value : Data) :
    ∃ t before key rest m x, v.set path value = (⟨t, v.root⟩, .ok ()) ∧ pathKeys path = before ++ key :: rest ∧
      v.store.Sets t v.root before key rest m x (v.store.add value).2 ∧ (v.store.add value).1.KeepsBut t m := by
  have hgrows := v.store.grows_add value
  have hcarries := hgrows.carries hv.store
  have hroot := hv.root_lt
  have hsame {n : Nat} (hn : n < v.store.cells.size) :
      (v.store.add value).1.entries? n = v.store.entries? n := by
    rw [Store.entries?, Store.entries?, hgrows.cell_eq n hn]
  have hfree (before : List String) (key : String) (rest : List String) (i : Item)
      (hpath : pathKeys path = before ++ key :: rest) (hrest : rest ≠ [])
      (hi : (v.store.add value).1.resolve? (.node v.root) (before ++ [key]) = some i) :
      i = .scalar .null ∨ ∃ es, (v.store.add value).1.itemEntries? i = some es := by
    rw [hcarries.resolve?_eq (i := .node v.root) hroot] at hi
    have hbegins : before ++ [key] <+: pathKeys path := ⟨rest, by rw [hpath]; simp⟩
    obtain ⟨p, hp⟩ := exists_pathKeys_eq (by simp) hbegins
    rw [← hp] at hi hbegins
    rw [hcarries.itemEntries?_eq (hv.within_get? hi)]
    by_contra hother
    rw [not_or] at hother
    refine h p i ⟨hbegins, ?_, hi, hother.1, ?_⟩
    · rw [hp, hpath]
      simpa using Ne.symm hrest
    · exact Option.eq_none_iff_forall_ne_some.2 fun es hes => hother.2 ⟨es, hes⟩
  obtain ⟨top, htop⟩ := hv.root
  obtain ⟨t, before, key, rest, m, x, hset, hpath, hsets⟩ := Store.exists_setPath
    ⟨top, (hsame hroot).trans htop⟩ (pathKeys_ne_nil path) hfree [] (v.store.add value).2
  have hwalk := hsets.walk
  rw [hcarries.resolve?_eq (i := .node v.root) hroot] at hwalk
  have hm : m < v.store.cells.size := hv.store.within_resolve? (i := .node v.root) hroot hwalk
  obtain ⟨es, hes, hput⟩ := hsets.put.entries_eq
  refine ⟨t, before, key, rest, m, x, ?_, hpath, ⟨hwalk, ?_, ⟨⟨?_, fun n hn hne => ?_⟩, es, ?_, hput⟩,
    hsets.chain⟩, hsets.put.keeps⟩
  · rw [set]
    dsimp only
    rw [hset]
  · have hfree := hsets.free
    rwa [Store.child?, hsame hm] at hfree
  · exact Nat.le_trans hgrows.size_le hsets.put.keeps.size_le
  · rw [hsets.put.keeps.cell_eq n (Nat.lt_of_lt_of_le hn hgrows.size_le) hne, hgrows.cell_eq n hn]
  · rwa [hsame hm] at hes

section Sets

variable {result : Item} (hv : v.IsSound) (hkeys : pathKeys path = before ++ key :: rest)
variable (h : v.store.Sets t v.root before key rest m x result)
include hv h

theorem resolve?_of_sets (ha : v.IsAcyclic) (keys : List String) :
    t.resolve? (.node v.root) (before ++ key :: keys) = t.resolve? x keys := by
  have hwalk : t.resolve? (.node v.root) before = some (.node m) := by
    rw [h.put.resolve?_eq hv.store (i := .node v.root) hv.root_lt fun keys' hkeys' =>
      ha.resolve?_ne h.walk hkeys', h.walk]
  rw [Store.resolve?_append, hwalk, Option.bind_some, Store.resolve?_cons, Store.itemEntries?_node,
    h.put.child?_self, Option.bind_some]

include hkeys

/-- the value is found at the path -/
theorem get?_of_sets (ha : v.IsAcyclic) : (⟨t, v.root⟩ : Values).get? path = some result := by
  rw [get?, hkeys, resolve?_of_sets hv h ha, h.chain.leads]

/-- in a tree, all paths apart lead where they led before -/
theorem get?_of_isApart (ht : v.IsTree) (hapart : IsApart path q) :
    (⟨t, v.root⟩ : Values).get? q = v.get? q := by
  rw [get?, get?]
  by_cases hcross : before ++ [key] <+: pathKeys q
  · obtain ⟨keys, hq⟩ := hcross
    rw [List.append_assoc, List.singleton_append] at hq
    obtain ⟨hbegin, hextends⟩ := hapart
    rw [hkeys, ← hq, List.prefix_append_right_inj, List.cons_prefix_cons] at hbegin hextends
    have hnew : ¬ rest <+: keys := fun hp => hbegin ⟨rfl, hp⟩
    have hold : ¬ keys <+: rest := fun hp => hextends ⟨rfl, hp⟩
    -- both before and after, nothing stands there
    rw [← hq, resolve?_of_sets hv h (ht.isAcyclic hv), h.chain.alone keys hold hnew,
      Store.resolve?_append, h.walk, Option.bind_some, Store.resolve?_of_child?_fresh]
    · exact h.free.resolve_left fun hrest => hnew (hrest ▸ List.nil_prefix)
    · rintro rfl
      exact hold List.nil_prefix
  · refine h.put.resolve?_eq hv.store (i := .node v.root) hv.root_lt fun keys' hkeys' hm => hcross ?_
    rwa [ht.keys_eq hv h.walk hm]

/-- and what they lead to reads as before -/
theorem valueAt?_of_isApart (ht : v.IsTree) (hapart : IsApart path q) :
    (⟨t, v.root⟩ : Values).valueAt? q = v.valueAt? q := by
  rw [valueAt?, valueAt?, get?_of_isApart hv hkeys h ht hapart]
  cases hi : v.get? q with
  | none => rfl
  | some i =>
    have hbeside : ¬ pathKeys q <+: before := fun hp => hapart.not_extension (by
      rw [hkeys]
      exact hp.trans (List.prefix_append ..))
    have hmisses := Store.within_misses (hv.within_get? hi) (ht.not_reaches hv h.walk hi hbeside)
    exact congrArg some ((h.put.keeps.carries hv.store).read_eq hmisses)

end Sets

/-- the nodes of the value read as it -/
theorem read_value (hv : v.IsSound) (hvalue : value.isWhole = true) (hm : m < v.store.cells.size)
    (ht : (v.store.add value).1.KeepsBut t m) : t.read (v.store.add value).2 = value := by
  have hstacks := v.store.stacks_add value
  have hcarries := hstacks.carries ht.size_le fun n hn => ht.cell_eq n hn.2 (by omega)
  rw [hcarries.read_eq (hstacks.within _ (List.mem_singleton_self _)),
    Store.read_add (hstacks.grows.sound hv.store) v.store value hvalue fun _ _ => rfl]

/-- **Setting.**  A value is not set exactly if something other than null and mappings stands in the way. Then all
nodes stay as they are, and the fault names where it stands, or tells that what stands there is too long to be
written. Otherwise the value is found at the path, all mappings keep their keys in order, and in a tree all paths
apart lead to what they led to before. -/
theorem set_exact (v : Values) (hv : v.IsSound) (hacyclic : v.IsAcyclic) (path : String) (value : Data) :
    (∀ p i, v.Blocks path p i →
      (∀ q j, v.Blocks path q j → pathKeys p <+: pathKeys q) ∧
      ((v.store.read i).isWritable = true →
        (v.set path value).2 = .error (.values p "mapping" (v.store.read i))) ∧
      ((v.store.read i).isWritable = false → (v.set path value).2 = .error (.number .tooLong)) ∧
      (v.set path value).1.root = v.root ∧
      ∀ n < v.store.cells.size, (v.set path value).1.store.cells[n]? = v.store.cells[n]?) ∧
    ((∀ p i, ¬ v.Blocks path p i) → ∃ w, v.set path value = (w, .ok ()) ∧ w.root = v.root ∧
      (∃ i, w.get? path = some i ∧ (value.isWhole = true → w.store.read i = value)) ∧
      (∀ n es, v.store.entries? n = some es →
        ∃ es', w.store.entries? n = some es' ∧ es.map Prod.fst <+: es'.map Prod.fst) ∧
      (v.IsTree → ∀ q, IsApart path q → w.get? q = v.get? q ∧ w.valueAt? q = v.valueAt? q)) := by
  refine ⟨fun p i h => ?_, fun h => ?_⟩
  · rw [set_of_blocks hv h]
    refine ⟨fun q j => h.prefix, fun hwritable => ?_, fun hlong => ?_, rfl, (v.store.grows_add value).cell_eq⟩
    · exact congrArg Except.error (if_pos hwritable)
    · exact congrArg Except.error (if_neg (by rw [hlong]; exact Bool.false_ne_true))
  · obtain ⟨t, before, key, rest, m, x, hset, hkeys, hsets, hkeeps⟩ := exists_set hv h value
    obtain ⟨es, hes, -⟩ := hsets.put.entries_eq
    refine ⟨_, hset, rfl, ⟨_, get?_of_sets hv hkeys hsets hacyclic, fun hvalue => ?_⟩,
      fun n es hn => hsets.put.exists_entries hn, fun ht q hapart => ⟨?_, ?_⟩⟩
    · exact read_value hv hvalue (Store.lt_of_entries? hes) hkeeps
    · exact get?_of_isApart hv hkeys hsets ht hapart
    · exact valueAt?_of_isApart hv hkeys hsets ht hapart

/-- where nothing stands under the first key, nothing stands in the way -/
theorem not_blocks_of_absent {first : String} (hkeys : pathKeys path = first :: rest)
    (h : v.store.child? v.root first = none) (p : String) (i : Item) : ¬ v.Blocks path p i := by
  rintro ⟨hbegins, -, hstands, -, -⟩
  obtain ⟨k, keys, hp⟩ := List.exists_cons_of_ne_nil (pathKeys_ne_nil p)
  rw [hkeys, hp, List.cons_prefix_cons] at hbegins
  rw [get?, hp, Store.resolve?_cons, Store.itemEntries?_node, hbegins.1, h] at hstands
  cases hstands

/-- a number stands in the way of one value, and nothing in the way of another -/
theorem set_pilots : ∃ v, ofRaw pilots = .ok v ∧
    (v.set "pilot.replicas.max" (.int 5)).2 = .error (.values "pilot.replicas" "mapping" (.int 2)) ∧
    ∃ w i, v.set "global.proxy" (.text "sidecar") = (w, .ok ()) ∧ w.get? "global.proxy" = some i ∧
      w.store.read i = .text "sidecar" := by
  have hv := isSound_ofEntries [(.text "pilot", .object [("replicas", .int 2)])]
  have ha := (isTree_ofEntries [(.text "pilot", .object [("replicas", .int 2)])]).isAcyclic hv
  refine ⟨_, rfl, ?_, ?_⟩
  · have hblocks : (ofEntries [(.text "pilot", .object [("replicas", .int 2)])]).Blocks "pilot.replicas.max"
        "pilot.replicas" (.scalar (.int 2)) :=
      ⟨by decide, by decide, by decide +kernel, by decide, rfl⟩
    exact ((set_exact _ hv ha "pilot.replicas.max" (.int 5)).1 _ _ hblocks).2.1 (by decide)
  · have hkeys : pathKeys "global.proxy" = ["global", "proxy"] := by decide
    obtain ⟨w, hset, -, ⟨i, hi, hread⟩, -, -⟩ := (set_exact _ hv ha "global.proxy" (.text "sidecar")).2
      (not_blocks_of_absent hkeys (by decide +kernel))
    exact ⟨w, i, hset, hi, hread rfl⟩

/-- an integer with too many digits to be written in base ten -/
def longInteger : Int := Nat.pow 16 3600 - 1

/-- Such an integer stands in the way, and the fault does not say where. -/
theorem set_longInteger : ∃ v, ofRaw (.dict [(.text "global", .int longInteger)]) = .ok v ∧ v.IsSound ∧
    v.IsAcyclic ∧ v.Blocks "global.istioNamespace" "global" (.scalar (.int longInteger)) ∧
    ∀ p expected actual,
      (v.set "global.istioNamespace" (.text "istio-system")).2 ≠ .error (.values p expected actual) := by
  have hv := isSound_ofEntries [(.text "global", .int longInteger)]
  have hblocks : (ofEntries [(.text "global", .int longInteger)]).Blocks "global.istioNamespace" "global"
      (.scalar (.int longInteger)) :=
    ⟨by decide, by decide, by decide +kernel, by simp, rfl⟩
  have hlong : (Data.int longInteger).isWritable = false := by decide +kernel
  refine ⟨_, rfl, hv, (isTree_ofEntries _).isAcyclic hv, hblocks, fun p expected actual => ?_⟩
  rw [set_of_blocks hv hblocks]
  intro h
  have hfault : Fault.ofKind "global" "mapping" (Data.int longInteger) = .number .tooLong :=
    if_neg (by rw [hlong]; exact Bool.false_ne_true)
  cases (Except.error.inj h).symm.trans hfault

end Values

end MeshOperator
