import MeshOperator.Proofs.Values.Graph
import MeshOperator.Values.Decode

/-!
# Values are sound

A store grows when data or the nodes of a document are put into it, and a node is only given items that
are there already. So what values are read into is sound, and nothing holds the node at their root.

* `Store.Grows`: a store after some items were made in it.
* `Yaml.Builder.Leads`: a document partly turned into a store, some items later.
* `Values.IsSound`: the invariant of values.
* `Values.isSound_of_ofRaw`: all values that are accepted are sound.
-/

namespace MeshOperator

namespace Store

variable {s t u : Store} {is js : List Item}

theorem sound_iff : s.Sound ↔
    ∀ (n : Nat) (cell : Cell), s.cells[n]? = some cell →
      ∀ i ∈ cell.items, i.Within (· < s.cells.size) := by
  constructor
  · intro h n cell hcell
    obtain ⟨cell', hcell', hitems⟩ := h.exists_cell n (Array.getElem?_eq_some_iff.1 hcell).1
    cases hcell.symm.trans hcell'
    exact hitems
  · intro h
    refine ⟨fun n hn => ?_⟩
    have hcell : s.cells[n]? = some s.cells[n] := Array.getElem?_eq_some_iff.2 ⟨hn, rfl⟩
    exact ⟨_, hcell, h n _ hcell⟩

theorem sound_empty : empty.Sound := sound_iff.2 fun n cell hcell => by
  simp [empty] at hcell

/-- The store `t` is `s` with the items `is` made in it. -/
structure Grows (s t : Store) (is : List Item) : Prop where
  size_le : s.cells.size ≤ t.cells.size
  cell_eq : ∀ n < s.cells.size, t.cells[n]? = s.cells[n]?
  sound : s.Sound → t.Sound
  within : ∀ i ∈ is, i.Within (· < t.cells.size)

namespace Grows

theorem refl (s : Store) (x : Scalar) : s.Grows s [.scalar x] :=
  ⟨Nat.le_refl _, fun _ _ => rfl, id, by simp [Item.Within]⟩

theorem nil (s : Store) : s.Grows s [] := ⟨Nat.le_refl _, fun _ _ => rfl, id, by simp⟩

theorem append (h : s.Grows t is) (h' : t.Grows u js) : s.Grows u (is ++ js) := by
  refine ⟨Nat.le_trans h.size_le h'.size_le, fun n hn => ?_, fun hs => h'.sound (h.sound hs), fun i hi => ?_⟩
  · rw [h'.cell_eq n (Nat.lt_of_lt_of_le hn h.size_le), h.cell_eq n hn]
  · rcases List.mem_append.1 hi with hi | hi
    · exact (h.within i hi).mono fun n hn => Nat.lt_of_lt_of_le hn h'.size_le
    · exact h'.within i hi

/-- items are put into a node, which is made last -/
theorem push (h : s.Grows t is) {cell : Cell} (hcell : cell.items = is) :
    s.Grows (t.push cell).1 [.node (t.push cell).2] := by
  have hsize : (t.push cell).1.cells.size = t.cells.size + 1 := Array.size_push ..
  refine ⟨?_, fun n hn => ?_, fun hs => sound_iff.2 fun n c hc => ?_, ?_⟩
  · rw [hsize]
    exact Nat.le_succ_of_le h.size_le
  · have hlt : n < t.cells.size := Nat.lt_of_lt_of_le hn h.size_le
    have hne : n ≠ t.cells.size := Nat.ne_of_lt hlt
    show (t.cells.push cell)[n]? = s.cells[n]?
    rw [Array.getElem?_push, if_neg hne, h.cell_eq n hn]
  · intro i hi
    rw [hsize]
    have hc' : (t.cells.push cell)[n]? = some c := hc
    rw [Array.getElem?_push] at hc'
    split at hc'
    · cases hc'
      rw [hcell] at hi
      exact (h.within i hi).mono fun m hm => Nat.lt_succ_of_lt hm
    · exact (sound_iff.1 (h.sound hs) n c hc' i hi).mono fun m hm => Nat.lt_succ_of_lt hm
  · intro i hi
    cases List.mem_singleton.1 hi
    show t.cells.size < _
    omega

end Grows

mutual

/-- data is put into a store with the nodes that it needs -/
theorem grows_add (s : Store) : (d : Data) → s.Grows (s.add d).1 [(s.add d).2]
  | .scalar x => .refl s x
  | .date _ => (Grows.nil s).push rfl
  | .moment _ => (Grows.nil s).push rfl
  | .list ds => (grows_addItems s ds).push rfl
  | .tuple ds => (grows_addItems s ds).push rfl
  | .set ds => (grows_addItems s ds).push rfl
  | .dict es => (grows_addEntries s es).push rfl
  | .again _ => .refl s .null

theorem grows_addItems (s : Store) : (ds : List Data) → s.Grows (s.addItems ds).1 (s.addItems ds).2
  | [] => .nil s
  | d :: ds => (grows_add s d).append (grows_addItems (s.add d).1 ds)

theorem grows_addEntries (s : Store) :
    (es : List (Data × Data)) →
      s.Grows (s.addEntries es).1 ((s.addEntries es).2.flatMap fun e => [e.1, e.2])
  | [] => .nil s
  | (k, v) :: es =>
    ((grows_add s k).append (grows_add (s.add k).1 v)).append
      (grows_addEntries ((s.add k).1.add v).1 es)

end

theorem size_setIfInBounds (s : Store) (n : Nat) (c : Cell) :
    (Store.mk (s.cells.setIfInBounds n c)).cells.size = s.cells.size := Array.size_setIfInBounds

/-- a node may be replaced by one that holds items that are there -/
theorem Sound.setIfInBounds (h : s.Sound) {c : Cell} (hc : ∀ i ∈ c.items, i.Within (· < s.cells.size))
    (n : Nat) : (Store.mk (s.cells.setIfInBounds n c)).Sound := by
  refine sound_iff.2 fun m cell hcell => ?_
  rw [size_setIfInBounds]
  rw [Array.getElem?_setIfInBounds] at hcell
  split at hcell
  · split at hcell
    · cases hcell
      exact hc
    · cases hcell
  · exact sound_iff.1 h m cell hcell

end Store

/-! ### Documents -/

namespace Yaml.Builder

open MeshOperator.Store (sound_iff)

variable {b b' b'' : Builder} {is js : List Item}

/-- The store is sound, and the items that nodes have are in it. -/
structure IsSound (b : Builder) : Prop where
  store : b.store.Sound
  within : ∀ (n : Nat) (i : Item), b.items[n]? = some (some i) →
    i.Within (· < b.store.cells.size)

/-- From `b` one comes to `b'`, which is sound and has the items `is`. -/
structure Leads (b b' : Builder) (is : List Item) : Prop where
  size_le : b.store.cells.size ≤ b'.store.cells.size
  sound : b'.IsSound
  within : ∀ i ∈ is, i.Within (· < b'.store.cells.size)

namespace Leads

theorem refl (h : b.IsSound) : b.Leads b [] := ⟨Nat.le_refl _, h, by simp⟩

theorem kept (h : b.Leads b' js) (his : ∀ i ∈ is, i.Within (· < b.store.cells.size)) :
    ∀ i ∈ is, i.Within (· < b'.store.cells.size) :=
  fun i hi => (his i hi).mono fun _ hn => Nat.lt_of_lt_of_le hn h.size_le

theorem append (h : b.Leads b' is) (h' : b'.Leads b'' js) : b.Leads b'' (is ++ js) := by
  refine ⟨Nat.le_trans h.size_le h'.size_le, h'.sound, fun i hi => ?_⟩
  rcases List.mem_append.1 hi with hi | hi
  · exact h'.kept h.within i hi
  · exact h'.within i hi

end Leads

theorem leads_remember (h : b.IsSound) {i : Item} (hi : i.Within (· < b.store.cells.size)) (n : Nat) :
    b.Leads (b.remember n i).2 [(b.remember n i).1] := by
  refine ⟨Nat.le_refl _, ⟨h.store, fun m j hj => ?_⟩, List.forall_mem_singleton.2 hi⟩
  have hj' : (b.items.setIfInBounds n (some i))[m]? = some (some j) := hj
  rw [Array.getElem?_setIfInBounds] at hj'
  split at hj'
  · split at hj'
    · cases hj'
      exact hi
    · cases hj'
  · exact h.within m j hj'

theorem leads_scalar (h : b.IsSound) (x : Scalar) (n : Nat) :
    b.Leads (b.remember n (.scalar x)).2 [.scalar x] :=
  leads_remember h (i := .scalar x) trivial n

theorem leads_push (h : b.IsSound) {c : Cell} (hc : ∀ i ∈ c.items, i.Within (· < b.store.cells.size)) :
    b.Leads { b with store := (b.store.push c).1 } [.node (b.store.push c).2] := by
  have hgrows : b.store.Grows (b.store.push c).1 [.node (b.store.push c).2] :=
    Store.Grows.push ⟨Nat.le_refl _, fun _ _ => rfl, id, hc⟩ rfl
  refine ⟨hgrows.size_le, ⟨hgrows.sound h.store, fun m j hj => ?_⟩, hgrows.within⟩
  exact (h.within m j hj).mono fun _ hn => Nat.lt_of_lt_of_le hn hgrows.size_le

theorem leads_place (h : b.IsSound) {c : Cell} (hc : c.items = []) (n : Nat) (later : Bool) :
    b.Leads (b.place n c later).2 [(b.place n c later).1] := by
  have hpush := leads_push h (c := c) (by simp [hc])
  have hsound : (Builder.mk b.nodes b.depth b.items (b.store.push c).1
      (if later then b.waiting ++ [(n, (b.store.push c).2)] else b.waiting)).IsSound :=
    ⟨hpush.sound.store, hpush.sound.within⟩
  have hnode := hpush.within _ (List.mem_singleton_self _)
  have hremember := leads_remember hsound hnode n
  exact ⟨Nat.le_trans hpush.size_le hremember.size_le, hremember.sound, hremember.within⟩

theorem items_timestampValue {s : List Char} {c : Cell} (h : timestampValue s = .ok c) :
    c.items = [] := by
  unfold timestampValue at h
  dsimp only at h
  split at h
  · cases h
  · split at h
    · obtain ⟨d, -, h⟩ := bind_eq_ok.1 h
      cases h
      rfl
    · obtain ⟨o, -, h⟩ := bind_eq_ok.1 h
      obtain ⟨d, -, h⟩ := bind_eq_ok.1 h
      obtain ⟨m, -, h⟩ := bind_eq_ok.1 h
      cases h
      rfl

theorem leads_item (h : b.IsSound) {n : Nat} {i : Item} (hitem : b.item n = .ok (i, b')) :
    b.Leads b' [i] := by
  unfold item at hitem
  cases hmet : b.items[n]?.join with
  | some j =>
    rw [hmet] at hitem
    cases hitem
    have hfound : b.items[n]? = some (some i) := by
      cases hget : b.items[n]? with
      | none => simp [hget] at hmet
      | some o => simpa [hget] using hmet
    exact ⟨Nat.le_refl _, h, List.forall_mem_singleton.2 (h.within n i hfound)⟩
  | none =>
    rw [hmet] at hitem
    cases htag : tagOf b.nodes n <;> rw [htag] at hitem
    case null | text =>
      obtain ⟨s, -, hitem⟩ := bind_eq_ok.1 hitem
      cases hitem
      exact leads_scalar h _ n
    case bool | int | float | binary =>
      obtain ⟨s, -, hitem⟩ := bind_eq_ok.1 hitem
      obtain ⟨x, -, hitem⟩ := bind_eq_ok.1 hitem
      cases hitem
      exact leads_scalar h _ n
    case timestamp =>
      obtain ⟨s, -, hitem⟩ := bind_eq_ok.1 hitem
      split at hitem
      · obtain ⟨c, hc, hitem⟩ := bind_eq_ok.1 hitem
        cases hitem
        exact leads_place h (items_timestampValue hc) n false
      · cases hitem
    case sequence | orderedMap | pairs | mapping | set =>
      cases hitem
      exact leads_place h rfl n true
    case merge | default | unknown => cases hitem

theorem leads_itemsOf (h : b.IsSound) {ns : List Nat} (hitems : b.itemsOf ns = .ok (is, b')) :
    b.Leads b' is := by
  induction ns generalizing b is with
  | nil =>
    cases hitems
    exact .refl h
  | cons n ns ih =>
    rw [itemsOf] at hitems
    obtain ⟨⟨i, b₁⟩, hitem, hitems⟩ := bind_eq_ok.1 hitems
    obtain ⟨⟨js, b₂⟩, hrest, hitems⟩ := bind_eq_ok.1 hitems
    cases hitems
    have hone := leads_item h hitem
    exact hone.append (ih hone.sound hrest)

/-! ### Mappings -/

/-- the items of pairs -/
def pairItemsOf (ps : List Pair) : List Item := ps.flatMap fun p => [p.key, p.value]

theorem mem_pairItemsOf {ps : List Pair} {i : Item} :
    i ∈ pairItemsOf ps ↔ ∃ p ∈ ps, i = p.key ∨ i = p.value := by
  simp [pairItemsOf, List.mem_flatMap]

theorem pairItemsOf_insertPair (ps : List Pair) (p : Pair) :
    ∀ i ∈ pairItemsOf (b.insertPair ps p), i ∈ pairItemsOf ps ++ [p.key, p.value] := by
  intro i hi
  rw [List.mem_append, mem_pairItemsOf]
  unfold insertPair at hi
  split at hi
  · obtain ⟨q, hq, hi⟩ := mem_pairItemsOf.1 hi
    obtain ⟨q', hq', rfl⟩ := List.mem_map.1 hq
    split at hi
    · rcases hi with hi | hi
      · exact .inl ⟨q', hq', .inl hi⟩
      · exact .inr (by simp [hi])
    · exact .inl ⟨q', hq', hi⟩
  · obtain ⟨q, hq, hi⟩ := mem_pairItemsOf.1 hi
    rcases List.mem_append.1 hq with hq | hq
    · exact .inl ⟨q, hq, hi⟩
    · cases List.mem_singleton.1 hq
      exact .inr (by simpa using hi)

theorem leads_pairsOf (h : b.IsSound) {ns : List (Nat × Nat)} {ps qs : List Pair}
    (hps : ∀ i ∈ pairItemsOf ps, i.Within (· < b.store.cells.size))
    (hpairs : b.pairsOf ns ps = .ok (qs, b')) : b.Leads b' (pairItemsOf qs) := by
  induction ns generalizing b ps with
  | nil =>
    cases hpairs
    exact ⟨Nat.le_refl _, h, hps⟩
  | cons n ns ih =>
    obtain ⟨k, v⟩ := n
    rw [pairsOf] at hpairs
    obtain ⟨⟨key, b₁⟩, hkey, hpairs⟩ := bind_eq_ok.1 hpairs
    dsimp only at hpairs
    split at hpairs
    · cases hpairs
    · obtain ⟨⟨value, b₂⟩, hvalue, hpairs⟩ := bind_eq_ok.1 hpairs
      have hone := leads_item h hkey
      have hboth := hone.append (leads_item hone.sound hvalue)
      have hinsert : ∀ i ∈ pairItemsOf (b₂.insertPair ps ⟨k, key, value⟩),
          i.Within (· < b₂.store.cells.size) := by
        intro i hi
        rcases List.mem_append.1 (pairItemsOf_insertPair _ _ i hi) with hi | hi
        · exact hboth.kept hps i hi
        · exact hboth.within i hi
      have hrest := ih hboth.sound hinsert hpairs
      exact ⟨Nat.le_trans hboth.size_le hrest.size_le, hrest.sound, hrest.within⟩

/-- merges change the nodes of the document only -/
theorem leads_mappingOf (h : b.IsSound) {n : Nat} {entries : List (Item × Item)}
    (hmapping : b.mappingOf n = .ok (entries, b')) :
    b.Leads b' (entries.flatMap fun e => [e.1, e.2]) := by
  unfold mappingOf at hmapping
  split at hmapping
  · cases hmapping
  · obtain ⟨nodes, -, hmapping⟩ := bind_eq_ok.1 hmapping
    obtain ⟨⟨pairs, b₁⟩, hpairs, hmapping⟩ := bind_eq_ok.1 hmapping
    cases hmapping
    have hsound : (Builder.mk nodes b.depth b.items b.store b.waiting).IsSound := ⟨h.store, h.within⟩
    have hleads := leads_pairsOf hsound (by simp [pairItemsOf]) hpairs
    refine ⟨hleads.size_le, hleads.sound, ?_⟩
    rw [List.flatMap_map]
    exact hleads.within

theorem leads_pairItems (h : b.IsSound) {ns : List Nat} (hitems : b.pairItems ns = .ok (is, b')) :
    b.Leads b' is := by
  induction ns generalizing b is with
  | nil =>
    cases hitems
    exact .refl h
  | cons n ns ih =>
    rw [pairItems] at hitems
    split at hitems
    · obtain ⟨⟨key, b₁⟩, hkey, hitems⟩ := bind_eq_ok.1 hitems
      obtain ⟨⟨value, b₂⟩, hvalue, hitems⟩ := bind_eq_ok.1 hitems
      obtain ⟨⟨js, b₃⟩, hrest, hitems⟩ := bind_eq_ok.1 hitems
      cases hitems
      have hone := leads_item h hkey
      have hboth := hone.append (leads_item hone.sound hvalue)
      have hnode := leads_push hboth.sound (c := .tuple [key, value]) hboth.within
      have hall := hnode.append (ih hnode.sound hrest)
      exact ⟨Nat.le_trans hboth.size_le hall.size_le, hall.sound, hall.within⟩
    · cases hitems

/-! ### Filling -/

/-- a cell is filled with items that were made for it -/
theorem Leads.withCell (h : b.Leads b' is) (c : Cell) (hc : ∀ i ∈ c.items, i ∈ is) (m : Nat) :
    b.Leads (b'.withCell m c) [] := by
  have hitems : ∀ i ∈ c.items, i.Within (· < b'.store.cells.size) := fun i hi => h.within i (hc i hi)
  have hsize : (b'.withCell m c).store.cells.size = b'.store.cells.size :=
    Store.size_setIfInBounds ..
  refine ⟨?_, ⟨h.sound.store.setIfInBounds hitems m, fun n i hi => ?_⟩, by simp⟩
  · rw [hsize]
    exact h.size_le
  · rw [hsize]
    exact h.sound.within n i hi

theorem leads_fill (h : b.IsSound) {n m : Nat} (hfill : b.fill n m = .ok b') : b.Leads b' [] := by
  unfold fill at hfill
  split at hfill
  case h_1 =>
    obtain ⟨⟨entries, b₁⟩, hentries, hfill⟩ := bind_eq_ok.1 hfill
    cases hfill
    exact (leads_mappingOf h hentries).withCell (.dict entries) (fun i hi => hi) m
  case h_2 =>
    obtain ⟨⟨entries, b₁⟩, hentries, hfill⟩ := bind_eq_ok.1 hfill
    cases hfill
    refine (leads_mappingOf h hentries).withCell (.set (entries.map Prod.fst)) (fun i hi => ?_) m
    obtain ⟨e, he, rfl⟩ := List.mem_map.1 hi
    exact List.mem_flatMap.2 ⟨e, he, by simp⟩
  case h_3 | h_4 =>
    obtain ⟨ns, -, hfill⟩ := bind_eq_ok.1 hfill
    obtain ⟨⟨items, b₁⟩, hitems, hfill⟩ := bind_eq_ok.1 hfill
    cases hfill
    exact (leads_pairItems h hitems).withCell (.list items) (fun i hi => hi) m
  case h_5 =>
    obtain ⟨ns, -, hfill⟩ := bind_eq_ok.1 hfill
    obtain ⟨⟨items, b₁⟩, hitems, hfill⟩ := bind_eq_ok.1 hfill
    cases hfill
    exact (leads_itemsOf h hitems).withCell (.list items) (fun i hi => hi) m

theorem leads_fillAll (h : b.IsSound) {fuel : Nat} (hfill : fillAll fuel b = .ok b') :
    b.Leads b' [] := by
  induction fuel generalizing b with
  | zero =>
    cases hfill
    exact .refl h
  | succ fuel ih =>
    rw [fillAll] at hfill
    cases hwaiting : b.waiting with
    | nil =>
      rw [hwaiting] at hfill
      cases hfill
      exact .refl h
    | cons next rest =>
      rw [hwaiting] at hfill
      obtain ⟨b₁, hone, hfill⟩ := bind_eq_ok.1 hfill
      have hsound : (Builder.mk b.nodes b.depth b.items b.store rest).IsSound := ⟨h.store, h.within⟩
      have hleads := leads_fill hsound hone
      have hrest := ih hleads.sound hfill
      exact ⟨Nat.le_trans hleads.size_le hrest.size_le, hrest.sound, by simp⟩

theorem isSound_ofDocument (d : Document) : (ofDocument d).IsSound := by
  refine ⟨Store.sound_empty, fun n i hi => ?_⟩
  have hi' : (Array.replicate d.nodes.size (none : Option Item))[n]? = some (some i) := hi
  rw [Array.getElem?_replicate] at hi'
  split at hi' <;> cases hi'

end Yaml.Builder

/-- a document is read into a sound store -/
theorem Yaml.sound_of_value {d : Document} {s : Store} {i : Item} (h : d.value = .ok (s, i)) :
    s.Sound ∧ i.Within (· < s.cells.size) := by
  unfold Document.value at h
  obtain ⟨⟨i', b⟩, hitem, h⟩ := bind_eq_ok.1 h
  obtain ⟨b', hfill, h⟩ := bind_eq_ok.1 h
  cases h
  have hroot := Builder.leads_item (Builder.isSound_ofDocument d) hitem
  have hall := Builder.leads_fillAll hroot.sound hfill
  exact ⟨hall.sound.store, hall.kept hroot.within i (List.mem_singleton_self i)⟩

theorem Yaml.sound_of_soleValue? {text : String} {s : Store} {i : Item}
    (h : soleValue? text = .ok (some (s, i))) : s.Sound ∧ i.Within (· < s.cells.size) := by
  unfold soleValue? at h
  obtain ⟨next, -, h⟩ := bind_eq_ok.1 h
  cases next with
  | none => cases h
  | some next =>
    obtain ⟨more, -, h⟩ := bind_eq_ok.1 h
    cases more with
    | some t => cases h
    | none =>
      obtain ⟨value, hvalue, h⟩ := bind_eq_ok.1 h
      cases h
      exact sound_of_value hvalue

namespace Values

/-! ### Values -/

/-- The store of values is sound, their root is a mapping, and nothing in the store holds it. -/
structure IsSound (v : Values) : Prop where
  store : v.store.Sound
  root : ∃ es, v.store.entries? v.root = some es
  unheld : ∀ i, ¬ v.store.Holds i (.node v.root)

variable {v : Values}

/-- a mapping that is made last is not held by anything -/
theorem isSound_reroot {s : Store} {es : List (Item × Item)} (hs : s.Sound)
    (hes : ∀ i ∈ (Cell.dict es).items, i.Within (· < s.cells.size)) : (reroot s es).IsSound := by
  have hgrows : s.Grows (s.push (.dict es)).1 [.node (s.push (.dict es)).2] :=
    Store.Grows.push ⟨Nat.le_refl _, fun _ _ => rfl, id, hes⟩ rfl
  have hcells (n : Nat) : (reroot s es).store.cells[n]? = (s.cells.push (.dict es))[n]? := rfl
  refine ⟨hgrows.sound hs, ⟨es, ?_⟩, ?_⟩
  · rw [Store.entries?_eq_some, hcells]
    exact Array.getElem?_push_size
  · rintro i ⟨n, cell, rfl, hcell, hroot⟩
    have hlt : s.cells.size < s.cells.size := by
      rw [hcells, Array.getElem?_push] at hcell
      split at hcell
      · cases hcell
        exact hes _ hroot
      · exact Store.sound_iff.1 hs n cell hcell _ hroot
    exact Nat.lt_irrefl _ hlt

theorem isSound_empty : empty.IsSound :=
  @isSound_reroot .empty [] Store.sound_empty (by simp [Cell.items])

theorem isSound_ofEntries (es : List (Data × Data)) : (ofEntries es).IsSound := by
  have hgrows := Store.grows_addEntries .empty es
  exact isSound_reroot (hgrows.sound Store.sound_empty) hgrows.within

theorem isSound_of_ofText {text : String} (h : ofText text = .ok v) : v.IsSound := by
  unfold ofText at h
  split at h
  · cases h
    exact isSound_empty
  · cases hsole : Yaml.soleValue? text with
    | error f =>
      rw [hsole] at h
      cases f <;> cases h
    | ok found =>
      rw [hsole] at h
      rcases found with _ | ⟨s, x | n⟩
      · cases h
        exact isSound_empty
      · cases x <;> cases h
        exact isSound_empty
      · obtain ⟨hs, -⟩ := Yaml.sound_of_soleValue? hsole
        dsimp only at h
        cases hes : s.itemEntries? (.node n) with
        | none =>
          rw [hes] at h
          cases h
        | some es =>
          rw [hes] at h
          cases h
          refine isSound_reroot hs ?_
          obtain ⟨m, hm, hcell⟩ := Store.itemEntries?_eq_some.1 hes
          exact Store.sound_iff.1 hs m _ hcell

/-- **Soundness.**  All values that are accepted are sound. -/
theorem isSound_of_ofRaw {raw : Data} (h : ofRaw raw = .ok v) : v.IsSound := by
  unfold ofRaw at h
  split at h
  · cases h
    exact isSound_empty
  · exact isSound_of_ofText h
  · cases h
    exact isSound_empty
  · obtain ⟨text, -, h⟩ := bind_eq_ok.1 h
    exact isSound_of_ofText h
  · cases h
    exact isSound_ofEntries _
  · cases h

end Values

end MeshOperator
