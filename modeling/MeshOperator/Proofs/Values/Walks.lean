import Mathlib.Data.List.Induction
import MeshOperator.Proofs.Values.Frame
import MeshOperator.Proofs.Values.Trees

/-!
# Walks from the root

A path is walked from mapping to mapping. In values of which no node holds itself, no walk comes to a node twice;
in a tree, only one walk comes to a node, and what reaches a node stands on the way to it.

* `Store.resolve?_append`: a walk and one that goes on from where it ends.
* `Values.IsAcyclic`: no node below the root holds itself.
* `Values.IsAcyclic.resolve?_ne`: no walk comes to a node twice.
* `Values.IsTree.keys_eq`: only one walk comes to a node of a tree.
* `Values.IsTree.exists_prefix_of_reaches`: what reaches a node stands on the way to it.
-/

namespace MeshOperator

/-- in a mapping that holds a node once, it stands under one key -/
theorem eq_of_entryAt?_node {k k' : String} {m : Nat} {es : List (Item × Item)}
    (hnodup : (Cell.dict es).nodes.Nodup) (h : entryAt? k es = some (.node m))
    (h' : entryAt? k' es = some (.node m)) : k = k' := by
  induction es with
  | nil => cases h
  | cons e es ih =>
    obtain ⟨a, b⟩ := e
    have hnodes : (Cell.dict ((a, b) :: es)).nodes = [a, b].filterMap Item.node? ++ (Cell.dict es).nodes := by
      simp [Cell.nodes, Cell.items, ← List.filterMap_append]
    rw [hnodes] at hnodup
    obtain ⟨-, hnodup', hapart⟩ := List.nodup_append.1 hnodup
    -- the node does not stand both here and further on
    have hnot {key : String} (hb : b = .node m) : entryAt? key es ≠ some (.node m) := fun hrest =>
      hapart m (by simp [hb, Item.node?]) m
        (Cell.mem_nodes.2 (List.mem_flatMap.2 ⟨_, entryAt?_mem hrest, by simp⟩)) rfl
    rw [entryAt?] at h h'
    by_cases ha : a = .scalar (.text k)
    · rw [if_pos ha] at h
      by_cases ha' : a = .scalar (.text k')
      · rw [ha] at ha'
        cases ha'
        rfl
      · rw [if_neg ha'] at h'
        exact absurd h' (hnot (Option.some.inj h))
    · rw [if_neg ha] at h
      by_cases ha' : a = .scalar (.text k')
      · rw [if_pos ha'] at h'
        exact absurd h (hnot (Option.some.inj h'))
      · rw [if_neg ha'] at h'
        exact ih hnodup' h h'

namespace Store

variable {s : Store} {i j : Item} {n m : Nat} {key : String} {keys keys' : List String}

theorem resolve?_append : s.resolve? i (keys ++ keys') = (s.resolve? i keys).bind fun j => s.resolve? j keys' := by
  induction keys generalizing i with
  | nil => rfl
  | cons k keys ih =>
    rw [List.cons_append, resolve?_cons, resolve?_cons]
    cases (s.itemEntries? i).bind (entryAt? k) with
    | none => rfl
    | some p => exact ih

theorem itemEntries?_node : (s.itemEntries? (.node n)).bind (entryAt? key) = s.child? n key := rfl

/-- a walk ends under its last key, in the mapping to which the keys before it lead -/
theorem resolve?_concat : s.resolve? i (keys ++ [key]) = some j ↔
    ∃ n, s.resolve? i keys = some (.node n) ∧ s.child? n key = some j := by
  have hlast (p : Item) : s.resolve? p [key] = (s.itemEntries? p).bind (entryAt? key) := by
    rw [resolve?_cons]
    cases (s.itemEntries? p).bind (entryAt? key) <;> rfl
  rw [resolve?_append, Option.bind_eq_some_iff]
  constructor
  · rintro ⟨p, hp, hj⟩
    rw [hlast] at hj
    cases p with
    | scalar x => cases hj
    | node n => exact ⟨n, hp, hj⟩
  · rintro ⟨n, hn, hj⟩
    exact ⟨.node n, hn, (hlast _).trans hj⟩

theorem holds_of_child? (h : s.child? n key = some j) : s.Holds (.node n) j := by
  obtain ⟨es, hes, hj⟩ := Option.bind_eq_some_iff.1 h
  exact .of_mem (entries?_eq_some.1 hes) (List.mem_flatMap.2 ⟨_, entryAt?_mem hj, by simp⟩)

theorem reaches_of_resolve? (h : s.resolve? i keys = some j) : s.Reaches i j := by
  induction keys using List.reverseRecOn generalizing j with
  | nil =>
    cases h
    exact .refl
  | append_singleton keys key ih =>
    obtain ⟨n, hn, hj⟩ := resolve?_concat.1 h
    exact (ih hn).tail (holds_of_child? hj)

/-- a mapping under whose key nothing stands, or null, leads nowhere by this key and others -/
theorem resolve?_of_child?_fresh (h : s.child? n key = none ∨ s.child? n key = some (.scalar .null))
    (hkeys : keys ≠ []) : s.resolve? (.node n) (key :: keys) = none := by
  rw [resolve?_cons, itemEntries?_node]
  rcases h with h | h
  · rw [h]
    rfl
  · obtain ⟨k, rest, rfl⟩ := List.exists_cons_of_ne_nil hkeys
    rw [h, Option.bind_some, resolve?_cons]
    rfl

end Store

namespace Values

variable {v : Values} {i j : Item} {m : Nat} {keys keys' : List String} {key : String}

/-- No node below the root holds an item that reaches it. -/
def IsAcyclic (v : Values) : Prop :=
  ∀ i j, v.store.Reaches (.node v.root) i → v.store.Holds i j → ¬ v.store.Reaches j i

theorem IsTree.isAcyclic (hv : v.IsSound) (ht : v.IsTree) : v.IsAcyclic :=
  fun _ _ hi hj => ht.not_reaches_self hv hi hj

/-- no walk comes to a node twice -/
theorem IsAcyclic.resolve?_ne (h : v.IsAcyclic) (hm : v.store.resolve? (.node v.root) keys = some (.node m))
    (hkeys : keys' ++ [key] <+: keys) : v.store.resolve? (.node v.root) keys' ≠ some (.node m) := by
  intro hm'
  obtain ⟨rest, rfl⟩ := hkeys
  rw [List.append_assoc, Store.resolve?_append, hm', Option.bind_some, List.singleton_append,
    Store.resolve?_cons, Store.itemEntries?_node] at hm
  obtain ⟨j, hj, hback⟩ := Option.bind_eq_some_iff.1 hm
  exact h _ _ (Store.reaches_of_resolve? hm') (Store.holds_of_child? hj) (Store.reaches_of_resolve? hback)

/-- only the walk of no keys comes to the root -/
theorem IsSound.resolve?_concat_ne (hv : v.IsSound) (i : Item) (keys : List String) (key : String) :
    v.store.resolve? i (keys ++ [key]) ≠ some (.node v.root) := by
  intro h
  obtain ⟨n, -, hroot⟩ := Store.resolve?_concat.1 h
  exact hv.unheld _ (Store.holds_of_child? hroot)

namespace IsTree

variable (hv : v.IsSound) (ht : v.IsTree)
include hv ht

/-- only one walk comes to a node of a tree -/
theorem keys_eq (h : v.store.resolve? (.node v.root) keys = some (.node m))
    (h' : v.store.resolve? (.node v.root) keys' = some (.node m)) : keys = keys' := by
  induction keys using List.reverseRecOn generalizing keys' m with
  | nil =>
    cases h
    rcases List.eq_nil_or_concat keys' with rfl | ⟨rest, k, rfl⟩
    · rfl
    · rw [List.concat_eq_append] at h'
      exact absurd h' (hv.resolve?_concat_ne _ rest k)
  | append_singleton keys k ih =>
    rcases List.eq_nil_or_concat keys' with rfl | ⟨keys', k', rfl⟩
    · cases h'
      exact absurd h (hv.resolve?_concat_ne _ keys k)
    · rw [List.concat_eq_append] at h' ⊢
      obtain ⟨n, hn, hm⟩ := Store.resolve?_concat.1 h
      obtain ⟨n', hn', hm'⟩ := Store.resolve?_concat.1 h'
      have hreach := Store.reaches_of_resolve? hn
      cases ht.holder_eq hreach (Store.reaches_of_resolve? hn') (Store.holds_of_child? hm)
        (Store.holds_of_child? hm')
      obtain ⟨es, hes, hentry⟩ := Option.bind_eq_some_iff.1 hm
      obtain ⟨es', hes', hentry'⟩ := Option.bind_eq_some_iff.1 hm'
      cases hes.symm.trans hes'
      have hkey := eq_of_entryAt?_node (ht.nodup hreach (Store.entries?_eq_some.1 hes)) hentry hentry'
      rw [ih hn hn', hkey]

/-- what reaches a node stands on the way to it -/
theorem exists_prefix_of_reaches (h : v.store.resolve? (.node v.root) keys = some (.node m))
    (hi : v.store.Reaches (.node v.root) i) (hreach : v.store.Reaches i (.node m)) :
    ∃ keys', keys' <+: keys ∧ v.store.resolve? (.node v.root) keys' = some i := by
  induction keys using List.reverseRecOn generalizing m with
  | nil =>
    cases h
    rcases Relation.ReflTransGen.cases_tail hreach with heq | ⟨j, -, hroot⟩
    · exact ⟨[], List.prefix_refl _, by rw [← heq]; rfl⟩
    · exact absurd hroot (hv.unheld j)
  | append_singleton keys k ih =>
    obtain ⟨n, hn, hm⟩ := Store.resolve?_concat.1 h
    rcases Relation.ReflTransGen.cases_tail hreach with heq | ⟨j, hj, hhold⟩
    · exact ⟨keys ++ [k], List.prefix_refl _, by rw [h, heq]⟩
    · cases ht.holder_eq (Store.reaches_of_resolve? hn) (hi.trans hj) (Store.holds_of_child? hm) hhold
      obtain ⟨keys', hkeys', hend⟩ := ih hn hj
      exact ⟨keys', hkeys'.trans (List.prefix_append ..), hend⟩

/-- a walk that is not on the way to a node comes to nothing that reaches it -/
theorem not_reaches (h : v.store.resolve? (.node v.root) keys = some (.node m))
    (hi : v.store.resolve? (.node v.root) keys' = some i) (hkeys : ¬ keys' <+: keys) :
    ¬ v.store.Reaches i (.node m) := by
  intro hreach
  obtain ⟨before, hbefore, hend⟩ := ht.exists_prefix_of_reaches hv h (Store.reaches_of_resolve? hi) hreach
  -- a scalar reaches no node
  obtain ⟨n, rfl⟩ : ∃ n, i = .node n := by
    rcases Relation.ReflTransGen.cases_head hreach with heq | ⟨j, ⟨n, -, hn, -⟩, -⟩
    · exact ⟨m, heq⟩
    · exact ⟨n, hn⟩
  rw [ht.keys_eq hv hi hend] at hkeys
  exact hkeys hbefore

end IsTree

end Values

end MeshOperator
