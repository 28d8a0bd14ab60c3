import MeshOperator.Proofs.Json.Scalars
import MeshOperator.Proofs.Yaml.Documents

/-!
# The tree of nodes

The nodes of a text of JSON are a tree: with the first of them, the parts of all are the numbers of all,
each once, and a part comes after the collection that it is a part of. Each node is read by its kind.

* `Value.perm_parts`: the parts of the nodes of a value.
* `Document.isTree`: the nodes of a text are a tree.
* `Document.arePlain`: each of them is read by its kind.
-/

namespace MeshOperator.Json

open Yaml

/-! ### Parts -/

mutual

/-- With the first node, the parts of the nodes of a value are all its numbers. -/
theorem Value.perm_parts (v : Value) (lo : Nat) :
    (lo :: (v.nodes lo).flatMap Node.parts).Perm (List.range' lo v.size) := by
  match v with
  | .atom a =>
    have hparts : a.node.parts = [] := by cases a <;> rfl
    simp [Value.nodes, Value.size, hparts]
  | .emptyArray _ => exact .refl _
  | .array items => exact (items.perm_parts (lo + 1)).cons lo
  | .emptyObject _ => exact .refl _
  | .object members => exact (members.perm_parts (lo + 1)).cons lo

/-- The numbers of the items of an array, and the parts of these. -/
theorem Items.perm_parts (is : Items) (lo : Nat) :
    (is.numbers lo ++ (is.nodes lo).flatMap Node.parts).Perm (List.range' lo is.size) := by
  match is with
  | .last _ v _ => exact v.perm_parts lo
  | .more _ v _ rest =>
    rw [Items.numbers, Items.nodes, List.flatMap_append, Items.size, ← List.range'_append_1]
    refine .trans ?_ ((v.perm_parts lo).append (rest.perm_parts (lo + v.size)))
    refine List.perm_iff_count.2 fun n => ?_
    simp only [List.cons_append, List.count_cons, List.count_append]
    omega

/-- The numbers of the keys and values of an object, and the parts of these. -/
theorem Members.perm_parts (ms : Members) (lo : Nat) :
    ((ms.numbers lo).flatMap (fun p => [p.1, p.2]) ++ (ms.nodes lo).flatMap Node.parts).Perm
      (List.range' lo ms.size) := by
  match ms with
  | .last k _ v _ => exact (v.perm_parts (lo + 1)).cons lo
  | .more k _ v _ rest =>
    rw [Members.numbers, Members.nodes, List.flatMap_append, Members.size, ← List.range'_append_1]
    refine .trans ?_ (((v.perm_parts (lo + 1)).cons lo).append (rest.perm_parts (lo + (v.size + 1))))
    refine List.perm_iff_count.2 fun n => ?_
    have hkey : k.node.parts = [] := rfl
    simp only [List.flatMap_cons, hkey, List.nil_append, List.cons_append, List.count_cons,
      List.count_append]
    omega

end

theorem Items.mem_numbers {is : Items} {lo n : Nat} (h : n ∈ is.numbers lo) : lo ≤ n ∧ n < lo + is.size :=
  List.mem_range'_1.1 ((is.perm_parts lo).mem_iff.1 (List.mem_append_left _ h))

theorem Members.mem_numbers {ms : Members} {lo n : Nat}
    (h : n ∈ (ms.numbers lo).flatMap fun p => [p.1, p.2]) : lo ≤ n ∧ n < lo + ms.size :=
  List.mem_range'_1.1 ((ms.perm_parts lo).mem_iff.1 (List.mem_append_left _ h))

/-! ### Nodes with their numbers -/

/-- whether nodes that are numbered from `lo` on have a property, each with its number -/
def Numbered (P : Nat → Node → Prop) (lo : Nat) (ns : List Node) : Prop := ∀ p ∈ ns.zipIdx lo, P p.2 p.1

section Numbered

variable {P : Nat → Node → Prop} {lo : Nat} {node : Node} {ns ms : List Node}

@[simp] theorem numbered_nil : Numbered P lo [] := by simp [Numbered]

@[simp] theorem numbered_cons : Numbered P lo (node :: ns) ↔ P lo node ∧ Numbered P (lo + 1) ns := by
  simp only [Numbered, List.zipIdx_cons, List.forall_mem_cons]

@[simp] theorem numbered_append :
    Numbered P lo (ns ++ ms) ↔ Numbered P lo ns ∧ Numbered P (lo + ns.length) ms := by
  simp only [Numbered, List.zipIdx_append, List.forall_mem_append]

end Numbered

/-- whether a node stands among others under its number -/
def StandsIn (nodes : Array Node) (n : Nat) (node : Node) : Prop := nodes[n]? = some node

section Standing

variable {nodes : Array Node} {lo n : Nat}

theorem numbered_self (nodes : Array Node) : Numbered (StandsIn nodes) 0 nodes.toList := by
  rintro ⟨node, n⟩ h
  rw [List.mem_zipIdx_iff_getElem?, Array.getElem?_toList] at h
  exact h

theorem lt_size_of_numbered {ns : List Node} (h : Numbered (StandsIn nodes) lo ns)
    (hn : lo ≤ n ∧ n < lo + ns.length) : n < nodes.size := by
  obtain ⟨node, hnode⟩ : ∃ node, ns[n - lo]? = some node := ⟨_, List.getElem?_eq_getElem (by omega)⟩
  have hstands := h (node, n) (List.mk_mem_zipIdx_iff_le_and_getElem?_sub.2 ⟨hn.1, hnode⟩)
  exact (Array.getElem?_eq_some_iff.1 hstands).1

/-- the keys of an object stand where its numbers tell -/
theorem Members.exists_key {ms : Members} {lo : Nat} (h : Numbered (StandsIn nodes) lo (ms.nodes lo)) :
    ∀ p ∈ ms.numbers lo, ∃ key, nodes[p.1]? = some ⟨.text, .scalar key⟩ := by
  match ms with
  | .last k _ v _ =>
    rw [Members.nodes, numbered_cons] at h
    rw [Members.numbers, List.forall_mem_singleton]
    exact ⟨_, h.1⟩
  | .more k _ v _ rest =>
    rw [Members.nodes, numbered_append, numbered_cons, List.length_cons, v.length_nodes] at h
    rw [Members.numbers, List.forall_mem_cons]
    exact ⟨⟨_, h.1.1⟩, Members.exists_key h.2⟩

end Standing

/-! ### Every node -/

/-- A node that is read by its kind, with parts that come after it. -/
structure Fits (nodes : Array Node) (n : Nat) (node : Node) : Prop where
  plain : node.IsPlain nodes
  lt : ∀ c ∈ node.parts, n < c

section Fits

variable {nodes : Array Node}

theorem Atom.fits {a : Atom} (ha : a.isReadable = true) (n : Nat) : Fits nodes n a.node := by
  obtain ⟨s, hnode, hmeans⟩ := Atom.means ha
  rw [hnode]
  exact ⟨.scalar (by rwa [String.toList_ofList]), fun c hc => nomatch hc⟩

theorem Key.fits (k : Key) (n : Nat) : Fits nodes n k.node := by
  have hmeans : Tag.text.Means k.string.toList (.text k.string) := by
    have h := Tag.means_text (s := k.string.toList)
    rwa [String.ofList_toList] at h
  exact ⟨.scalar hmeans, fun c hc => nomatch hc⟩

mutual

/-- every node of a value fits -/
theorem Value.numbered_fits (v : Value) {lo : Nat} (hv : v.isReadable = true)
    (h : Numbered (StandsIn nodes) lo (v.nodes lo)) : Numbered (Fits nodes) lo (v.nodes lo) := by
  have hsize := fun n => lt_size_of_numbered (n := n) h
  rw [v.length_nodes] at hsize
  match v with
  | .atom a =>
    rw [Value.nodes, numbered_cons]
    exact ⟨Atom.fits hv lo, numbered_nil⟩
  | .emptyArray _ =>
    rw [Value.nodes, numbered_cons]
    exact ⟨⟨.sequence (by simp), fun c hc => nomatch hc⟩, numbered_nil⟩
  | .array items =>
    rw [Value.nodes, numbered_cons] at h ⊢
    refine ⟨⟨.sequence fun n hn => ?_, fun n hn => ?_⟩, items.numbered_fits hv h.2⟩
    · have hbounds := Items.mem_numbers hn
      exact hsize n (by rw [Value.size]; omega)
    · exact (Items.mem_numbers hn).1
  | .emptyObject _ =>
    rw [Value.nodes, numbered_cons]
    exact ⟨⟨.mapping (by simp), fun c hc => nomatch hc⟩, numbered_nil⟩
  | .object members =>
    rw [Value.nodes, numbered_cons] at h ⊢
    refine ⟨⟨.mapping fun p hp => ⟨?_, Members.exists_key h.2 p hp⟩, fun n hn => ?_⟩,
      members.numbered_fits hv h.2⟩
    · have hbounds := Members.mem_numbers (List.mem_flatMap.2 ⟨p, hp, List.mem_cons_of_mem _ (.head _)⟩)
      exact hsize p.2 (by rw [Value.size]; omega)
    · exact (Members.mem_numbers hn).1

theorem Items.numbered_fits (is : Items) {lo : Nat} (hv : is.isReadable = true)
    (h : Numbered (StandsIn nodes) lo (is.nodes lo)) : Numbered (Fits nodes) lo (is.nodes lo) := by
  match is with
  | .last _ v _ =>
    simp only [Items.isReadable, Bool.and_eq_true] at hv
    exact v.numbered_fits hv.1.2 h
  | .more _ v _ rest =>
    simp only [Items.isReadable, Bool.and_eq_true] at hv
    rw [Items.nodes, numbered_append, v.length_nodes] at h ⊢
    exact ⟨v.numbered_fits hv.1.1.2 h.1, rest.numbered_fits hv.2 h.2⟩

theorem Members.numbered_fits (ms : Members) {lo : Nat} (hv : ms.isReadable = true)
    (h : Numbered (StandsIn nodes) lo (ms.nodes lo)) : Numbered (Fits nodes) lo (ms.nodes lo) := by
  match ms with
  | .last k _ v _ =>
    simp only [Members.isReadable, Bool.and_eq_true] at hv
    rw [Members.nodes, numbered_cons] at h ⊢
    exact ⟨k.fits lo, v.numbered_fits hv.1.2 h.2⟩
  | .more k _ v _ rest =>
    simp only [Members.isReadable, Bool.and_eq_true] at hv
    rw [Members.nodes, numbered_append, numbered_cons, List.length_cons, v.length_nodes] at h ⊢
    exact ⟨⟨k.fits lo, v.numbered_fits hv.1.1.2 h.1.2⟩, rest.numbered_fits hv.2 h.2⟩

end

end Fits

/-! ### Texts -/

namespace Document

variable {d : Document}

/-- the nodes of a text -/
def composed (d : Document) : Yaml.Document := ⟨(d.root.nodes 0).toArray, 0⟩

theorem fits_of_getElem? (h : d.root.isReadable = true) {n : Nat} {node : Node}
    (hnode : d.composed.nodes[n]? = some node) : Fits d.composed.nodes n node := by
  have hall := d.root.numbered_fits h (numbered_self d.composed.nodes)
  exact hall (node, n) (List.mem_zipIdx_iff_getElem?.2 (by simpa [composed] using hnode))

theorem arePlain (h : d.root.isReadable = true) : ArePlain d.composed.nodes :=
  fun _ _ hnode => (fits_of_getElem? h hnode).plain

theorem isTree (h : d.root.isReadable = true) : d.composed.IsTree where
  nodup := ((d.root.perm_parts 0).nodup_iff.2 List.nodup_range').of_cons
  lt hnode hc := (fits_of_getElem? h hnode).lt _ hc
  root_notMem hnode hc := Nat.not_lt_zero _ ((fits_of_getElem? h hnode).lt _ hc)

end Document

end MeshOperator.Json
