import MeshOperator.Proofs.Data.Mappings

/-!
# Fields

Entries whose keys are texts, each there once, as those of an object are. Entries that are put one after the
other are such fields. If no two of them have one name, each of them is there.

* `AreFields`: entries that are fields.
* `putAll`, `lookup?_putAll`, `putAll_nil_eq_map`: fields put one after the other.
* `nodup_of_length_putAll`: only fields with different names are as many as were put.
-/

namespace MeshOperator.Data

/-- The keys of the entries are texts, and no two are the same. -/
structure AreFields (es : List (Data × Data)) : Prop extends AreEntries es where
  named : ∀ e ∈ es, ∃ k, e.1 = .text k

section Entries

variable {es : List (Data × Data)} {e : Data × Data} {key : String} {v : Data}

theorem areFields_nil : AreFields [] := ⟨areEntries_nil, List.forall_mem_nil _⟩

theorem AreFields.nodup (h : AreFields es) : (es.map Prod.fst).Nodup := by
  rw [List.Nodup, List.pairwise_map]
  refine h.apart.imp_of_mem fun {e f} he _ hsame heq => hsame ?_
  obtain ⟨k, hk⟩ := h.named e he
  rw [← heq]
  exact same_self_of_eq_text hk

theorem AreFields.lookup?_eq_some_iff (h : AreFields es) : lookup? key es = some v ↔ (.text key, v) ∈ es :=
  ⟨mem_of_lookup?, h.toAreEntries.lookup?_of_mem⟩

theorem mem_withEntry (h : e ∈ withEntry key v es) : e = (.text key, v) ∨ e ∈ es := by
  induction es with
  | nil => exact .inl (List.mem_singleton.1 h)
  | cons f es ih =>
    obtain ⟨k, u⟩ := f
    by_cases hk : k = .text key
    · rw [hk, withEntry_cons_self] at h
      exact (List.mem_cons.1 h).imp id (List.mem_cons_of_mem _)
    · rw [withEntry_cons_of_ne hk] at h
      rcases List.mem_cons.1 h with rfl | h
      · exact .inr (List.mem_cons_self ..)
      · exact (ih h).imp id (List.mem_cons_of_mem _)

theorem AreFields.withEntry (h : AreFields es) : AreFields (withEntry key v es) where
  toAreEntries := h.toAreEntries.withEntry
  named e he := by
    rcases mem_withEntry he with rfl | he
    · exact ⟨key, rfl⟩
    · exact h.named e he

/-- an entry with a new key is added at the end -/
theorem withEntry_eq_append (h : .text key ∉ es.map Prod.fst) : withEntry key v es = es ++ [(.text key, v)] := by
  induction es with
  | nil => rfl
  | cons e es ih =>
    obtain ⟨hne, hrest⟩ := not_or.1 (mt List.mem_cons.2 h)
    rw [withEntry_cons_of_ne (Ne.symm hne), ih hrest]
    rfl

/-- an entry with a key that is there takes the place of the other -/
theorem map_fst_withEntry (h : .text key ∈ es.map Prod.fst) :
    (withEntry key v es).map Prod.fst = es.map Prod.fst := by
  induction es with
  | nil => cases h
  | cons e es ih =>
    obtain ⟨k, u⟩ := e
    by_cases hk : k = .text key
    · rw [hk, withEntry_cons_self]
      rfl
    · have hmem := (List.mem_cons.1 h).resolve_left (Ne.symm hk)
      rw [withEntry_cons_of_ne hk, List.map_cons, List.map_cons, ih hmem]

/-- pairs with different names are fields -/
theorem areFields_object {fs : List (String × Data)} (h : (fs.map Prod.fst).Nodup) :
    AreFields (fs.map fun f => (.text f.1, f.2)) where
  toAreEntries := areEntries_object h
  named e he := by
    obtain ⟨f, -, rfl⟩ := List.mem_map.1 he
    exact ⟨f.1, rfl⟩

theorem lookup_eq_some_iff {fs : List (String × Data)} (h : (fs.map Prod.fst).Nodup) :
    fs.lookup key = some v ↔ (key, v) ∈ fs := by
  rw [← lookup?_object, (areFields_object h).lookup?_eq_some_iff]
  simp

end Entries

/-! ### Entries put one after the other -/

/-- the entries with others put one after the other -/
def putAll (es : List (Data × Data)) (fs : List (String × Data)) : List (Data × Data) :=
  fs.foldl (fun es f => Data.withEntry f.1 f.2 es) es

section Putting

variable {es : List (Data × Data)} {fs : List (String × Data)} {key : String}

@[simp] theorem putAll_nil (es : List (Data × Data)) : putAll es [] = es := rfl

@[simp] theorem putAll_cons (es : List (Data × Data)) (f : String × Data) (fs : List (String × Data)) :
    putAll es (f :: fs) = putAll (withEntry f.1 f.2 es) fs := rfl

theorem AreFields.putAll (h : AreFields es) (fs : List (String × Data)) : AreFields (putAll es fs) := by
  induction fs generalizing es with
  | nil => exact h
  | cons f fs ih => exact ih h.withEntry

theorem mem_putAll {e : Data × Data} (h : e ∈ putAll es fs) : e ∈ es ∨ ∃ f ∈ fs, e = (.text f.1, f.2) := by
  induction fs generalizing es with
  | nil => exact .inl h
  | cons f fs ih =>
    rcases ih h with h | ⟨g, hg, rfl⟩
    · rcases mem_withEntry h with rfl | h
      · exact .inr ⟨f, List.mem_cons_self .., rfl⟩
      · exact .inl h
    · exact .inr ⟨g, List.mem_cons_of_mem _ hg, rfl⟩

/-- what stands under a name is what was put there last -/
theorem lookup?_putAll (h : (fs.map Prod.fst).Nodup) (es : List (Data × Data)) (key : String) :
    lookup? key (putAll es fs) = (fs.lookup key).or (lookup? key es) := by
  induction fs generalizing es with
  | nil => rfl
  | cons f fs ih =>
    obtain ⟨hnew, hnodup⟩ := List.nodup_cons.1 h
    rw [putAll_cons, ih hnodup, List.lookup_cons]
    by_cases hkey : key = f.1
    · have hnone : fs.lookup f.1 = none :=
        List.lookup_eq_none_iff.2 fun g hg => bne_iff_ne.2 fun heq => hnew (heq ▸ List.mem_map_of_mem hg)
      rw [hkey, hnone, lookup?_withEntry]
      simp
    · rw [lookup?_withEntry_of_ne hkey, beq_eq_false_iff_ne.2 hkey]

/-- entries with different new names are added at the end, in their order -/
theorem putAll_eq_append (h : (fs.map Prod.fst).Nodup) (hes : ∀ f ∈ fs, .text f.1 ∉ es.map Prod.fst) :
    putAll es fs = es ++ fs.map fun f => (.text f.1, f.2) := by
  induction fs generalizing es with
  | nil => simp
  | cons f fs ih =>
    obtain ⟨hnew, hnodup⟩ := List.nodup_cons.1 h
    obtain ⟨hf, hfs⟩ := List.forall_mem_cons.1 hes
    rw [putAll_cons, withEntry_eq_append hf, ih hnodup fun g hg => ?_]
    · simp
    · rw [List.map_append, List.mem_append, not_or]
      refine ⟨hfs g hg, fun heq => hnew ?_⟩
      have hname : g.1 = f.1 := by simpa using heq
      exact hname ▸ List.mem_map_of_mem hg

theorem putAll_nil_eq_map (h : (fs.map Prod.fst).Nodup) : putAll [] fs = fs.map fun f => (.text f.1, f.2) :=
  putAll_eq_append h fun _ _ => List.not_mem_nil

theorem length_putAll_le (es : List (Data × Data)) (fs : List (String × Data)) :
    (putAll es fs).length ≤ es.length + fs.length := by
  induction fs generalizing es with
  | nil => exact Nat.le_refl _
  | cons f fs ih =>
    have hone : (withEntry f.1 f.2 es).length ≤ es.length + 1 := by
      by_cases hkey : .text f.1 ∈ es.map Prod.fst
      · have := congrArg List.length (map_fst_withEntry (v := f.2) hkey)
        rw [List.length_map, List.length_map] at this
        omega
      · rw [withEntry_eq_append hkey]
        simp
    have := ih (withEntry f.1 f.2 es)
    rw [putAll_cons, List.length_cons]
    omega

/-- entries of which none took the place of another have different new names -/
theorem nodup_of_length_putAll (h : (putAll es fs).length = es.length + fs.length) :
    (fs.map Prod.fst).Nodup ∧ ∀ f ∈ fs, .text f.1 ∉ es.map Prod.fst := by
  induction fs generalizing es with
  | nil => exact ⟨List.nodup_nil, List.forall_mem_nil _⟩
  | cons f fs ih =>
    have hle := length_putAll_le (withEntry f.1 f.2 es) fs
    rw [putAll_cons, List.length_cons] at h
    have hkey : .text f.1 ∉ es.map Prod.fst := by
      intro hkey
      have := congrArg List.length (map_fst_withEntry (v := f.2) hkey)
      rw [List.length_map, List.length_map] at this
      omega
    rw [withEntry_eq_append hkey] at h
    obtain ⟨hnodup, hnew⟩ := ih (by rw [h, List.length_append, List.length_singleton]; omega)
    refine ⟨List.nodup_cons.2 ⟨fun hmem => ?_, hnodup⟩,
      List.forall_mem_cons.2 ⟨hkey, fun g hg hmem => hnew g hg ?_⟩⟩
    · obtain ⟨g, hg, heq⟩ := List.mem_map.1 hmem
      exact hnew g hg (by simp [heq])
    · rw [List.map_append]
      exact List.mem_append_left _ hmem

end Putting

end MeshOperator.Data
