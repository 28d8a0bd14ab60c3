import MeshOperator.Proofs.Text.Cutting
import MeshOperator.Values.Basic

/-!
# Dotted paths

The keys of a path are the pieces between its dots, so every list of keys without dots is that of a path.

* `intercalate_pathKeys`: a path is made of its keys.
* `exists_pathKeys_eq`: the first keys of a path are those of a path.
* `IsApart`: neither of two paths goes on where the other ends.
-/

namespace MeshOperator

theorem pathKeys_ne_nil (path : String) : pathKeys path ≠ [] := by
  simpa [pathKeys, Text.pieces] using Text.cut_ne_nil '.' path.toList

/-- a path is written with dots between its keys -/
theorem intercalate_pathKeys (path : String) : String.intercalate "." (pathKeys path) = path := by
  have hpieces : (pathKeys path).map String.toList = Text.cut '.' path.toList := by
    simp [pathKeys, Text.pieces, Function.comp_def]
  rw [← String.toList_inj, String.toList_intercalate, hpieces]
  exact Text.intercalate_cut _

/-- the first keys of a path are those of a path -/
theorem exists_pathKeys_eq {path : String} {keys : List String} (hne : keys ≠ [])
    (h : keys <+: pathKeys path) : ∃ p, pathKeys p = keys := by
  have hfree : ∀ p ∈ keys.map String.toList, '.' ∉ p := by
    intro p hp
    obtain ⟨key, hkey, rfl⟩ := List.mem_map.1 hp
    obtain ⟨q, hq, rfl⟩ := List.mem_map.1 (h.subset hkey)
    rw [String.toList_ofList]
    exact Text.notMem_of_mem_cut hq
  refine ⟨String.ofList (Text.glue ['.'] (keys.map String.toList)), ?_⟩
  have hmap : keys.map String.toList ≠ [] := by simpa using hne
  rw [pathKeys, Text.pieces, String.toList_ofList, Text.cut_glue hmap hfree, List.map_map]
  simp [Function.comp_def]

/-- Neither of two paths goes on where the other ends. -/
structure IsApart (p q : String) : Prop where
  not_prefix : ¬ pathKeys p <+: pathKeys q
  not_extension : ¬ pathKeys q <+: pathKeys p

end MeshOperator
