import MeshOperator.Proofs.Data.Entries

/-!
# Merge patches

How the API applies the patches that the operator sends: an entry of the patch that is null removes the
entry under its key, a mapping is merged into what stands there, and anything else replaces it.

* `Data.mergePatch`: data with a patch applied to it.
* `Data.mergePatch_entry`: the effect of a patch with a single entry.
-/

namespace MeshOperator.Data

/-- the entries of a mapping, none of anything else -/
def ownEntries : Data → List (Data × Data)
  | .dict es => es
  | _ => []

mutual

/-- `target` with a patch applied to it -/
def mergePatch (target : Data) : Data → Data
  | .dict patch => .dict (mergeEntries target.ownEntries patch)
  | patch => patch

/-- entries with those of a patch applied to them -/
def mergeEntries (es : List (Data × Data)) : List (Data × Data) → List (Data × Data)
  | [] => es
  | (k, v) :: patch =>
    match k with
    | .text key =>
      let merged := mergePatch ((lookup? key es).getD .null) v
      mergeEntries (if v.isNull then without key es else withEntry key merged es) patch
    | _ => mergeEntries es patch

end

variable {target v : Data} {es : List (Data × Data)} {key : String}

theorem mergeEntries_cons (hv : v.isNull = false) (patch : List (Data × Data)) :
    mergeEntries es ((.text key, v) :: patch) =
      mergeEntries (withEntry key (mergePatch ((lookup? key es).getD .null) v) es) patch := by
  rw [mergeEntries]
  simp [hv]

theorem mergePatch_entry (hv : v.isNull = false) :
    target.mergePatch (.object [(key, v)]) =
      .dict (withEntry key (mergePatch ((lookup? key target.ownEntries).getD .null) v)
        target.ownEntries) := by
  have hpatch : Data.object [(key, v)] = .dict [(.text key, v)] := rfl
  rw [hpatch, mergePatch, mergeEntries_cons hv, mergeEntries]

theorem mergePatch_list (ds : List Data) : target.mergePatch (.list ds) = .list ds := by
  rw [mergePatch]
  exact fun _ h => nomatch h

theorem mergePatch_text (s : String) : target.mergePatch (.text s) = .text s := by
  rw [mergePatch]
  exact fun _ h => nomatch h

example : mergePatch (.object [("a", .int 1), ("b", .int 2)]) (.object [("a", .null), ("c", .int 3)]) =
    .object [("b", .int 2), ("c", .int 3)] := by cbv

end MeshOperator.Data
