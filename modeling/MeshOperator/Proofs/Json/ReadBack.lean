import Mathlib.Data.List.Nodup
import MeshOperator.Data.Shown
import MeshOperator.Proofs.Data.Fields
import MeshOperator.Proofs.Json.Strings
import MeshOperator.Proofs.Number.Rounding

/-!
# Data that is read back

Data that JSON has a form for is read back as it was written, but for the halves of a surrogate pair that stand
next to each other in a text or a key: a reader makes one character of them, and of entries whose keys have
become the same it keeps the last. So data is read back as it is exactly if no such halves stand next to each
other in it.

* `Data.IsJson`: data that JSON has a form for.
* `Data.readBack`, `Data.isUnsplit`: what a reader takes data for, and data without such halves.
* `Data.readBack_eq_iff`: which data is read back as it is.
-/

namespace MeshOperator

namespace Data

/-! ### Data of JSON -/

/-- JSON has a form for the data: scalars, lists of such data, and mappings from texts to it. -/
inductive IsJson : Data → Prop
  | null : IsJson .null
  | bool (b : Bool) : IsJson (.bool b)
  | int (n : ℤ) : IsJson (.int n)
  | double (negative : Bool) {m : ℕ} {e : ℤ} (fits : Double.Fits m e) : IsJson (.double (.finite negative m e))
  | text (s : String) : IsJson (.text s)
  | list {ds : List Data} (items : ∀ d ∈ ds, IsJson d) : IsJson (.list ds)
  | dict {es : List (Data × Data)} (fields : AreFields es) (values : ∀ e ∈ es, IsJson e.2) : IsJson (.dict es)

/-! ### What is read back -/

mutual

/-- what a reader takes the written form of data for -/
def readBack : Data → Data
  | .scalar (.text s) => .text (String.ofList (joined s.toList))
  | .list ds => .list (readBackItems ds)
  | .dict es => .dict (putAll [] (readBackEntries es))
  | d => d

/-- what it takes the items for -/
def readBackItems : List Data → List Data
  | [] => []
  | d :: ds => readBack d :: readBackItems ds

/-- what it takes the entries for, one after the other -/
def readBackEntries : List (Data × Data) → List (String × Data)
  | [] => []
  | (k, v) :: es => (String.ofList (joined k.plainText.toList), readBack v) :: readBackEntries es

end

mutual

/-- whether no halves of a surrogate pair stand next to each other in the texts of data -/
def isUnsplit : Data → Bool
  | .scalar (.text s) => MeshOperator.isUnsplit s.toList
  | .list ds => areUnsplit ds
  | .dict es => areUnsplitEntries es
  | _ => true

/-- the same of items -/
def areUnsplit : List Data → Bool
  | [] => true
  | d :: ds => isUnsplit d && areUnsplit ds

/-- the same of entries and their keys -/
def areUnsplitEntries : List (Data × Data) → Bool
  | [] => true
  | (k, v) :: es => isUnsplit k && isUnsplit v && areUnsplitEntries es

end

section Readings

variable {es : List (Data × Data)}

theorem readBackItems_eq (ds : List Data) : readBackItems ds = ds.map readBack := by
  induction ds with
  | nil => rfl
  | cons d ds ih => rw [readBackItems, ih, List.map_cons]

theorem readBackEntries_eq (es : List (Data × Data)) :
    readBackEntries es = es.map fun e => (String.ofList (joined e.1.plainText.toList), readBack e.2) := by
  induction es with
  | nil => rfl
  | cons e es ih => rw [readBackEntries, ih, List.map_cons]

theorem areUnsplit_iff (ds : List Data) : areUnsplit ds = true ↔ ∀ d ∈ ds, d.isUnsplit = true := by
  induction ds with
  | nil => simp [areUnsplit]
  | cons d ds ih => simp [areUnsplit, ih]

theorem areUnsplitEntries_iff (es : List (Data × Data)) :
    areUnsplitEntries es = true ↔ ∀ e ∈ es, e.1.isUnsplit = true ∧ e.2.isUnsplit = true := by
  induction es with
  | nil => simp [areUnsplitEntries]
  | cons e es ih => simp [areUnsplitEntries, ih]

theorem readBack_text_eq_iff (s : String) : (Data.text s).readBack = .text s ↔ (Data.text s).isUnsplit = true := by
  rw [isUnsplit, ← joined_eq_iff, readBack, Data.scalar.injEq, Scalar.text.injEq]
  constructor
  · intro h
    simpa using congrArg String.toList h
  · intro h
    rw [h, String.ofList_toList]

/-- the entry that is read back for another, if it is not put in the place of one -/
def readBackEntry (e : Data × Data) : Data × Data :=
  (.text (String.ofList (joined e.1.plainText.toList)), e.2.readBack)

theorem readBackEntry_eq_iff {e : Data × Data} (hkey : ∃ k, e.1 = .text k)
    (hvalue : e.2.readBack = e.2 ↔ e.2.isUnsplit = true) :
    readBackEntry e = e ↔ e.1.isUnsplit = true ∧ e.2.isUnsplit = true := by
  obtain ⟨k, v⟩ := e
  obtain ⟨key, rfl⟩ := hkey
  rw [readBackEntry, Prod.mk.injEq, ← readBack_text_eq_iff key, hvalue]
  rfl

/-- Entries are read back in their places if no two of them have one name then. -/
theorem putAll_readBackEntries (h : ((readBackEntries es).map Prod.fst).Nodup) :
    putAll [] (readBackEntries es) = es.map readBackEntry := by
  rw [putAll_nil_eq_map h, readBackEntries_eq, List.map_map]
  rfl

theorem map_readBackEntry_eq_iff : es.map readBackEntry = es ↔ ∀ e ∈ es, readBackEntry e = e := by
  have h := @List.map_inj_left _ _ es readBackEntry id
  rwa [List.map_id] at h

/-- keys without such halves stay apart -/
theorem nodup_readBackEntries (h : AreFields es) (hkeys : ∀ e ∈ es, (readBackEntry e).1 = e.1) :
    ((readBackEntries es).map Prod.fst).Nodup := by
  have hnames : ((readBackEntries es).map Prod.fst).map Data.text = es.map Prod.fst := by
    rw [readBackEntries_eq, List.map_map, List.map_map]
    exact List.map_congr_left hkeys
  exact List.Nodup.of_map _ (hnames ▸ h.nodup)

theorem putAll_readBackEntries_eq_iff (h : AreFields es) :
    putAll [] (readBackEntries es) = es ↔ ∀ e ∈ es, readBackEntry e = e := by
  constructor
  · intro heq
    have hlength : (putAll [] (readBackEntries es)).length =
        ([] : List (Data × Data)).length + (readBackEntries es).length := by
      rw [heq, readBackEntries_eq, List.length_map, List.length_nil, Nat.zero_add]
    rw [putAll_readBackEntries (nodup_of_length_putAll hlength).1] at heq
    exact map_readBackEntry_eq_iff.1 heq
  · intro hall
    rw [putAll_readBackEntries (nodup_readBackEntries h fun e he => congrArg Prod.fst (hall e he))]
    exact map_readBackEntry_eq_iff.2 hall

/-- what is read back under a name, if the names are read back as they are -/
theorem lookup?_readBackEntries (h : AreFields es) (hkeys : ∀ e ∈ es, (readBackEntry e).1 = e.1) {key : String}
    {v : Data} (hv : lookup? key es = some v) :
    lookup? key (putAll [] (readBackEntries es)) = some v.readBack := by
  have hmem := mem_of_lookup? hv
  rw [(areFields_nil.putAll _).lookup?_eq_some_iff, putAll_readBackEntries (nodup_readBackEntries h hkeys)]
  exact List.mem_map.2 ⟨_, hmem, Prod.ext (hkeys _ hmem) rfl⟩

/-- **Reading back.**  A reader takes data for itself exactly if it holds no surrogate pair in halves. The
characters U+10D800 to U+10DFFF of its texts are halves (`holdsHalf`). -/
theorem readBack_eq_iff {d : Data} (h : d.IsJson) : d.readBack = d ↔ d.isUnsplit = true := by
  induction h with
  | null | bool | int | double => exact ⟨fun _ => rfl, fun _ => rfl⟩
  | text s => exact readBack_text_eq_iff s
  | @list ds _ ih =>
    have hmap := @List.map_inj_left _ _ ds readBack id
    rw [List.map_id] at hmap
    rw [readBack, readBackItems_eq, isUnsplit, areUnsplit_iff, Data.list.injEq, hmap]
    exact forall₂_congr ih
  | dict fields _ ih =>
    rw [readBack, isUnsplit, areUnsplitEntries_iff, Data.dict.injEq, putAll_readBackEntries_eq_iff fields]
    exact forall₂_congr fun e he => readBackEntry_eq_iff (fields.named e he) (ih e he)

end Readings

end Data

end MeshOperator
