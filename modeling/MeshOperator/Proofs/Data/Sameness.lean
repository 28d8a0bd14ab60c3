import Mathlib.Data.List.Forall2
import MeshOperator.Proofs.Data.Entries

/-!
# Data that equals itself

Not-a-number equals nothing, itself included, and data that holds it has no equal either. Objects of the
cluster are written as JSON, which has no form for it.

* `Data.isDefinite`: data without not-a-number that does not hold itself.
* `Data.isWhole`: data that does not hold itself.
* `Data.same_self`: such data equals itself.
-/

namespace MeshOperator

theorem Extended.equal_self (x : Extended) : x.equal x = true := by
  cases x <;> simp [equal]

namespace Scalar

/-- whether a scalar is no not-a-number -/
def isDefinite (s : Scalar) : Bool := s ≠ .double .nan

theorem same_self {s : Scalar} (h : s.isDefinite = true) : s.same s = true := by
  cases s with
  | double d =>
    have hd : d ≠ .nan := by simpa [isDefinite] using h
    obtain ⟨x, hx⟩ : ∃ x, d.extended? = some x := by
      cases d with
      | nan => exact absurd rfl hd
      | infinite negative => cases negative <;> exact ⟨_, rfl⟩
      | finite negative mantissa exponent => exact ⟨_, rfl⟩
    simp [same, point?, hx, Extended.equal_self]
  | _ => simp [same, point?, Extended.equal_self]

end Scalar

namespace Data

mutual

/-- whether data neither holds not-a-number nor itself -/
def isDefinite : Data → Bool
  | .scalar s => s.isDefinite
  | .date _ | .moment _ => true
  | .list items | .tuple items | .set items => areDefinite items
  | .dict es => areDefiniteEntries es
  | .again _ => false

/-- the same of all items -/
def areDefinite : List Data → Bool
  | [] => true
  | d :: ds => isDefinite d && areDefinite ds

/-- the same of all keys and values -/
def areDefiniteEntries : List (Data × Data) → Bool
  | [] => true
  | (k, v) :: es => isDefinite k && isDefinite v && areDefiniteEntries es

end

theorem areDefinite_iff (ds : List Data) : areDefinite ds = true ↔ ∀ d ∈ ds, d.isDefinite = true := by
  induction ds with
  | nil => simp [areDefinite]
  | cons d ds ih => simp [areDefinite, ih]

theorem areDefiniteEntries_iff (es : List (Data × Data)) : areDefiniteEntries es = true ↔
    ∀ e ∈ es, e.1.isDefinite = true ∧ e.2.isDefinite = true := by
  induction es with
  | nil => simp [areDefiniteEntries]
  | cons e es ih => simp [areDefiniteEntries, ih]

mutual

/-- whether data does not hold itself -/
def isWhole : Data → Bool
  | .scalar _ | .date _ | .moment _ => true
  | .list items | .tuple items | .set items => areWhole items
  | .dict es => areWholeEntries es
  | .again _ => false

/-- the same of all items -/
def areWhole : List Data → Bool
  | [] => true
  | d :: ds => isWhole d && areWhole ds

/-- the same of all keys and values -/
def areWholeEntries : List (Data × Data) → Bool
  | [] => true
  | (k, v) :: es => isWhole k && isWhole v && areWholeEntries es

end

mutual

theorem isWhole_of_isDefinite : ∀ d : Data, d.isDefinite = true → d.isWhole = true
  | .scalar _, _ => rfl
  | .date _, _ => rfl
  | .moment _, _ => rfl
  | .list ds, h => areWhole_of_areDefinite ds h
  | .tuple ds, h => areWhole_of_areDefinite ds h
  | .set ds, h => areWhole_of_areDefinite ds h
  | .dict es, h => areWholeEntries_of_areDefiniteEntries es h
  | .again _, h => h

theorem areWhole_of_areDefinite : ∀ ds : List Data, areDefinite ds = true → areWhole ds = true
  | [], _ => rfl
  | d :: ds, h => by
    rw [areDefinite, Bool.and_eq_true] at h
    rw [areWhole, isWhole_of_isDefinite d h.1, areWhole_of_areDefinite ds h.2]
    rfl

theorem areWholeEntries_of_areDefiniteEntries :
    ∀ es : List (Data × Data), areDefiniteEntries es = true → areWholeEntries es = true
  | [], _ => rfl
  | (k, v) :: es, h => by
    rw [areDefiniteEntries, Bool.and_eq_true, Bool.and_eq_true] at h
    rw [areWholeEntries, isWhole_of_isDefinite k h.1.1, isWhole_of_isDefinite v h.1.2,
      areWholeEntries_of_areDefiniteEntries es h.2]
    rfl

end

/-! ### Tests that data meets -/

theorem sameTests_eq (ds : List Data) : sameTests ds = ds.map same := by
  induction ds with
  | nil => rfl
  | cons d ds ih => simp [sameTests, ih]

theorem entryTests_eq (es : List (Data × Data)) :
    entryTests es = es.map fun e b => same e.1 b.1 && same e.2 b.2 := by
  induction es with
  | nil => rfl
  | cons e es ih => simp [entryTests, ih]

variable {α : Type} {test : α → α → Bool} {as : List α}

theorem testsHold_map_iff {bs : List α} :
    testsHold (as.map test) bs = true ↔ List.Forall₂ (fun a b => test a b = true) as bs := by
  induction as generalizing bs with
  | nil => cases bs <;> simp [testsHold]
  | cons a as ih => cases bs <;> simp [testsHold, ih]

theorem testsHold_self_iff :
    testsHold (as.map test) as = true ↔ ∀ a ∈ as, test a a = true := by
  induction as with
  | nil => simp [testsHold]
  | cons a as ih => simp [testsHold, ih]

theorem testsMeet_self (h : ∀ a ∈ as, test a a = true) : testsMeet (as.map test) as = true := by
  simp only [testsMeet, List.length_map, decide_true, Bool.true_and, List.all_eq_true, List.mem_map]
  rintro _ ⟨a, ha, rfl⟩
  exact List.any_eq_true.2 ⟨a, ha, h a ha⟩

theorem same_self : ∀ d : Data, d.isDefinite = true → d.same d = true
  | .scalar s, h => by
    rw [isDefinite] at h
    rw [same]
    exact Scalar.same_self h
  | .date d, _ => by simp [same]
  | .moment m, _ => by simp [same, Moment.same]
  | .list ds, h => by
    rw [isDefinite, areDefinite_iff] at h
    rw [same, sameTests_eq]
    exact testsHold_self_iff.2 fun d hd => same_self d (h d hd)
  | .tuple ds, h => by
    rw [isDefinite, areDefinite_iff] at h
    rw [same, sameTests_eq]
    exact testsHold_self_iff.2 fun d hd => same_self d (h d hd)
  | .set ds, h => by
    rw [isDefinite, areDefinite_iff] at h
    rw [same, sameTests_eq]
    exact testsMeet_self fun d hd => same_self d (h d hd)
  | .dict es, h => by
    rw [isDefinite, areDefiniteEntries_iff] at h
    rw [same, entryTests_eq]
    refine testsMeet_self ?_
    rintro ⟨k, v⟩ he
    obtain ⟨hkey, hvalue⟩ := h _ he
    have hsize : 1 + sizeOf k + sizeOf v < sizeOf es := List.sizeOf_lt_of_mem he
    simp [same_self k hkey, same_self v hvalue]
  | .again _, h => by simp [isDefinite] at h

/-! ### Parts of definite data -/

variable {key : String} {es : List (Data × Data)} {d e : Data}

theorem isDefinite_of_lookup? (hes : (Data.dict es).isDefinite = true)
    (h : lookup? key es = some d) : d.isDefinite = true := by
  rw [isDefinite, areDefiniteEntries_iff] at hes
  fun_induction lookup? key es with
  | case1 => cases h
  | case2 v rest =>
    cases h
    exact (hes _ (List.mem_cons_self ..)).2
  | case3 v rest s hs ih => exact ih (fun e he => hes e (List.mem_cons_of_mem _ he)) h
  | case4 k v rest hk ih => exact ih (fun e he => hes e (List.mem_cons_of_mem _ he)) h

/-- putting definite data under a key keeps a mapping definite -/
theorem areDefiniteEntries_withEntry (hd : d.isDefinite = true) (hes : areDefiniteEntries es = true) :
    areDefiniteEntries (withEntry key d es) = true := by
  induction es with
  | nil => simp [withEntry, areDefiniteEntries, hd, isDefinite, Scalar.isDefinite]
  | cons e es ih =>
    obtain ⟨k, v⟩ := e
    simp only [areDefiniteEntries, Bool.and_eq_true] at hes
    by_cases hk : k = .text key
    · rw [hk, withEntry_cons_self]
      simp [areDefiniteEntries, hd, hes.2, isDefinite, Scalar.isDefinite]
    · rw [withEntry_cons_of_ne hk]
      simp [areDefiniteEntries, hes.1.1, hes.1.2, ih hes.2]

theorem isDefinite_lookup?_getD (hes : (Data.dict es).isDefinite = true) (hd : d.isDefinite = true) :
    ((lookup? key es).getD d).isDefinite = true := by
  cases h : lookup? key es with
  | none => exact hd
  | some v => exact isDefinite_of_lookup? hes h

theorem isDefinite_orElse (hd : d.isDefinite = true) (he : e.isDefinite = true) :
    (d.orElse e).isDefinite = true := by
  rcases orElse_eq_or d e with h | h
  · rwa [h]
  · rwa [h]

theorem isDefinite_of_mem_members {ds : List Data} (hd : d.isDefinite = true)
    (h : d.members = .ok ds) : ∀ e ∈ ds, e.isDefinite = true := by
  cases d with
  | scalar s =>
    -- characters and bytes are texts and integers
    cases s with
    | text s =>
      cases h
      simp [isDefinite, Scalar.isDefinite]
    | bytes b =>
      cases h
      simp [isDefinite, Scalar.isDefinite]
    | _ => cases h
  | list items | tuple items | set items =>
    cases h
    rwa [isDefinite, areDefinite_iff] at hd
  | dict es =>
    cases h
    rw [isDefinite, areDefiniteEntries_iff] at hd
    intro e he
    obtain ⟨entry, hentry, rfl⟩ := List.mem_map.1 he
    exact (hd entry hentry).1
  | _ => cases h

end Data

end MeshOperator
