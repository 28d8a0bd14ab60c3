import MeshOperator.Proofs.Data.Mappings
import MeshOperator.Proofs.Revision.StatusForm

/-!
# Statuses and what is written of them

What is written of a status says as much as the status: it is read back, it is written again as it is, and it
is equal to what is written of another exactly if the statuses are. Of conditions with a part that counts as
no this would be false, and none of them is read from data.

* `Condition.same_toData_iff`, `Status.same_toData_iff`: equal statuses, and what is written of them.
* `Status.IsHeld`: the statuses that there are: texts in every place, or read from data.
* `Status.toData_lossless`: what is written is a normal form, and tells statuses apart.
-/

namespace MeshOperator

namespace Data

theorem same_int_iff {m n : Int} : (Data.int m).same (.int n) = true ↔ m = n := by
  simp [same, Scalar.same, Scalar.point?, Extended.ofInt, Extended.equal]

theorem same_list_iff {as bs : List Data} :
    (Data.list as).same (.list bs) = true ↔ List.Forall₂ (fun a b => a.same b = true) as bs := by
  rw [same, sameTests_eq, testsHold_map_iff]

end Data

/-! ### Conditions -/

namespace Condition

variable {c d : Condition} {cs ds : List Condition}

/-- the keys in the form of a condition, of which some may be left out -/
def formKeys : List String := ["type", "status", "reason", "message", "lastTransitionTime"]

/-- what stands in the form of a condition -/
def entries (c : Condition) : List (String × Data) :=
  [("type", c.type), ("status", c.status)] ++ optional "reason" c.reason
    ++ optional "message" c.message ++ optional "lastTransitionTime" c.since

theorem keys_optional_sublist (key : String) (d : Data) : ((optional key d).map Prod.fst).Sublist [key] := by
  unfold optional
  split <;> simp

theorem keys_entries_sublist (c : Condition) : (c.entries.map Prod.fst).Sublist formKeys := by
  simp only [entries, List.map_append]
  exact (((List.Sublist.refl ["type", "status"]).append (keys_optional_sublist "reason" _)).append
    (keys_optional_sublist "message" _)).append (keys_optional_sublist "lastTransitionTime" _)

theorem lookup_optional (key : String) (d : Data) :
    (optional key d).lookup key = if d.truthy then some d else none := by
  unfold optional
  split <;> simp

/-- Parts that reading does not replace are written alike if they are equal: they are left out together. -/
theorem rel_optional_iff {a b : Data} (ha : a.Stands) (hb : b.Stands) :
    Option.Rel (fun a b => a.same b = true) (if a.truthy then some a else none)
      (if b.truthy then some b else none) ↔ a.same b = true := by
  have hempty : ¬ (Data.text "").truthy = true := by decide
  rcases ha with ha | rfl
  · rcases hb with hb | rfl
    · simp [ha, hb]
    · have hne : a ≠ .text "" := fun h => hempty (h ▸ ha)
      simp [ha, hempty, Data.same_text, hne]
  · rcases hb with hb | rfl
    · have hne : b ≠ .text "" := fun h => hempty (h ▸ hb)
      simp [hb, hempty, Data.text_same, hne]
    · simp [hempty, Data.same_text]

theorem same_toData_iff (hc : c.IsPlain) (hd : d.IsPlain) :
    c.toData.same d.toData = true ↔ c.same d = true := by
  have hnodup : formKeys.Nodup := by decide
  have hlookup (c : Condition) : c.entries.lookup "type" = some c.type ∧
      c.entries.lookup "status" = some c.status ∧
      c.entries.lookup "reason" = (if c.reason.truthy then some c.reason else none) ∧
      c.entries.lookup "message" = (if c.message.truthy then some c.message else none) ∧
      c.entries.lookup "lastTransitionTime" = (if c.since.truthy then some c.since else none) := by
    simp [entries, List.lookup_append, List.lookup_cons, lookup_optional, lookup_optional_ne]
  obtain ⟨htype, hstatus, hreason, hmessage, hsince⟩ := hlookup c
  obtain ⟨htype', hstatus', hreason', hmessage', hsince'⟩ := hlookup d
  change (Data.object c.entries).same (.object d.entries) = true ↔ _
  rw [Data.same_object_iff (hnodup.sublist c.keys_entries_sublist) (hnodup.sublist d.keys_entries_sublist)
    hnodup c.keys_entries_sublist.subset d.keys_entries_sublist.subset]
  simp only [formKeys, List.forall_mem_cons, List.not_mem_nil, false_imp_iff, implies_true, and_true,
    htype, hstatus, hreason, hmessage, hsince, htype', hstatus', hreason', hmessage', hsince',
    Option.rel_some_some, rel_optional_iff hc.reason hd.reason, rel_optional_iff hc.message hd.message,
    rel_optional_iff hc.since hd.since, same, Bool.and_eq_true, and_assoc]

theorem forall₂_toData_iff (hcs : ∀ c ∈ cs, c.IsPlain) (hds : ∀ d ∈ ds, d.IsPlain) :
    List.Forall₂ (fun a b => a.same b = true) (cs.map toData) (ds.map toData) ↔
      List.Forall₂ (fun c d => c.same d = true) cs ds := by
  induction cs generalizing ds with
  | nil => cases ds <;> simp
  | cons c cs ih =>
    cases ds with
    | nil => simp
    | cons d ds =>
      obtain ⟨hc, hcs⟩ := List.forall_mem_cons.1 hcs
      obtain ⟨hd, hds⟩ := List.forall_mem_cons.1 hds
      simp only [List.map_cons, List.forall₂_cons, same_toData_iff hc hd, ih hcs hds]

end Condition

/-! ### Statuses -/

/-- Every part of the condition is a text. -/
structure Condition.IsWorded (c : Condition) : Prop where
  type : ∃ s, c.type = .text s
  status : ∃ s, c.status = .text s
  reason : ∃ s, c.reason = .text s
  message : ∃ s, c.message = .text s
  since : ∃ s, c.since = .text s

theorem Condition.IsWorded.isPlain {c : Condition} (h : c.IsWorded) : c.IsPlain := by
  obtain ⟨-, -, ⟨r, hr⟩, ⟨m, hm⟩, ⟨t, ht⟩⟩ := h
  exact ⟨hr ▸ Data.stands_text r, hm ▸ Data.stands_text m, ht ▸ Data.stands_text t⟩

namespace Status

variable {s t : Status} {d : Data}

/-- Every part of the status but its generation is a text, or made of texts. -/
structure IsWorded (s : Status) : Prop where
  state : ∃ x, s.state = .text x
  conditions : ∀ c ∈ s.conditions, c.IsWorded

theorem IsWorded.isPlain (h : s.IsWorded) : s.IsPlain := by
  obtain ⟨x, hx⟩ := h.state
  exact ⟨hx ▸ Data.stands_text x, fun c hc => (h.conditions c hc).isPlain⟩

/-- The status is one of texts, or was read from data. -/
def IsHeld (s : Status) : Prop := s.IsWorded ∨ ∃ d, ofData d = .ok s

theorem IsHeld.isPlain (h : s.IsHeld) : s.IsPlain := by
  rcases h with hworded | ⟨d, hd⟩
  · exact hworded.isPlain
  · exact isPlain_of_ofData hd

/-- the keys in the form of a status -/
def formKeys : List String := ["observedGeneration", "conditions", "state"]

/-- what stands in the form of a status -/
def entries (s : Status) : List (String × Data) :=
  [("observedGeneration", .int s.generation), ("conditions", .list (s.conditions.map Condition.toData)),
    ("state", s.state)]

theorem same_toData_iff (hs : s.IsPlain) (ht : t.IsPlain) :
    s.toData.same t.toData = true ↔ s.same t = true := by
  have hkeys (s : Status) : s.entries.map Prod.fst = formKeys := rfl
  have hnodup (s : Status) : (s.entries.map Prod.fst).Nodup := by rw [hkeys]; decide
  change (Data.object s.entries).same (.object t.entries) = true ↔ _
  rw [Data.same_object_iff (hnodup s) (hnodup t) (hnodup s) (List.Subset.refl _)
    (by rw [hkeys, hkeys]; exact List.Subset.refl _)]
  simp [entries, List.lookup_cons, Data.same_int_iff, Data.same_list_iff, Data.testsHold_map_iff,
    Condition.forall₂_toData_iff hs.conditions ht.conditions, same, and_assoc]

theorem toData_inj (hs : s.IsPlain) (ht : t.IsPlain) : s.toData = t.toData ↔ s = t := by
  constructor
  · intro h
    have hread := ofData_toData hs
    rw [h, ofData_toData ht] at hread
    exact (Except.ok.inj hread).symm
  · rintro rfl
    rfl

/-- **What is written of a status.**  A status of texts is read back. What was read is written in a normal form:
reading it and writing it again changes nothing. Statuses are one, and are equal, exactly if what is written of
them is. -/
theorem toData_lossless :
    (∀ s : Status, s.IsWorded → ofData s.toData = .ok s) ∧
    (∀ d s, ofData d = .ok s → (ofData s.toData).map toData = .ok s.toData) ∧
    ∀ s t : Status, s.IsHeld → t.IsHeld →
      (s.toData = t.toData ↔ s = t) ∧ s.toData.same t.toData = s.same t := by
  refine ⟨fun s hs => ofData_toData hs.isPlain, fun d s h => ?_, fun s t hs ht => ⟨?_, ?_⟩⟩
  · rw [ofData_toData (isPlain_of_ofData h)]
    rfl
  · exact toData_inj hs.isPlain ht.isPlain
  · exact Bool.eq_iff_iff.2 (same_toData_iff hs.isPlain ht.isPlain)

/-- a status with two conditions of one type and empty texts -/
def repeated : Status where
  generation := 7
  conditions := [
    { type := readyType, status := statusFalse, message := .text "1/2", since := .text "2024-02-29T00:00:00Z" },
    { type := readyType, status := .text "" }]

/-- data with parts that count as no, of other kinds, or of no meaning -/
def mixed : Data := .object [
  ("observedGeneration", .text " 7 "), ("phase", .text "old"), ("state", .bool false),
  ("conditions", .list [.object [("reason", .int 0), ("status", .null)], .object [("type", .int 1)]])]

/-- what is read from it -/
def readFromMixed : Status where
  generation := 7
  conditions := [{ type := .text "", status := .null }, { type := .int 1 }]

theorem toData_lossless_repeated :
    repeated.IsWorded ∧ ofData repeated.toData = .ok repeated ∧
    ofData mixed = .ok readFromMixed ∧ (ofData readFromMixed.toData).map toData = .ok readFromMixed.toData ∧
    repeated.IsHeld ∧ readFromMixed.IsHeld ∧
    repeated ≠ readFromMixed ∧ repeated.toData ≠ readFromMixed.toData ∧
    repeated.toData.same readFromMixed.toData = false := by
  have hworded : repeated.IsWorded := by
    refine ⟨⟨_, rfl⟩, ?_⟩
    simp only [repeated, List.forall_mem_cons, List.not_mem_nil, false_imp_iff, implies_true, and_true]
    exact ⟨⟨⟨_, rfl⟩, ⟨_, rfl⟩, ⟨_, rfl⟩, ⟨_, rfl⟩, ⟨_, rfl⟩⟩, ⟨⟨_, rfl⟩, ⟨_, rfl⟩, ⟨_, rfl⟩, ⟨_, rfl⟩, ⟨_, rfl⟩⟩⟩
  have hread : ofData mixed = .ok readFromMixed := rfl
  have hdiffer : repeated.same readFromMixed = false := by decide
  have hne : repeated ≠ readFromMixed := fun h => by
    simp [repeated, readFromMixed, readyType] at h
  obtain ⟨hback, hnormal, happart⟩ := toData_lossless
  obtain ⟨hone, hequal⟩ := happart repeated readFromMixed (.inl hworded) (.inr ⟨mixed, hread⟩)
  exact ⟨hworded, hback repeated hworded, hread, hnormal mixed readFromMixed hread, .inl hworded,
    .inr ⟨mixed, hread⟩, hne, fun h => hne (hone.1 h), hequal.trans hdiffer⟩

end Status

end MeshOperator
