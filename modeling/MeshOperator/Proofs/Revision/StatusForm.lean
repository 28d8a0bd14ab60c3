import MeshOperator.Proofs.Data.Entries
import MeshOperator.Revision.Status

/-!
# The form of a status in an object

Writing leaves out what counts as no, and reading puts the empty text in its place. So a status that
has nothing but the empty text in these places is read back as it was written, and every status that
was read is of this kind.

* `Condition.IsPlain`, `Status.IsPlain`: reading replaces nothing.
* `Status.isPlain_of_ofData`: what was read is plain.
* `Status.ofData_toData`: what is plain is read back.
-/

namespace MeshOperator

namespace Condition

/-- The parts that may be left out are no others than reading gives. -/
structure IsPlain (c : Condition) : Prop where
  reason : c.reason.Stands
  message : c.message.Stands
  since : c.since.Stands

theorem ofData_dict (es : List (Data × Data)) :
    Condition.ofData (.dict es) = .ok {
      type := (Data.lookup? "type" es).getD (.text "")
      status := (Data.lookup? "status" es).getD (.text "Unknown")
      reason := ((Data.lookup? "reason" es).getD .null).orElse (.text "")
      message := ((Data.lookup? "message" es).getD .null).orElse (.text "")
      since := ((Data.lookup? "lastTransitionTime" es).getD .null).orElse (.text "") } := rfl

theorem isPlain_of_ofData {d : Data} {c : Condition} (h : Condition.ofData d = .ok c) :
    c.IsPlain := by
  cases d with
  | dict es =>
    rw [ofData_dict] at h
    cases h
    exact ⟨Data.orElse_stands "", Data.orElse_stands "", Data.orElse_stands ""⟩
  | _ => cases h

/-- an optional entry, read with the empty text for its absence -/
theorem orElse_lookup_optional (key : String) {d : Data} (h : d.Stands) :
    (((optional key d).lookup key).getD .null).orElse (.text "") = d := by
  unfold optional
  rcases h with h | rfl
  · simp [h, Data.orElse_of_truthy h]
  · rfl

theorem lookup_optional_ne {key other : String} (d : Data) (h : other ≠ key) :
    (optional key d).lookup other = none := by
  have h' : (other == key) = false := beq_eq_false_iff_ne.2 h
  unfold optional
  split <;> simp [List.lookup_cons, h']

theorem ofData_toData {c : Condition} (h : c.IsPlain) : Condition.ofData c.toData = .ok c := by
  have reason := orElse_lookup_optional "reason" h.reason
  have message := orElse_lookup_optional "message" h.message
  have since := orElse_lookup_optional "lastTransitionTime" h.since
  rw [toData, Data.object, ofData_dict]
  simp only [Data.lookup?_object, List.lookup_append]
  simp [List.lookup_cons, lookup_optional_ne, reason, message, since]

end Condition

namespace Status

/-- Reading replaces nothing of the status. -/
structure IsPlain (s : Status) : Prop where
  state : s.state.Stands
  conditions : ∀ c ∈ s.conditions, c.IsPlain

/-! ### What reading gives -/

/-- every condition that was read stands in its list -/
theorem exists_of_mem_mapM_ofData {ds : List Data} {cs : List Condition}
    (h : ds.mapM Condition.ofData = .ok cs) :
    ∀ c ∈ cs, ∃ d ∈ ds, Condition.ofData d = .ok c := by
  induction ds generalizing cs with
  | nil =>
    cases h
    simp
  | cons d ds ih =>
    rw [List.mapM_cons] at h
    obtain ⟨c, hd, h⟩ := bind_eq_ok.1 h
    obtain ⟨cs', hds, h⟩ := bind_eq_ok.1 h
    cases h
    intro c' hc'
    rcases List.mem_cons.1 hc' with rfl | hc'
    · exact ⟨d, List.mem_cons_self .., hd⟩
    · obtain ⟨d', hd', hof⟩ := ih hds c' hc'
      exact ⟨d', List.mem_cons_of_mem _ hd', hof⟩

theorem isPlain_of_ofData {d : Data} {s : Status} (h : Status.ofData d = .ok s) : s.IsPlain := by
  simp only [Status.ofData, bind_eq_ok] at h
  obtain ⟨_, -, _, -, _, -, _, -, cs, hcs, _, hstate, h⟩ := h
  cases h
  obtain ⟨es, hd⟩ := Data.eq_dict_of_entryOrElse_ok hstate
  rw [hd, Data.entryOrElse_dict] at hstate
  cases hstate
  refine ⟨Data.orElse_stands "", fun c hc => ?_⟩
  obtain ⟨d', -, hof⟩ := exists_of_mem_mapM_ofData hcs c hc
  exact Condition.isPlain_of_ofData hof

/-- the state that is read, if there is one, is that of a mapping -/
theorem eq_state_of_ofData {d : Data} {s : Status} {x : String} (h : Status.ofData d = .ok s)
    (hstate : s.state = .text x) (hx : x ≠ "") :
    ∃ es, d = .dict es ∧ Data.lookup? "state" es = some (.text x) := by
  simp only [Status.ofData, bind_eq_ok] at h
  obtain ⟨_, -, _, -, _, -, _, -, _, -, y, hy, h⟩ := h
  cases h
  obtain ⟨es, hd⟩ := Data.eq_dict_of_entryOrElse_ok hy
  rw [hd, Data.entryOrElse_dict] at hy
  cases hy
  have hlookup : (Data.lookup? "state" es).getD .null = .text x :=
    Data.eq_of_orElse_eq hstate (by simpa using hx)
  have hfound : Data.lookup? "state" es = some (.text x) := by
    cases hes : Data.lookup? "state" es with
    | none => simp [hes, Data.null] at hlookup
    | some y => simpa [hes] using hlookup
  refine ⟨es, ?_, hfound⟩
  rcases Data.orElse_eq_or d (.dict []) with hkeep | hempty
  · exact hkeep.symm.trans hd
  · cases hempty.symm.trans hd
    cases hfound

/-! ### Reading what was written -/

theorem mapM_ofData_toData {cs : List Condition} (h : ∀ c ∈ cs, c.IsPlain) :
    (cs.map Condition.toData).mapM Condition.ofData = .ok cs := by
  induction cs with
  | nil => rfl
  | cons c cs ih =>
    rw [List.map_cons, List.mapM_cons, Condition.ofData_toData (h c (by simp)),
      ih fun c' hc' => h c' (by simp [hc'])]
    rfl

theorem ofData_toData {s : Status} (h : s.IsPlain) : Status.ofData s.toData = .ok s := by
  obtain ⟨generation, conditions, state⟩ := s
  have hgen : (Data.int generation).orElse (.int 0) = .int generation := by
    by_cases h0 : generation = 0
    · rw [h0]
      rfl
    · exact Data.orElse_of_truthy (by simpa [Data.truthy, Scalar.truthy] using h0)
  have hlist : ∀ ds : List Data, (Data.list ds).orElse (.list []) = .list ds := by
    rintro (_ | ⟨d, ds⟩) <;> rfl
  have hstate : state.orElse (.text "") = state := by
    rcases h.state with h | h
    · exact Data.orElse_of_truthy h
    · rw [show state = .text "" from h]
      rfl
  have hcs := mapM_ofData_toData h.conditions
  have hobject : (Status.toData ⟨generation, conditions, state⟩).orElse (.dict []) =
      Status.toData ⟨generation, conditions, state⟩ := rfl
  unfold Status.ofData
  rw [hobject]
  simp [toData, Data.entryOrElse_object, List.lookup_cons, bind, Except.bind, hgen, hlist, hstate,
    Data.toInteger, Data.members, hcs, pure, Except.pure]

end Status

end MeshOperator
