import MeshOperator.Proofs.Revision.StatusForm

/-!
# Changing a status

What stands in a status after both conditions were put into it, and what it means that the result
equals the status before: then the status already told all that the change would tell.

* `Status.condition_compute_reconciled`, `Status.condition_compute_ready`: the conditions afterwards.
* `Status.agrees_of_same`: a change to an equal status tells nothing new.
* `Status.isPlain_of_computeTimed`: a change keeps the form in which a status is read back.
-/

namespace MeshOperator

/-- All parts of a condition but its time are texts, as in those that the operator makes. -/
structure Condition.IsStated (c : Condition) : Prop where
  type : ∃ s, c.type = .text s
  status : ∃ s, c.status = .text s
  reason : ∃ s, c.reason = .text s
  message : ∃ s, c.message = .text s

theorem Condition.isStated_reconciled (why : Option String) : (Condition.reconciled why).IsStated := by
  cases why <;> exact ⟨⟨_, rfl⟩, ⟨_, rfl⟩, ⟨_, rfl⟩, ⟨_, rfl⟩⟩

theorem Condition.isStated_ready : Condition.ready.IsStated :=
  ⟨⟨_, rfl⟩, ⟨_, rfl⟩, ⟨_, rfl⟩, ⟨_, rfl⟩⟩

theorem Condition.isStated_notReady (reason message : String) :
    (Condition.notReady reason message).IsStated :=
  ⟨⟨_, rfl⟩, ⟨_, rfl⟩, ⟨_, rfl⟩, ⟨_, rfl⟩⟩

/-- a stated condition is the same as another only if all but the times is equal -/
theorem Condition.eq_of_same {c d : Condition} (hc : c.IsStated) (h : c.same d = true) :
    d = { c with since := d.since } := by
  obtain ⟨⟨t, ht⟩, ⟨s, hs⟩, ⟨r, hr⟩, ⟨m, hm⟩⟩ := hc
  obtain ⟨type, status, reason, message, since⟩ := c
  subst ht hs hr hm
  simp only [Condition.same, Bool.and_eq_true, Data.text_same] at h
  obtain ⟨⟨⟨⟨h₁, h₂⟩, h₃⟩, h₄⟩, -⟩ := h
  rw [← h₁, ← h₂, ← h₃, ← h₄]

theorem stateOf_eq_text {reconciled ready : Condition} (hr : reconciled.IsStated)
    (hy : ready.IsStated) : ∃ x, stateOf reconciled ready = .text x := by
  unfold stateOf
  split
  · exact hr.reason
  · split
    · exact hy.reason
    · exact ⟨_, rfl⟩

namespace Status

variable {s t : Status} {c d : Condition} {cs ds : List Condition} {now : Data} {T U : String}

/-! ### Finding a condition after a change -/

theorem mem_replaceOrAdd (h : d ∈ replaceOrAdd c cs) : d = c ∨ d ∈ cs := by
  unfold replaceOrAdd at h
  split at h
  · obtain ⟨e, he, hd⟩ := List.mem_map.1 h
    split at hd
    · exact .inl hd.symm
    · exact .inr (hd ▸ he)
  · rcases List.mem_append.1 h with h | h
    · exact .inr h
    · exact .inl (List.mem_singleton.1 h)

theorem find?_replaceOrAdd_self (hc : c.type = .text T) :
    (replaceOrAdd c cs).find? (fun d => d.type.same (.text T)) = some c := by
  have hself : c.type.same (.text T) = true := Data.same_text.2 hc
  unfold replaceOrAdd
  rw [hc]
  split
  · rename_i hany
    obtain ⟨d, hd, hdT⟩ := List.any_eq_true.1 hany
    have hsome : (cs.find? fun d => d.type.same (.text T)).isSome :=
      List.find?_isSome.2 ⟨d, hd, hdT⟩
    obtain ⟨e, he⟩ := Option.isSome_iff_exists.1 hsome
    have hkeeps : ((fun d : Condition => d.type.same (.text T)) ∘
        fun d => if d.type.same (.text T) then c else d) = fun d => d.type.same (.text T) := by
      funext d
      by_cases h : d.type.same (.text T) = true <;> simp [h, hself]
    rw [List.find?_map, hkeeps, he]
    simp [List.find?_some he]
  · rename_i hany
    have hnone : cs.find? (fun d => d.type.same (.text T)) = none := by simpa using hany
    rw [List.find?_append, hnone]
    simp [hself]

theorem find?_replaceOrAdd_other (hc : c.type = .text U) (hne : U ≠ T) :
    (replaceOrAdd c cs).find? (fun d => d.type.same (.text T)) =
      cs.find? fun d => d.type.same (.text T) := by
  have hother : ∀ d : Condition, d.type.same (.text U) = true → d.type.same (.text T) = false := by
    intro d hd
    rw [Data.same_text] at hd
    rw [hd, ← Bool.not_eq_true, Data.same_text]
    simpa using hne
  have hcT : c.type.same (.text T) = false := hother c (Data.same_text.2 hc)
  unfold replaceOrAdd
  rw [hc]
  split
  · have hkeeps : ((fun d : Condition => d.type.same (.text T)) ∘
        fun d => if d.type.same (.text U) then c else d) = fun d => d.type.same (.text T) := by
      funext d
      by_cases h : d.type.same (.text U) = true <;> simp [h, hcT, hother d]
    rw [List.find?_map, hkeeps]
    cases hf : cs.find? fun d => d.type.same (.text T) with
    | none => rfl
    | some d =>
      have hdT := List.find?_some hf
      have hdU : d.type.same (.text U) = false := by
        rw [← Bool.not_eq_true]
        intro h
        simp [hother d h] at hdT
      simp [hdU]
  · simp [List.find?_append, hcT]

variable (s)

theorem find?_put_self (hc : c.type = .text T) :
    (s.put c now).find? (.text T) = some { c with since := s.changeTime c now } :=
  find?_replaceOrAdd_self hc

theorem find?_put_other (hc : c.type = .text U) (hne : U ≠ T) :
    (s.put c now).find? (.text T) = s.find? (.text T) :=
  find?_replaceOrAdd_other hc hne

/-! ### The two conditions of the operator -/

section Compute

variable (g : Int) (now : Data) {reconciled ready : Condition}
variable (hreconciled : reconciled.type = reconciledType) (hready : ready.type = readyType)
include hreconciled hready

theorem find?_compute_reconciled :
    (s.compute g reconciled ready now).find? reconciledType =
      some { reconciled with since := s.changeTime reconciled now } :=
  (find?_put_other _ hready (by decide)).trans (find?_put_self _ hreconciled)

theorem changeTime_put :
    ({ s with generation := g }.put reconciled now).changeTime ready now =
      s.changeTime ready now := by
  have h : ({ s with generation := g }.put reconciled now).find? ready.type = s.find? ready.type := by
    rw [hready]
    exact find?_put_other _ hreconciled (by decide)
  unfold changeTime
  rw [h]

theorem find?_compute_ready :
    (s.compute g reconciled ready now).find? readyType =
      some { ready with since := s.changeTime ready now } := by
  rw [← changeTime_put s g now hreconciled hready]
  exact find?_put_self _ hready

theorem condition_compute_reconciled :
    (s.compute g reconciled ready now).condition reconciledType =
      { reconciled with since := s.changeTime reconciled now } := by
  rw [condition, find?_compute_reconciled s g now hreconciled hready]
  rfl

theorem condition_compute_ready :
    (s.compute g reconciled ready now).condition readyType =
      { ready with since := s.changeTime ready now } := by
  rw [condition, find?_compute_ready s g now hreconciled hready]
  rfl

end Compute

/-! ### A change to an equal status -/

/-- Two statuses tell the same: the generation, the conditions of the operator and the state. -/
structure Agrees (s t : Status) : Prop where
  generation : s.generation = t.generation
  reconciled : s.condition reconciledType = t.condition reconciledType
  ready : s.condition readyType = t.condition readyType
  state : s.state = t.state

theorem Agrees.refl : Agrees s s := ⟨rfl, rfl, rfl, rfl⟩

variable {s}

/-- in lists of conditions that are the same, the first ones of a type are -/
theorem find?_of_testsHold (h : Data.testsHold (cs.map Condition.same) ds = true)
    (hc : cs.find? (fun d => d.type.same (.text T)) = some c) :
    ∃ d, ds.find? (fun d => d.type.same (.text T)) = some d ∧ c.same d = true := by
  induction cs generalizing ds with
  | nil => cases hc
  | cons c' cs ih =>
    cases ds with
    | nil => cases h
    | cons d ds =>
      simp only [List.map_cons, Data.testsHold, Bool.and_eq_true] at h
      have htype : c'.type.same d.type = true := by
        simp only [Condition.same, Bool.and_eq_true] at h
        exact h.1.1.1.1.1
      have hiff := Data.eq_text_iff_of_same htype T
      simp only [← Data.same_text] at hiff
      by_cases hT : c'.type.same (.text T) = true
      · have hd := hiff.1 hT
        simp only [List.find?_cons, hT, Option.some.injEq] at hc
        exact ⟨d, by simp [hd], hc ▸ h.1⟩
      · have hd : ¬ d.type.same (.text T) = true := fun hd => hT (hiff.2 hd)
        simp only [List.find?_cons, hT] at hc
        obtain ⟨e, he, hce⟩ := ih h.2 hc
        exact ⟨e, by simp [hd, he], hce⟩

/-- a condition that is the same as the one it replaces is that one -/
theorem eq_of_same_find? (hc : c.IsStated) (hd : s.find? c.type = some d)
    (h : { c with since := s.changeTime c now }.same d = true) :
    d = { c with since := s.changeTime c now } := by
  have hstated : { c with since := s.changeTime c now }.IsStated :=
    ⟨hc.type, hc.status, hc.reason, hc.message⟩
  have he := Condition.eq_of_same hstated h
  obtain ⟨x, hx⟩ := hc.status
  have hstatus : d.status.same c.status = true := by
    rw [he, hx]
    exact Data.same_text.2 rfl
  have hsince : s.changeTime c now = d.since := by
    rw [changeTime, hd]
    exact if_pos hstatus
  rw [hsince]
  exact he

section Same

variable {g : Int} {reconciled ready : Condition}
variable (hreconciled : reconciled.type = reconciledType) (hready : ready.type = readyType)
variable (hsr : reconciled.IsStated) (hsy : ready.IsStated)
include hreconciled hready hsr hsy

/-- both conditions stood there already -/
theorem find?_of_same (h : (s.compute g reconciled ready now).same s = true) :
    s.find? reconciledType = some { reconciled with since := s.changeTime reconciled now } ∧
      s.find? readyType = some { ready with since := s.changeTime ready now } := by
  have hr := find?_compute_reconciled s g now hreconciled hready
  have hy := find?_compute_ready s g now hreconciled hready
  simp only [same, Bool.and_eq_true] at h
  obtain ⟨⟨-, hconds⟩, -⟩ := h
  obtain ⟨d, hd, hsame⟩ := find?_of_testsHold hconds hr
  obtain ⟨e, he, hsame'⟩ := find?_of_testsHold hconds hy
  refine ⟨?_, ?_⟩
  · rw [← eq_of_same_find? hsr (hreconciled ▸ hd) hsame]
    exact hd
  · rw [← eq_of_same_find? hsy (hready ▸ he) hsame']
    exact he

theorem agrees_of_same (h : (s.compute g reconciled ready now).same s = true) :
    s.Agrees (s.compute g reconciled ready now) := by
  obtain ⟨hr, hy⟩ := find?_of_same hreconciled hready hsr hsy h
  simp only [same, Bool.and_eq_true, decide_eq_true_eq] at h
  obtain ⟨⟨hgen, -⟩, hstate⟩ := h
  refine ⟨hgen.symm, ?_, ?_, ?_⟩
  · rw [condition_compute_reconciled s g now hreconciled hready, condition, hr]
    rfl
  · rw [condition_compute_ready s g now hreconciled hready, condition, hy]
    rfl
  · obtain ⟨x, hx⟩ := stateOf_eq_text hsr hsy
    have hcompute : (s.compute g reconciled ready now).state = .text x := hx
    rw [hcompute] at hstate ⊢
    exact Data.text_same.1 hstate

end Same

/-! ### The form after a change -/

theorem changeTime_stands (hs : s.IsPlain) (hnow : s.flips c = true → now.Stands) :
    (s.changeTime c now).Stands := by
  unfold changeTime flips at *
  cases hf : s.find? c.type with
  | none => exact hnow (by simp [hf])
  | some d =>
    have hd : d ∈ s.conditions := List.mem_of_find?_eq_some hf
    by_cases hst : d.status.same c.status = true
    · simpa [hst] using (hs.conditions d hd).since
    · simpa [hst] using hnow (by simp [hf, hst])

theorem isPlain_put (hs : s.IsPlain) (hc : c.IsStated) (hnow : s.flips c = true → now.Stands) :
    (s.put c now).IsPlain := by
  refine ⟨hs.state, fun d hd => ?_⟩
  rcases mem_replaceOrAdd hd with rfl | hd
  · obtain ⟨r, hr⟩ := hc.reason
    obtain ⟨m, hm⟩ := hc.message
    exact ⟨hr ▸ Data.stands_text r, hm ▸ Data.stands_text m, changeTime_stands hs hnow⟩
  · exact hs.conditions d hd

/-! ### A change at the time of a clock -/

section Timed

variable {g : Int} {reconciled ready : Condition} {clock : Except Fault Data}
variable (hreconciled : reconciled.type = reconciledType) (hready : ready.type = readyType)
include hreconciled hready

theorem flips_put : (s.put reconciled now).flips ready = s.flips ready := by
  have h : (s.put reconciled now).find? ready.type = s.find? ready.type := by
    rw [hready]
    exact find?_put_other _ hreconciled (by decide)
  unfold flips
  rw [h]

/-- a change at the time of a clock is one at a time, which is the clock's if a condition flips -/
theorem eq_compute_of_computeTimed (h : s.computeTimed g reconciled ready clock = .ok t) :
    ∃ now, t = s.compute g reconciled ready now ∧
      (s.flips reconciled = true ∨ s.flips ready = true → clock = .ok now) := by
  unfold computeTimed timed at h
  rw [flips_put hreconciled hready] at h
  split at h
  · cases clock with
    | error f => cases h
    | ok now =>
      cases h
      exact ⟨now, rfl, fun _ => rfl⟩
  · rename_i hneeded
    cases h
    exact ⟨.null, rfl, fun hflips => by simp_all⟩

omit hreconciled hready in
theorem computeTimed_eq_ok (hclock : clock = .ok now) :
    ∃ t, s.computeTimed g reconciled ready clock = .ok t := by
  unfold computeTimed timed
  rw [hclock]
  split <;> exact ⟨_, rfl⟩

theorem isPlain_of_computeTimed (hs : s.IsPlain) (hr : reconciled.IsStated) (hy : ready.IsStated)
    (hclock : ∀ now, clock = .ok now → now.Stands)
    (h : s.computeTimed g reconciled ready clock = .ok t) : t.IsPlain := by
  obtain ⟨now, rfl, hnow⟩ := eq_compute_of_computeTimed hreconciled hready h
  have hput : ({ s with generation := g }.put reconciled now).IsPlain :=
    isPlain_put ⟨hs.state, hs.conditions⟩ hr fun hf => hclock now (hnow (.inl hf))
  have hboth := isPlain_put hput hy fun hf =>
    hclock now (hnow (.inr ((flips_put hreconciled hready).symm.trans hf)))
  obtain ⟨x, hx⟩ := stateOf_eq_text hr hy
  have hstate : (s.compute g reconciled ready now).state = .text x := hx
  exact ⟨hstate ▸ Data.stands_text x, hboth.conditions⟩

end Timed

end Status

end MeshOperator
