import MeshOperator.Proofs.Revision.Recompute

/-!
# What a status says

A status says a condition if one of this type stands in it, and every one of this type has its words, at whatever
time. What is computed says both conditions that it was computed for, whatever stood there before, and so does
what was the same already.

* `Condition.SameWords`: conditions that differ at most in the time of the last change.
* `Status.Says`, `Status.Tells`: what a status says, and all that it tells of a revision.
* `Status.AgreesInWords`: statuses that tell the same.
* `Status.tells_compute`, `Status.tells_of_same`: what a computed status tells, and one that is the same.
-/

namespace MeshOperator

/-- The conditions differ at most in the time of the last change. -/
def Condition.SameWords (c d : Condition) : Prop := d = { c with since := d.since }

theorem Condition.same_type_of_same {c d : Condition} (h : c.same d = true) : c.type.same d.type = true := by
  simp only [same, Bool.and_eq_true] at h
  exact h.1.1.1.1

namespace Status

/-- A condition of the type stands in the status, and every one of the type has the words of `c`. -/
structure Says (s : Status) (c : Condition) : Prop where
  stands : ∃ d ∈ s.conditions, d.type.same c.type = true
  words : ∀ d ∈ s.conditions, d.type.same c.type = true → c.SameWords d

/-- The status tells of a generation, both conditions and the state that follows from them. -/
structure Tells (s : Status) (g : Int) (c d : Condition) : Prop where
  generation : s.generation = g
  reconciled : s.Says c
  ready : s.Says d
  state : s.state = stateOf c d

/-- The statuses tell the same: the generation, the words of both conditions and the state. -/
structure AgreesInWords (s t : Status) : Prop where
  generation : s.generation = t.generation
  reconciled : ∃ c, c.type = reconciledType ∧ s.Says c ∧ t.Says c
  ready : ∃ c, c.type = readyType ∧ s.Says c ∧ t.Says c
  state : s.state = t.state

variable {s t : Status} {c d : Condition} {cs ds : List Condition} {g : Int} {now : Data}
variable {reconciled ready : Condition}

theorem Tells.agreesInWords (hs : s.Tells g reconciled ready) (ht : t.Tells g reconciled ready)
    (hreconciled : reconciled.type = reconciledType) (hready : ready.type = readyType) :
    s.AgreesInWords t where
  generation := hs.generation.trans ht.generation.symm
  reconciled := ⟨reconciled, hreconciled, hs.reconciled, ht.reconciled⟩
  ready := ⟨ready, hready, hs.ready, ht.ready⟩
  state := hs.state.trans ht.state.symm

/-- what stands alone under its type is said -/
theorem StandsAlone.isSaid {since : Data} (h : StandsAlone { c with since } s.conditions)
    (hself : c.type.same c.type = true) : s.Says c :=
  ⟨⟨_, h.mem, hself⟩, fun d hd htype => by rw [h.eq_of_same d hd htype, Condition.SameWords]⟩

/-! ### Conditions that are the same, one by one -/

theorem exists_left_of_forall₂ {R : Condition → Condition → Prop} (h : List.Forall₂ R cs ds) (hd : d ∈ ds) :
    ∃ c ∈ cs, R c d := by
  induction h with
  | nil => cases hd
  | @cons c e cs ds hce _ ih =>
    rcases List.mem_cons.1 hd with rfl | hd
    · exact ⟨c, List.mem_cons_self .., hce⟩
    · obtain ⟨c', hc', hR⟩ := ih hd
      exact ⟨c', List.mem_cons_of_mem _ hc', hR⟩

theorem exists_right_of_forall₂ {R : Condition → Condition → Prop} (h : List.Forall₂ R cs ds) (hc : c ∈ cs) :
    ∃ d ∈ ds, R c d :=
  exists_left_of_forall₂ h.flip hc

/-- a status that is the same says the same -/
theorem Says.of_same (h : s.Says c) (hc : c.IsStated) (hst : s.same t = true) : t.Says c := by
  simp only [same, Bool.and_eq_true] at hst
  have hpairs := Data.testsHold_map_iff.1 hst.1.2
  obtain ⟨T, hT⟩ := hc.type
  have htype {e d : Condition} (hed : e.same d = true) :
      e.type.same c.type = true ↔ d.type.same c.type = true := by
    rw [hT, Data.same_text, Data.same_text]
    exact Data.eq_text_iff_of_same (Condition.same_type_of_same hed) T
  refine ⟨?_, fun d hd hdc => ?_⟩
  · obtain ⟨e, he, hec⟩ := h.stands
    obtain ⟨d, hd, hed⟩ := exists_right_of_forall₂ hpairs he
    exact ⟨d, hd, (htype hed).1 hec⟩
  · obtain ⟨e, he, hed⟩ := exists_left_of_forall₂ hpairs hd
    have hwords := h.words e he ((htype hed).2 hdc)
    have hstated : e.IsStated := by
      rw [hwords]
      exact ⟨hc.type, hc.status, hc.reason, hc.message⟩
    have heq := Condition.eq_of_same hstated hed
    rw [hwords] at heq
    exact heq

/-! ### What is computed -/

section Compute

variable (hreconciled : reconciled.type = reconciledType) (hready : ready.type = readyType)
include hreconciled hready

/-- a computed status tells what it was computed for, whatever stood there before -/
theorem tells_compute (s : Status) (g : Int) (now : Data) :
    (s.compute g reconciled ready now).Tells g reconciled ready where
  generation := rfl
  reconciled := (standsAlone_compute_reconciled s now g hreconciled hready).isSaid
    (Data.same_self_of_eq_text hreconciled)
  ready := (standsAlone_compute_ready s now g hreconciled hready).isSaid (Data.same_self_of_eq_text hready)
  state := rfl

/-- what the computed status is the same as told so before -/
theorem tells_of_same (hr : reconciled.IsStated) (hy : ready.IsStated)
    (h : (s.compute g reconciled ready now).same t = true) : t.Tells g reconciled ready := by
  have htells := tells_compute hreconciled hready s g now
  refine ⟨?_, htells.reconciled.of_same hr h, htells.ready.of_same hy h, ?_⟩
  · simp only [same, Bool.and_eq_true, decide_eq_true_eq] at h
    exact h.1.1.symm
  · simp only [same, Bool.and_eq_true] at h
    obtain ⟨x, hx⟩ := stateOf_eq_text hr hy
    have hstate := h.2
    rw [htells.state, hx, Data.text_same] at hstate
    rw [hx]
    exact hstate

end Compute

end Status

end MeshOperator
