import MeshOperator.Proofs.Reconcile.Course

/-!
# The fault of an installation is raised

A reconcile whose installation failed updates the status before it raises the fault. That the API refuses
to write the status is passed over then. A write that is not answered at all is not: its fault is raised in
place of the one that the reconcile was about to raise.

* `Reconcile.IsCutOff`: the new status is to be written, and the call is not answered.
* `Reconcile.Hides`: the faults that an update ends with after a fault of the installation.
* `Reconcile.outcome_updateStatus_of_hides`, `Reconcile.outcome_updateStatus_of_free`: how it ends.
* `Reconcile.raises_iff_not_hidden`: which fault a reconcile raises whose installation failed.
-/

namespace MeshOperator

/-- an operation is answered well, refused, or not answered -/
theorem Cluster.answer_cases (c : Cluster) (o : Operation) :
    c.answer o = .ok () ∨ (∃ code reason, c.answer o = .error (.api code reason)) ∨
      ∃ detail, c.answer o = .error (.connection detail) := by
  unfold answer
  cases c.trouble? o with
  | none => exact .inl rfl
  | some t =>
    cases t with
    | answer code reason body => exact .inr (.inl ⟨code, reason, rfl⟩)
    | silence detail => exact .inr (.inr ⟨detail, rfl⟩)

namespace Reconcile

variable {cfg : Config} {c : Cluster} {k : Key} {r : Revision} {s : Status} {v : Values} {f : Fault}
variable {call : Action Unit}

/-- The write of the status `s` is cut off: it is another than the one that was read, and the call that is
to write it is not answered. -/
structure IsCutOff (c : Cluster) (r : Revision) (s : Status) (detail : String) : Prop where
  needed : ¬ s.same r.status = true
  silent : c.answer .patchStatus = .error (.connection detail)

/-- The fault `g` hides the fault `f` of the installation: the new status cannot be computed because of it,
or it is that of a write that is cut off. -/
inductive Hides (c : Cluster) (r : Revision) (v : Values) (f : Fault) : (g : Fault) → Prop
  | uncomputed {g : Fault} (h : newStatus c r v (some f) = .error g) : Hides c r v f g
  | cutOff {s : Status} {detail : String} (hs : newStatus c r v (some f) = .ok s)
    (h : IsCutOff c r s detail) : Hides c r v f (.connection detail)

/-! ### Updating the status after a fault -/

theorem outcome_writeStatus_of_silent {detail : String} {failure : Option Fault}
    (silent : c.answer .patchStatus = .error (.connection detail)) :
    (writeStatus r s failure).outcome c = .error (.connection detail) := by
  have hend : (writeStatus r s failure).outcome c = _ := congrArg Prod.fst ends_writeStatus
  rw [hend, Api.outcome_patchStatus, silent]

/-- a refusal is passed over, also that there is no such revision any more -/
theorem outcome_writeStatus_of_answered
    (answered : ∀ detail, c.answer .patchStatus ≠ .error (.connection detail)) :
    (writeStatus r s (some f)).outcome c = .ok () := by
  have hend : (writeStatus r s (some f)).outcome c = _ := congrArg Prod.fst ends_writeStatus
  rw [hend, Api.outcome_patchStatus]
  rcases c.answer_cases .patchStatus with h | ⟨code, reason, h⟩ | ⟨detail, h⟩
  · rw [h]
    cases (c.revision? r.key).isSome with
    | true => rfl
    | false => rfl
  · rw [h]
    rfl
  · exact absurd h (answered detail)

theorem outcome_updateStatus_of_hides {g : Fault} (h : Hides c r v f g) :
    (updateStatus r v (some f)).outcome c = .error g := by
  cases h with
  | uncomputed h => exact congrArg Prod.fst (ends_updateStatus_of_error h)
  | cutOff hs h =>
    have hend : (updateStatus r v (some f)).outcome c = _ :=
      congrArg Prod.fst (ends_updateStatus_of_other hs h.needed)
    exact hend.trans (outcome_writeStatus_of_silent h.silent)

theorem outcome_updateStatus_of_free (h : ∀ g, ¬ Hides c r v f g) :
    (updateStatus r v (some f)).outcome c = .ok () := by
  cases hs : newStatus c r v (some f) with
  | error g => exact absurd (.uncomputed hs) (h g)
  | ok s =>
    by_cases hsame : s.same r.status = true
    · exact congrArg Prod.fst (ends_updateStatus_of_same hs hsame)
    · have hend : (updateStatus r v (some f)).outcome c = _ :=
        congrArg Prod.fst (ends_updateStatus_of_other hs hsame)
      refine hend.trans (outcome_writeStatus_of_answered fun detail hsilent => ?_)
      exact h _ (.cutOff hs ⟨hsame, hsilent⟩)

/-- while the clock shows a time and readiness can be judged, only a write that is not answered hides
anything -/
theorem Hides.silent {g : Fault} (h : Hides c r v f g) (time : HasTime c)
    (judged : ∃ cond, (Readiness.evaluate r v).outcome c = .ok cond) :
    ∃ detail, g = .connection detail ∧ c.answer .patchStatus = .error g := by
  cases h with
  | uncomputed h =>
    obtain ⟨s, hs⟩ : ∃ s, newStatus c r v (some f) = .ok s := newStatus_isOk time judged
    cases h.symm.trans hs
  | cutOff hs h => exact ⟨_, rfl, h.silent⟩

/-! ### Raising -/

/-- **Raising.**  The installation of a revision fails, the fault can be told and readiness can be judged.
Then the call raises this fault, with its sentence, unless another one hides it, which is then raised in its
place. While the clock shows a time, only a write of the status that is not answered does so. -/
theorem raises_iff_not_hidden (read : (Api.getRevision k).outcome c = .ok (some r))
    (live : r.isTerminating = false) (named : r.version.truthy = true)
    (failed : (installation cfg r c).fault = some f) (told : c.eventOutcome = .ok ())
    (judged : ∃ cond, (Readiness.evaluate r (installation cfg r c).values).outcome c = .ok cond)
    (hcall : Reconciles cfg k call) :
    ((∀ g, ¬ Hides c r (installation cfg r c).values f g) →
      Raises cfg k c f call ∧ ∃ e, call.outcome c = .error e ∧ e.message = f.message) ∧
    (∀ g, Hides c r (installation cfg r c).values f g → Raises cfg k c g call) ∧
    (Raises cfg k c f call ↔ ∀ g, Hides c r (installation cfg r c).values f g → g = f) ∧
    (HasTime c → ∀ g, Hides c r (installation cfg r c).values f g →
      ∃ detail, g = .connection detail ∧ c.answer .patchStatus = .error g) := by
  have hend : (reconcile cfg k).outcome c = (do
      (updateStatus r (installation cfg r c).values (some f)).outcome c
      .error f) := by
    rw [outcome_reconcile_of_read read, live, if_neg Bool.false_ne_true, outcome_converge, failed,
      announced_some, told, raised_of_version named]
    rfl
  have hfree (h : ∀ g, ¬ Hides c r (installation cfg r c).values f g) : Raises cfg k c f call := by
    refine hcall.raises ?_
    rw [hend, outcome_updateStatus_of_free h]
    rfl
  have hhidden (g : Fault) (h : Hides c r (installation cfg r c).values f g) :
      Raises cfg k c g call := by
    refine hcall.raises ?_
    rw [hend, outcome_updateStatus_of_hides h]
    rfl
  refine ⟨fun h => ⟨hfree h, (hfree h).message_eq⟩, hhidden, ⟨?_, ?_⟩, ?_⟩
  · intro hf g h
    exact (hhidden g h).unique hf
  · intro hsame
    by_cases h : ∃ g, Hides c r (installation cfg r c).values f g
    · obtain ⟨g, h⟩ := h
      have hg := hhidden g h
      rw [hsame g h] at hg
      exact hg
    · exact hfree fun g hg => h ⟨g, hg⟩
  · intro time g h
    exact h.silent time judged

end Reconcile

/-! ### A write that is refused, and one that is not answered -/

namespace Cluster

open Reconcile

/-- The cluster of `Cluster.halfInstalled`, where the status of the revision was written by another. -/
def rivalled : Cluster :=
  { halfInstalled with
    troubles := [(.patchStatus, .answer (.int 409) (.text "Conflict") (.text ""))] }

/-- The cluster of `Cluster.halfInstalled`, where a write of a status is not answered. -/
def severed : Cluster :=
  { halfInstalled with troubles := [(.patchStatus, .silence "Connection reset by peer")] }

/-- how the installation fails in both -/
def halfInstalledComplaint : String := "failed to install chart base: Error: timed out"

theorem raises_rivalled :
    ∃ f, (installation .standard .versioned rivalled).fault = some f ∧
      f.message = halfInstalledComplaint ∧
      Raises .standard .sole rivalled f (Handler.revision .standard .sole 0) := by
  have hfault : (installation .standard .versioned rivalled).fault.map Fault.message =
      some halfInstalledComplaint := by decide +kernel
  obtain ⟨f, hf, hmessage⟩ := Option.map_eq_some_iff.1 hfault
  have held : rivalled.Holds .sole .versioned := ⟨rfl, ⟨_, rfl, rfl⟩, rfl⟩
  have time : HasTime rivalled := exists_of_isOk (by decide +kernel)
  obtain ⟨-, -, hraises, hsilent⟩ := raises_iff_not_hidden held.outcome_getRevision rfl (by decide) hf rfl
    (exists_of_isOk (by decide +kernel))
    (.inr ⟨0, rfl⟩ : Reconciles .standard .sole (Handler.revision .standard .sole 0))
  refine ⟨f, hf, hmessage, hraises.2 fun g hg => ?_⟩
  -- the write is refused, and so it is answered
  obtain ⟨detail, rfl, hanswer⟩ := hsilent time g hg
  cases hanswer

/-- All else is as it should be, and yet no call raises the fault of the installation: the reconcile ends
with that of the write. -/
theorem hides_severed :
    severed.Holds .sole .versioned ∧ Revision.versioned.isTerminating = false ∧
    severed.eventOutcome = .ok () ∧
    ∃ f, (installation .standard .versioned severed).fault = some f ∧
      f.message = halfInstalledComplaint ∧
      (∃ cond, (Readiness.evaluate .versioned (installation .standard .versioned severed).values).outcome
        severed = .ok cond) ∧
      ∀ call, Reconciles .standard .sole call → ¬ Raises .standard .sole severed f call := by
  have hfault : (installation .standard .versioned severed).fault.map Fault.message =
      some halfInstalledComplaint := by decide +kernel
  obtain ⟨f, hf, hmessage⟩ := Option.map_eq_some_iff.1 hfault
  have hcomplaint : (reconcile .standard .sole).complaint? severed = some "Connection reset by peer" := by
    decide +kernel
  obtain ⟨g, hg, hother⟩ := Action.exists_of_complaint? hcomplaint
  refine ⟨⟨rfl, ⟨_, rfl, rfl⟩, rfl⟩, rfl, rfl, f, hf, hmessage, exists_of_isOk (by decide +kernel), ?_⟩
  intro call _ hraises
  cases hraises.outcome_reconcile.symm.trans hg
  rw [hmessage] at hother
  exact absurd hother (by decide)

end Cluster

end MeshOperator
