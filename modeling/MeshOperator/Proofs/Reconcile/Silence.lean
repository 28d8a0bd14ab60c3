import MeshOperator.Proofs.Reconcile.Writes
import MeshOperator.Proofs.Revision.Recompute

/-!
# The second reconcile is silent

A reconcile writes the status only to change it, and what it writes is what the next one computes. So
once a status was written, a reconcile that finds all else as it was writes none.

* `Action.IsSilent`: an action that writes no status and leaves the cluster as it is.
* `Reconcile.newStatus_of_same`, `Reconcile.newStatus_written`: what the next update computes.
* `Reconcile.IsSettled`, `Reconcile.isSettled_or_writes`: nothing is to be written, or one status is.
* `Cluster.Holds.isSilent_or_writes`: a call is silent, or it tries to write one status.
* `Cluster.isSilent_after`: after a reconcile, the next one is silent.
-/

namespace MeshOperator

/-- The action tries no write of a status, and leaves the cluster as it is. -/
structure Action.IsSilent {α : Type} (a : Action α) (c : Cluster) : Prop where
  statusPatches : a.statusPatches c = []
  after : a.after c = c

namespace Reconcile

variable {cfg : Config} {c d : Cluster} {k : Key} {r : Revision} {v : Values}
variable {failure : Option Fault} {s : Status}

theorem Reconciles.isSilent {call : Action Unit} (hcall : Reconciles cfg k call)
    (h : (reconcile cfg k).IsSilent c) : call.IsSilent c :=
  ⟨hcall.statusPatches_eq.trans h.statusPatches, hcall.after_eq.trans h.after⟩

/-! ### In a cluster that is alike -/

section Alike

variable (halike : c.Alike d)
include halike

theorem installation_alike : installation cfg r d = installation cfg r c :=
  installation_eq halike.sameTools

theorem announced_alike : announced d failure = announced c failure := by
  cases failure with
  | none => rfl
  | some f => rw [announced_some, announced_some, Cluster.eventOutcome, Cluster.eventOutcome,
      halike.answer_eq]

end Alike

/-- Nothing is to be written for a revision: whatever its status comes to, it is the same already. -/
def IsSettled (cfg : Config) (c : Cluster) (r : Revision) : Prop :=
  announced c (installation cfg r c).fault = .ok () → ∀ s,
    newStatus c r (installation cfg r c).values (installation cfg r c).fault = .ok s →
      s.same r.status = true

theorem IsSettled.statusPatches_converge (h : IsSettled cfg c r) :
    (converge cfg r).statusPatches c = [] := by
  rw [Reconcile.statusPatches_converge]
  cases htold : announced c (installation cfg r c).fault with
  | error f => rfl
  | ok u =>
    dsimp only
    rw [statusPatches_updateStatus]
    cases hs : newStatus c r (installation cfg r c).values (installation cfg r c).fault with
    | error f => rfl
    | ok s => exact if_pos (h htold s hs)

theorem IsSettled.after_converge (h : IsSettled cfg c r) : (converge cfg r).after c = c := by
  rw [Reconcile.after_converge]
  cases htold : announced c (installation cfg r c).fault with
  | error f => rfl
  | ok u =>
    dsimp only
    cases hs : newStatus c r (installation cfg r c).values (installation cfg r c).fault with
    | error f => exact congrArg Prod.snd (ends_updateStatus_of_error hs)
    | ok s => exact congrArg Prod.snd (ends_updateStatus_of_same hs (h htold s hs))

/-! ### What the next update computes -/

section Next

variable (halike : c.Alike d)

theorem same_self_newStatus (hr : r.status.same r.status = true)
    (hs : newStatus c r v failure = .ok s) : s.same s = true := by
  obtain ⟨ready, hready, hs⟩ := bind_eq_ok.1 hs
  rw [Readiness.evaluate_eq_ok hready] at hs
  have hclock (now : Data) (hnow : stamp c = .ok now) : now.same now = true := by
    obtain ⟨t, ht⟩ := exists_text_of_stamp hnow
    exact Data.same_self_of_eq_text ht
  exact Status.same_self_of_computeTimed hr (Condition.isStated_reconciled _)
    Readiness.isStated_verdict hclock hs

include halike

/-- What was computed, and is the same as what was read, is computed at any other time too. -/
theorem newStatus_of_same (hs : newStatus c r v failure = .ok s) (hsame : s.same r.status = true) :
    newStatus d r v failure = .ok s := by
  obtain ⟨ready, hready, hs⟩ := bind_eq_ok.1 hs
  have hverdict := Readiness.evaluate_eq_ok hready
  obtain ⟨now, rfl, -⟩ := Status.eq_compute_of_computeTimed (reconciled_type _)
    (hverdict ▸ Readiness.verdict_type) hs
  rw [newStatus, outcome_evaluate_eq halike.sameWorkloads, hready, ok_bind]
  exact Status.computeTimed_of_same (reconciled_type _) (hverdict ▸ Readiness.verdict_type)
    (Condition.isStated_reconciled _) (hverdict ▸ Readiness.isStated_verdict) hsame

/-- What was computed and written is computed at any other time too. -/
theorem newStatus_written (hs : newStatus c r v failure = .ok s) :
    newStatus d { r with status := s } v failure = .ok s := by
  obtain ⟨ready, hready, hs⟩ := bind_eq_ok.1 hs
  have hverdict := Readiness.evaluate_eq_ok hready
  obtain ⟨now, hcompute, -⟩ := Status.eq_compute_of_computeTimed (reconciled_type _)
    (hverdict ▸ Readiness.verdict_type) hs
  have hagain : s.computeTimed r.generation (.reconciled (failure.map Fault.message)) ready
      (stamp d) = .ok s := by
    rw [hcompute]
    exact Status.computeTimed_compute (reconciled_type _) (hverdict ▸ Readiness.verdict_type)
      (Condition.isStated_reconciled _) (hverdict ▸ Readiness.isStated_verdict)
  -- the workloads do not depend on the status
  have hevaluate : (Readiness.evaluate { r with status := s } v).outcome d = .ok ready :=
    (outcome_evaluate_eq halike.sameWorkloads r v).trans hready
  rw [newStatus, hevaluate]
  exact hagain

/-- with a time, what cannot be computed cannot be at any other time either -/
theorem newStatus_eq_error {f : Fault} (time : HasTime c) (hs : newStatus c r v failure = .error f) :
    newStatus d r v failure = .error f := by
  obtain ⟨now, hnow⟩ := time
  rw [newStatus] at hs ⊢
  rw [outcome_evaluate_eq halike.sameWorkloads]
  cases hready : (Readiness.evaluate r v).outcome c with
  | error f' =>
    rw [hready] at hs
    exact hs
  | ok ready =>
    obtain ⟨s, hs'⟩ : ∃ s, r.status.computeTimed r.generation
        (.reconciled (failure.map Fault.message)) ready (stamp c) = .ok s :=
      Status.computeTimed_eq_ok hnow
    rw [hready, ok_bind, hs'] at hs
    cases hs

end Next

theorem IsSettled.alike (h : IsSettled cfg c r) (halike : c.Alike d) (time : HasTime c) :
    IsSettled cfg d r := by
  unfold IsSettled
  rw [installation_alike halike, announced_alike halike]
  intro htold s' hs'
  cases hs : newStatus c r (installation cfg r c).values (installation cfg r c).fault with
  | error f =>
    rw [newStatus_eq_error halike time hs] at hs'
    cases hs'
  | ok s =>
    have hsame := h htold s hs
    rw [newStatus_of_same halike hs hsame] at hs'
    cases hs'
    exact hsame

theorem isSettled_written (halike : c.Alike d) (hself : r.status.same r.status = true)
    (hs : newStatus c r (installation cfg r c).values (installation cfg r c).fault = .ok s) :
    IsSettled cfg d { r with status := s } := by
  -- the installation does not depend on the status
  have hinstall : installation cfg { r with status := s } d = installation cfg r c :=
    installation_alike halike
  unfold IsSettled
  rw [hinstall]
  intro _ s' hs'
  rw [newStatus_written halike hs] at hs'
  cases hs'
  exact same_self_newStatus hself hs

/-- A reconcile has nothing to write, or it writes the new status, once. -/
theorem isSettled_or_writes :
    IsSettled cfg c r ∨ ∃ s,
      newStatus c r (installation cfg r c).values (installation cfg r c).fault = .ok s ∧
      (converge cfg r).statusPatches c = [statusPatch r s] ∧
      (converge cfg r).after c = (Api.patchStatus r s.toData).after c := by
  by_cases hsettled : IsSettled cfg c r
  · exact .inl hsettled
  · unfold IsSettled at hsettled
    push Not at hsettled
    obtain ⟨htold, s, hs, hother⟩ := hsettled
    refine .inr ⟨s, hs, ?_, ?_⟩
    · rw [statusPatches_converge, htold]
      dsimp only
      rw [statusPatches_updateStatus, hs]
      exact if_neg hother
    · rw [after_converge, htold]
      exact (congrArg Prod.snd (ends_updateStatus_of_other hs hother)).trans after_writeStatus

end Reconcile

namespace Cluster

open Reconcile

variable {cfg : Config} {c : Cluster} {k : Key} {r : Revision}

theorem Holds.atTime (held : c.Holds k r) (clock : Double) : (c.atTime clock).Holds k r :=
  ⟨held.answers, held.stored, held.own⟩

theorem holds_of_getRevision (h : (Api.getRevision k).outcome c = .ok (some r)) (own : r.key = k) :
    c.Holds k r := by
  rw [Api.outcome_getRevision] at h
  cases hseen : c.seen .getRevision (c.revision? k) with
  | error f =>
    rw [hseen] at h
    cases h
  | ok found =>
    rw [hseen] at h
    cases found with
    | none => cases h
    | some d =>
      obtain ⟨hanswer, hstored⟩ := eq_some_of_seen hseen
      cases hread : Revision.ofData d with
      | error f => simp [hread, Except.map] at h
      | ok r' =>
        have heq : r' = r := by simpa [hread, Except.map] using h
        exact ⟨hanswer, ⟨d, hstored, heq ▸ hread⟩, own⟩

/-! ### Reconciles that write nothing -/

theorem isSilent_of_unread (h : ∀ r, (Api.getRevision k).outcome c ≠ .ok (some r)) :
    (reconcile cfg k).IsSilent c := by
  have hafter : (attempt cfg k).after c = _ :=
    congrArg Prod.snd ((Api.quiet_getRevision k).ends_bind c)
  have hreconcile : (reconcile cfg k).after c = (attempt cfg k).after c :=
    congrArg Prod.snd ends_reconcile
  refine ⟨?_, ?_⟩
  · rw [Reconcile.statusPatches_reconcile]
    split
    · rename_i r hread
      exact absurd hread (h r)
    · rfl
  · rw [hreconcile, hafter]
    cases hread : (Api.getRevision k).outcome c with
    | error f => rfl
    | ok found =>
      cases found with
      | none => rfl
      | some r => exact absurd hread (h r)

theorem Holds.isSilent_of_dying (held : c.Holds k r) (dying : r.isTerminating = true) :
    (reconcile cfg k).IsSilent c := by
  refine ⟨?_, ?_⟩
  · rw [held.statusPatches_reconcile, if_pos dying]
  · rw [held.after_reconcile, if_pos dying, (quiet_finalize cfg r).after_eq]

theorem Holds.isSilent_of_settled (held : c.Holds k r) (live : r.isTerminating = false)
    (h : IsSettled cfg c r) : (reconcile cfg k).IsSilent c := by
  refine ⟨?_, ?_⟩
  · rw [held.statusPatches_reconcile, live]
    exact h.statusPatches_converge
  · rw [held.after_reconcile_of_live live]
    exact h.after_converge

/-- A call that reconciles a revision is silent, or it tries to write the new status, once. -/
theorem Holds.isSilent_or_writes (held : c.Holds k r) {call : Action Unit}
    (hcall : Reconciles cfg k call) :
    call.IsSilent c ∨ ∃ s, r.isTerminating = false ∧
      newStatus c r (installation cfg r c).values (installation cfg r c).fault = .ok s ∧
      call.statusPatches c = [statusPatch r s] ∧
      call.after c = (Api.patchStatus r s.toData).after c := by
  cases hlive : r.isTerminating with
  | true => exact .inl (hcall.isSilent (held.isSilent_of_dying hlive))
  | false =>
    have hcases : IsSettled cfg c r ∨ _ := isSettled_or_writes
    rcases hcases with hsettled | ⟨s, hs, hwrites, hafter⟩
    · exact .inl (hcall.isSilent (held.isSilent_of_settled hlive hsettled))
    · refine .inr ⟨s, rfl, hs, ?_, ?_⟩
      · rw [hcall.statusPatches_eq, held.statusPatches_reconcile, hlive]
        exact hwrites
      · rw [hcall.after_eq, held.after_reconcile_of_live hlive, hafter]

theorem Holds.isSilent_after_reconcile_of_live (held : c.Holds k r) (live : r.isTerminating = false)
    (definite : ∀ status, c.statusOf? k = some status → status.isDefinite = true) (time : HasTime c)
    (taken : (reconcile cfg k).statusPatches c ≠ [] → c.answer .patchStatus = .ok ())
    (clock : Double) : (reconcile cfg k).IsSilent (((reconcile cfg k).after c).atTime clock) := by
  rw [held.statusPatches_reconcile, live] at taken
  rw [held.after_reconcile_of_live live]
  have hcases : IsSettled cfg c r ∨ _ := isSettled_or_writes
  rcases hcases with hsettled | ⟨s, hs, hwrites, hafter⟩
  · rw [hsettled.after_converge]
    have halike := (Alike.refl c).atTime clock
    exact (held.atTime clock).isSilent_of_settled live (hsettled.alike halike time)
  · have hanswer : c.answer .patchStatus = .ok () := taken (by simp [hwrites])
    rw [hafter, Api.after_patchStatus, hanswer]
    have halike := (c.alike_withStatus r.key s.toData).atTime clock
    have hself : r.status.same r.status = true := by
      refine Status.same_self_of_ofData ?_ held.storedStatus
      cases hstored : c.statusOf? k with
      | none => rfl
      | some status => exact definite status hstored
    have hwritten := held.withStatus (isPlain_newStatus held.isPlain_status hs)
    exact (hwritten.atTime clock).isSilent_of_settled live (isSettled_written halike hself hs)

/-- **Silence.**  After a reconcile whose write of the status, if it tried one, was taken, the next one
tries none and leaves the cluster as it is, at whatever time it comes. What stands under the key is an
object of that key, and what it holds was JSON, which has no not-a-number. -/
theorem isSilent_after {call next : Action Unit} (hcall : Reconciles cfg k call)
    (hnext : Reconciles cfg k next)
    (own : ∀ r, (Api.getRevision k).outcome c = .ok (some r) → r.key = k)
    (definite : ∀ status, c.statusOf? k = some status → status.isDefinite = true)
    (time : HasTime c) (taken : call.statusPatches c ≠ [] → c.answer .patchStatus = .ok ())
    (clock : Double) : next.IsSilent ((call.after c).atTime clock) := by
  rw [hcall.statusPatches_eq] at taken
  rw [hcall.after_eq]
  refine hnext.isSilent ?_
  by_cases hfound : ∃ r, (Api.getRevision k).outcome c = .ok (some r)
  · obtain ⟨r, hr⟩ := hfound
    have held := holds_of_getRevision hr (own r hr)
    cases hlive : r.isTerminating with
    | true =>
      have hafter : (reconcile cfg k).after c = c := (held.isSilent_of_dying hlive).after
      rw [hafter]
      exact (held.atTime clock).isSilent_of_dying hlive
    | false => exact held.isSilent_after_reconcile_of_live hlive definite time taken clock
  · have hunread (r : Revision) : (Api.getRevision k).outcome c ≠ .ok (some r) := fun hr =>
      hfound ⟨r, hr⟩
    have hafter : (reconcile cfg k).after c = c := (isSilent_of_unread hunread).after
    rw [hafter]
    refine isSilent_of_unread fun r => ?_
    -- what is read does not depend on the time
    rw [Api.outcome_getRevision]
    have hr := hunread r
    rw [Api.outcome_getRevision] at hr
    exact hr

/-- a status without a generation and a state, with a condition of another writer and two of one type -/
def clutteredStatus : Data :=
  .object [("conditions", .list [
    .object [("type", .text "Installed"), ("reason", .double (.ofInt 5))],
    .object [("type", .text "Ready"), ("status", .text "True")],
    .object [("type", .text "Ready"), ("message", .text "no workload")]])]

/-- a cluster with one revision, which has this status -/
def cluttered : Cluster := versioned.withStatus .sole clutteredStatus

/-- the first reconcile writes a status, and the next one, a day later, does not -/
theorem isSilent_cluttered :
    (reconcile .standard .sole).statusPatches cluttered ≠ [] ∧
    (reconcile .standard .sole).IsSilent
      (((reconcile .standard .sole).after cluttered).atTime (.ofInt 86400)) := by
  have hwrites : ((reconcile .standard .sole).statusPatches cluttered).isEmpty = false := by
    decide +kernel
  have held : cluttered.Holds .sole _ := ⟨rfl, ⟨_, rfl, rfl⟩, rfl⟩
  have own (r : Revision) (hr : (Api.getRevision .sole).outcome cluttered = .ok (some r)) :
      r.key = .sole := by
    cases held.outcome_getRevision.symm.trans hr
    exact held.own
  have definite (status : Data) (h : cluttered.statusOf? .sole = some status) :
      status.isDefinite = true := by
    have hstored : cluttered.statusOf? .sole = some clutteredStatus := rfl
    cases hstored.symm.trans h
    decide
  have time : HasTime cluttered := exists_of_isOk (by decide +kernel)
  refine ⟨fun hnone => ?_, ?_⟩
  · rw [hnone] at hwrites
    cases hwrites
  · exact isSilent_after (.inl rfl) (.inl rfl) own definite time (fun _ => rfl) _

end Cluster

end MeshOperator
