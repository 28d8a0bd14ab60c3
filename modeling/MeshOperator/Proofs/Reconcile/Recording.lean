import MeshOperator.Proofs.Cluster.Stored
import MeshOperator.Proofs.Reconcile.Readiness
import MeshOperator.Reconcile.Basic

/-!
# Recording a status

What an update of the status comes to. The new status follows from the fault of the installation and
from the verdict on readiness; it is written unless it equals the one that was read.

* `Reconcile.newStatus`: the status that an update computes.
* `Reconcile.ends_updateStatus`: how an update ends and what it leaves.
* `Reconcile.storedStatus_of_updateStatus`: what is stored after an update that was not refused.
-/

namespace MeshOperator.Reconcile

variable {c : Cluster} {k : Key} {r : Revision} {v : Values} {failure : Option Fault} {s : Status}

/-- The status that an update computes: from the fault of the installation, if there is one, and from
what the workloads show. -/
def newStatus (c : Cluster) (r : Revision) (v : Values) (failure : Option Fault) :
    Except Fault Status := do
  let ready ← (Readiness.evaluate r v).outcome c
  r.status.computeTimed r.generation (.reconciled (failure.map Fault.message)) ready (stamp c)

theorem reconciled_type (why : Option String) : (Condition.reconciled why).type = reconciledType := by
  cases why <;> rfl

/-- readiness depends on the workloads only -/
theorem steady_evaluate {R : Cluster → Cluster → Prop} {p : Entry → Prop}
    (hworkloads : ∀ {c d}, R c d → c.SameWorkloads d) (hreading : ∀ e : Entry, e.deed = .reading → p e)
    (r : Revision) (v : Values) : (Readiness.evaluate r v).Steady R p := by
  refine (Action.Steady.of _).bind fun n => ?_
  have hdeployment (k : Key) := Api.steady_readDeployment hworkloads k hreading
  refine (Readiness.steady_reading _ _ (hdeployment _)).bind fun w => ?_
  split
  · exact .pure _
  · refine (Action.Steady.of _).bind fun b => ?_
    split
    · have hdaemonSet (k : Key) := Api.steady_readDaemonSet hworkloads k hreading
      refine (Readiness.steady_reading _ _ (hdaemonSet _)).bind fun w => ?_
      split
      · exact .pure _
      · exact .pure _
    · exact .pure _

theorem quiet_evaluate (r : Revision) (v : Values) : (Readiness.evaluate r v).Quiet :=
  (steady_evaluate (p := fun _ => True) id (fun _ _ => trivial) r v).quiet

theorem makes_evaluate (r : Revision) (v : Values) : (Readiness.evaluate r v).Makes [.reading] :=
  (steady_evaluate id (fun _ he => List.mem_singleton.2 he) r v).makes

theorem outcome_evaluate_eq {d : Cluster} (h : c.SameWorkloads d) (r : Revision) (v : Values) :
    (Readiness.evaluate r v).outcome d = (Readiness.evaluate r v).outcome c :=
  (steady_evaluate (p := fun _ => True) id (fun _ _ => trivial) r v).outcome_eq h

/-- A write ends as the call of the API does, but a refusal counts only if there is no fault to report
already. It leaves what the call leaves. -/
theorem ends_writeStatus :
    (writeStatus r s failure).ends c =
      (match (Api.patchStatus r s.toData).outcome c with
        | .error (.api code reason) =>
          if failure.isNone then .error (.api code reason) else .ok ()
        | x => x,
      (Api.patchStatus r s.toData).after c) := by
  rw [writeStatus, Action.ends_orRefused, Action.ends]
  cases (Api.patchStatus r s.toData).outcome c with
  | ok u => rfl
  | error e =>
    cases e with
    | api code reason => cases failure <;> rfl
    | _ => rfl

/-- an update computes the new status, and writes it unless it is the same as the one that was read -/
theorem ends_updateStatus :
    (updateStatus r v failure).ends c =
      match newStatus c r v failure with
      | .error f => (.error f, c)
      | .ok s => if s.same r.status then (.ok (), c) else (writeStatus r s failure).ends c := by
  unfold updateStatus newStatus
  rw [(quiet_evaluate r v).ends_bind]
  cases (Readiness.evaluate r v).outcome c with
  | error f => rfl
  | ok ready =>
    dsimp only
    rw [Action.Quiet.cluster.ends_bind, Action.outcome_cluster]
    dsimp only
    rw [(Action.Quiet.of _).ends_bind, Action.outcome_of, ok_bind]
    cases r.status.computeTimed r.generation _ ready (stamp c) with
    | error f => rfl
    | ok s =>
      dsimp only
      split <;> rfl

theorem ends_updateStatus_of_error {f : Fault} (hs : newStatus c r v failure = .error f) :
    (updateStatus r v failure).ends c = (.error f, c) := by
  rw [ends_updateStatus, hs]

theorem ends_updateStatus_of_same (hs : newStatus c r v failure = .ok s)
    (hsame : s.same r.status = true) : (updateStatus r v failure).ends c = (.ok (), c) := by
  rw [ends_updateStatus, hs]
  exact if_pos hsame

theorem ends_updateStatus_of_other (hs : newStatus c r v failure = .ok s)
    (hsame : ¬ s.same r.status = true) :
    (updateStatus r v failure).ends c = (writeStatus r s failure).ends c := by
  rw [ends_updateStatus, hs]
  exact if_neg hsame

theorem outcome_updateStatus_eq_ok :
    (updateStatus r v failure).outcome c = .ok () ↔
      ∃ s, newStatus c r v failure = .ok s ∧
        (s.same r.status = true ∨ (writeStatus r s failure).outcome c = .ok ()) := by
  cases hs : newStatus c r v failure with
  | error f =>
    have hend : (updateStatus r v failure).outcome c = .error f :=
      congrArg Prod.fst (ends_updateStatus_of_error hs)
    simp [hend]
  | ok s =>
    by_cases hsame : s.same r.status = true
    · have hend : (updateStatus r v failure).outcome c = .ok () :=
        congrArg Prod.fst (ends_updateStatus_of_same hs hsame)
      simp [hend, hsame]
    · have hend : (updateStatus r v failure).outcome c = (writeStatus r s failure).outcome c :=
        congrArg Prod.fst (ends_updateStatus_of_other hs hsame)
      simp [hend, hsame]

/-- a write ends well if it is taken, or refused while there is a fault to report already -/
theorem outcome_writeStatus_eq_ok (held : c.Holds k r) :
    (writeStatus r s failure).outcome c = .ok () ↔
      c.answer .patchStatus = .ok () ∨
        failure.isSome ∧ ∃ code reason, c.answer .patchStatus = .error (.api code reason) := by
  have hend : (writeStatus r s failure).outcome c = _ := congrArg Prod.fst ends_writeStatus
  rw [hend, Api.outcome_patchStatus, if_pos held.isSome_revision?]
  cases c.answer .patchStatus with
  | ok u => simp
  | error e =>
    cases e with
    | api code reason => cases failure <;> simp
    | _ => simp

theorem after_writeStatus :
    (writeStatus r s failure).after c = (Api.patchStatus r s.toData).after c :=
  congrArg Prod.snd ends_writeStatus

/-! ### The new status -/

/-- the clock shows a time that the calendar has -/
def HasTime (c : Cluster) : Prop := ∃ now, stamp c = .ok now

/-- with a time, only readiness that cannot be judged is in the way of a new status -/
theorem newStatus_isOk (time : HasTime c)
    (judged : ∃ cond, (Readiness.evaluate r v).outcome c = .ok cond) :
    ∃ s, newStatus c r v failure = .ok s := by
  obtain ⟨now, hnow⟩ := time
  obtain ⟨cond, hcond⟩ := judged
  obtain ⟨s, hs⟩ := Status.computeTimed_eq_ok hnow
  exact ⟨s, bind_eq_ok.2 ⟨cond, hcond, hs⟩⟩

theorem exists_text_of_stamp {now : Data} (h : stamp c = .ok now) : ∃ t, now = .text t := by
  unfold stamp at h
  cases ht : orFault .calendar (stampOf c.clock) with
  | error f =>
    rw [ht] at h
    cases h
  | ok t =>
    rw [ht] at h
    cases h
    exact ⟨t, rfl⟩

theorem stamp_stands {now : Data} (h : stamp c = .ok now) : now.Stands := by
  obtain ⟨t, rfl⟩ := exists_text_of_stamp h
  exact Data.stands_text t

/-- The new status is a change of the one that was read, to the verdict on readiness, at a time that is the
clock's if a condition flips. -/
theorem newStatus_eq_compute (h : newStatus c r v failure = .ok s) :
    ∃ now, s = r.status.compute r.generation (.reconciled (failure.map Fault.message))
        (Readiness.verdict c r v) now ∧
      (r.status.flips (.reconciled (failure.map Fault.message)) = true ∨
        r.status.flips (Readiness.verdict c r v) = true → stamp c = .ok now) := by
  obtain ⟨ready, hready, h⟩ := bind_eq_ok.1 h
  rw [Readiness.evaluate_eq_ok hready] at h
  exact Status.eq_compute_of_computeTimed (reconciled_type _) Readiness.verdict_type h

theorem newStatus_eq_ok (h : newStatus c r v failure = .ok s) :
    ∃ now, s = r.status.compute r.generation (.reconciled (failure.map Fault.message))
      (Readiness.verdict c r v) now := by
  obtain ⟨now, hs, -⟩ := newStatus_eq_compute h
  exact ⟨now, hs⟩

theorem generation_newStatus (hs : newStatus c r v failure = .ok s) : s.generation = r.generation := by
  obtain ⟨now, rfl⟩ := newStatus_eq_ok hs
  rfl

/-- a status that is the same as the new one tells what the new one does -/
theorem agrees_of_same_newStatus (hs : newStatus c r v failure = .ok s)
    (hsame : s.same r.status = true) : r.status.Agrees s := by
  obtain ⟨now, rfl⟩ := newStatus_eq_ok hs
  exact Status.agrees_of_same (reconciled_type _) Readiness.verdict_type
    (Condition.isStated_reconciled _) Readiness.isStated_verdict hsame

theorem isPlain_newStatus (hr : r.status.IsPlain) (h : newStatus c r v failure = .ok s) :
    s.IsPlain := by
  obtain ⟨ready, hready, h⟩ := bind_eq_ok.1 h
  rw [Readiness.evaluate_eq_ok hready] at h
  exact Status.isPlain_of_computeTimed (reconciled_type _) Readiness.verdict_type hr
    (Condition.isStated_reconciled _) Readiness.isStated_verdict (fun _ => stamp_stands) h

/-! ### What is stored afterwards -/

/-- After an update that had nothing to write, or whose write the cluster takes, the stored status
tells what the new one does. -/
theorem storedStatus_of_updateStatus (held : c.Holds k r) (hs : newStatus c r v failure = .ok s)
    (hw : s.same r.status = true ∨ c.answer .patchStatus = .ok ()) :
    ∃ t, ((updateStatus r v failure).after c).storedStatus k = .ok t ∧ t.Agrees s := by
  by_cases hsame : s.same r.status = true
  · have hafter : (updateStatus r v failure).after c = c :=
      congrArg Prod.snd (ends_updateStatus_of_same hs hsame)
    rw [hafter]
    exact ⟨r.status, held.storedStatus, agrees_of_same_newStatus hs hsame⟩
  · have hafter : (updateStatus r v failure).after c = (writeStatus r s failure).after c :=
      congrArg Prod.snd (ends_updateStatus_of_other hs hsame)
    rw [hafter, after_writeStatus, Api.after_patchStatus, hw.resolve_left hsame]
    exact ⟨s, held.storedStatus_withStatus (isPlain_newStatus held.isPlain_status hs), .refl s⟩

/-- an update whose write is refused leaves the cluster as it is -/
theorem after_updateStatus_of_refused (h : c.answer .patchStatus ≠ .ok ()) :
    (updateStatus r v failure).after c = c := by
  have hkept : ∀ s, (writeStatus r s failure).after c = c := fun s => by
    rw [after_writeStatus, Api.after_patchStatus]
    cases ha : c.answer .patchStatus with
    | ok u => exact absurd ha h
    | error f => rfl
  refine (congrArg Prod.snd ends_updateStatus).trans ?_
  split
  · rfl
  · split
    · rfl
    · exact hkept _

end MeshOperator.Reconcile
