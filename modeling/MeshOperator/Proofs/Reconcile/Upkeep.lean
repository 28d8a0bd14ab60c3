import MeshOperator.Proofs.Reconcile.Silence
import MeshOperator.Proofs.Reconcile.Visits
import MeshOperator.Proofs.Revision.Upkeep

/-!
# The status over a run of visits

The operator is called for a revision again and again, while everything but the status may change between the
calls. What is stored as the status after any number of calls was there at the start, or is what the last
write left.

* `Reconcile.Visit.Writes`, `Reconcile.Visit.after_cases`: a visit writes one status, or changes nothing.
* `Reconcile.Upkeep`: a run of visits and of changes between them.
* `Reconcile.Upkeep.isTidy`, `Reconcile.Upkeep.keepsOthers`: what each step preserves, and so a run.
* `Reconcile.wellKept`: the status over a run.
-/

namespace MeshOperator

/-! ### Verdicts -/

namespace Readiness

theorem gap?_mem {absent unwanted unready gap : String} {w : Option (Option Workload)}
    (h : gap? absent unwanted unready w = some gap) : gap ∈ [absent, unwanted, unready] := by
  unfold gap? at h
  split at h
  · cases h
    exact List.mem_cons_self ..
  · dsimp only at h
    split at h
    · cases h
      simp
    · split at h
      · cases h
        simp
      · cases h

theorem isVerdict_verdict (c : Cluster) (r : Revision) (v : Values) : (verdict c r v).IsVerdict := by
  have hdeployment {w : Option (Option Workload)} {gap : String} (h : deploymentGap? w = some gap) :
      gap ≠ "" := by
    have hmem := gap?_mem h
    clear h
    revert gap
    decide
  have hdaemonSet {w : Option (Option Workload)} {gap : String} (h : daemonSetGap? w = some gap) :
      gap ≠ "" := by
    have hmem := gap?_mem h
    clear h
    revert gap
    decide
  unfold verdict
  split
  · rename_i gap hgap
    exact Condition.isVerdict_notReady (by decide) (hdeployment hgap)
  · split
    · split
      · rename_i gap hgap
        exact Condition.isVerdict_notReady (by decide) (hdaemonSet hgap)
      · exact Condition.isVerdict_ready
    · exact Condition.isVerdict_ready

end Readiness

/-- the time of a clock is not the empty text -/
theorem stampOf_ne_empty {clock : Double} {time : String} (h : stampOf clock = .ok time) : time ≠ "" := by
  rintro rfl
  unfold stampOf at h
  obtain ⟨n, -, h⟩ := bind_eq_ok.1 h
  obtain ⟨t, -, h⟩ := bind_eq_ok.1 h
  split at h
  · cases h
  · injection h with htext
    have hlist := congrArg String.toList htext
    simp at hlist

namespace Reconcile

variable {cfg : Config} {c c₀ : Cluster} {k : Key} {r : Revision} {v : Values} {w : Option Int}

theorem exists_time_of_stamp {now : Data} (h : stamp c = .ok now) :
    ∃ time, now = .text time ∧ time ≠ "" := by
  unfold stamp at h
  cases ht : stampOf c.clock with
  | error f =>
    rw [ht] at h
    cases h
  | ok time =>
    rw [ht] at h
    cases h
    exact ⟨time, rfl, stampOf_ne_empty ht⟩

theorem isTidy_newStatus {failure : Option Fault} {s : Status} (hs : newStatus c r v failure = .ok s)
    (h : r.status.conditions = [] ∨ r.status.IsTidy) : s.IsTidy := by
  obtain ⟨now, rfl, hnow⟩ := newStatus_eq_compute hs
  exact Status.isTidy_compute (reconciled_type _) Readiness.verdict_type h
    (Condition.isVerdict_reconciled _) (Readiness.isVerdict_verdict ..)
    fun hflips => exists_time_of_stamp (hnow hflips)

/-! ### One visit -/

namespace Visit

variable (v : Visit k)

/-- the cluster that a visit leaves -/
def after : Cluster := v.call.after v.cluster

/-- The visit tries to write a status, and the cluster takes it. -/
structure Writes : Prop where
  tries : v.call.statusPatches v.cluster ≠ []
  taken : v.cluster.answer .patchStatus = .ok ()

/-- A visit changes nothing, or it stores the new status of the revision that it finds. -/
theorem after_cases :
    (¬ v.Writes ∧ v.after = v.cluster) ∨
    ∃ r s failure values, v.Writes ∧ v.cluster.Holds k r ∧
      newStatus v.cluster r values failure = .ok s ∧ v.after = v.cluster.withStatus r.key s.toData := by
  have hidle (h : v.call.IsSilent v.cluster) : ¬ v.Writes ∧ v.after = v.cluster :=
    ⟨fun hwrites => hwrites.tries h.statusPatches, h.after⟩
  by_cases hfound : ∃ r, v.Finds r
  · obtain ⟨r, hr⟩ := hfound
    have held := Cluster.holds_of_getRevision hr (v.own r hr)
    rcases held.isSilent_or_writes v.reconciles with hsilent | ⟨s, -, hs, htries, hleft⟩
    · exact .inl (hidle hsilent)
    · rw [Api.after_patchStatus] at hleft
      cases hanswer : v.cluster.answer .patchStatus with
      | error f =>
        rw [hanswer] at hleft
        refine .inl ⟨fun hwrites => ?_, hleft⟩
        cases hanswer.symm.trans hwrites.taken
      | ok u =>
        rw [hanswer] at hleft
        exact .inr ⟨r, s, _, _, ⟨by simp [htries], hanswer⟩, held, hs, hleft⟩
  · have hsilent : (reconcile v.config k).IsSilent v.cluster :=
      Cluster.isSilent_of_unread fun r hr => hfound ⟨r, hr⟩
    exact .inl (hidle (v.reconciles.isSilent hsilent))

end Visit

/-! ### A run of visits -/

/-- A run of visits to one revision from the cluster `start` on, with arbitrary changes between the visits of
all but the status. It tells the cluster at its end, and for which generation the last status was written, if
one was. -/
inductive Upkeep (k : Key) (start : Cluster) : Cluster → Option Int → Prop
  | start : Upkeep k start start none
  | change {c d : Cluster} {w : Option Int} (before : Upkeep k start c w)
      (kept : d.statusOf? k = c.statusOf? k) : Upkeep k start d w
  | passes {w : Option Int} (v : Visit k) (before : Upkeep k start v.cluster w) (idle : ¬ v.Writes) :
      Upkeep k start v.after w
  | writes {w : Option Int} {r : Revision} (v : Visit k) (before : Upkeep k start v.cluster w)
      (finds : v.Finds r) (writes : v.Writes) : Upkeep k start v.after (some r.generation)

namespace Visit

variable {v : Visit k}

theorem after_of_idle (h : ¬ v.Writes) : v.after = v.cluster := by
  rcases v.after_cases with ⟨-, hafter⟩ | ⟨r, s, failure, values, hwrites, -⟩
  · exact hafter
  · exact absurd hwrites h

/-- a visit that writes stores the new status of the revision that it finds -/
theorem exists_newStatus_of_writes (h : v.Writes) (finds : v.Finds r) :
    ∃ s failure values, v.cluster.storedStatus k = .ok r.status ∧
      newStatus v.cluster r values failure = .ok s ∧
      v.after.statusOf? k = some s.toData ∧ v.after.storedStatus k = .ok s := by
  rcases v.after_cases with ⟨hidle, -⟩ | ⟨r', s, failure, values, -, held, hs, hafter⟩
  · exact absurd h hidle
  · cases held.outcome_getRevision.symm.trans finds
    rw [hafter]
    exact ⟨s, failure, values, held.storedStatus, hs, held.statusOf?_withStatus _,
      held.storedStatus_withStatus (isPlain_newStatus held.isPlain_status hs)⟩

end Visit

/-- The status is the one of the start, or a tidy one that was written for the generation. -/
inductive IsKept (k : Key) (c : Cluster) : Option Int → Prop
  | absent (h : c.statusOf? k = none) : IsKept k c none
  | tidy {s : Status} (h : c.statusOf? k = some s.toData) (read : c.storedStatus k = .ok s)
      (tidy : s.IsTidy) : IsKept k c (some s.generation)

theorem storedStatus_of_statusOf? {d : Cluster} (h : d.statusOf? k = c.statusOf? k) :
    d.storedStatus k = c.storedStatus k := by
  rw [Cluster.storedStatus, Cluster.storedStatus, h]

theorem IsKept.of_statusOf? {d : Cluster} (h : IsKept k c w) (heq : d.statusOf? k = c.statusOf? k) :
    IsKept k d w := by
  cases h with
  | absent h => exact .absent (heq.trans h)
  | tidy h read tidy => exact .tidy (heq.trans h) ((storedStatus_of_statusOf? heq).trans read) tidy

/-- what is read back has no conditions, or is tidy -/
theorem IsKept.isTidy_of_read {s : Status} (h : IsKept k c w) (hs : c.storedStatus k = .ok s) :
    s.conditions = [] ∨ s.IsTidy := by
  cases h with
  | absent h =>
    rw [Cluster.storedStatus, h] at hs
    cases hs
    exact .inl rfl
  | tidy h read tidy =>
    cases read.symm.trans hs
    exact .inr tidy

namespace Upkeep

/-- Where there was no status at the start, there is none, or a tidy one. -/
theorem isKept (run : Upkeep k c₀ c w) (fresh : c₀.statusOf? k = none) : IsKept k c w := by
  induction run with
  | start => exact .absent fresh
  | change before kept ih => exact ih.of_statusOf? kept
  | passes v before idle ih =>
    rw [Visit.after_of_idle idle]
    exact ih
  | writes v before finds writes ih =>
    obtain ⟨s, failure, values, hread, hs, hstored, hback⟩ :=
      Visit.exists_newStatus_of_writes writes finds
    rw [← generation_newStatus hs]
    exact .tidy hstored hback (isTidy_newStatus hs (ih.isTidy_of_read hread))

/-- The conditions of other writers stay, and those of the operator are there once a status was written. -/
theorem keepsOthers {s₀ : Status} (run : Upkeep k c₀ c w) (hread : c₀.storedStatus k = .ok s₀)
    (distinct : s₀.HasDistinctTypes) :
    ∃ s, c.storedStatus k = .ok s ∧ s.HasDistinctTypes ∧ s₀.KeepsOthers s ∧
      (w.isSome = true → s.HasBoth) := by
  induction run with
  | start => exact ⟨s₀, hread, distinct, .refl s₀, fun hw => by cases hw⟩
  | change before kept ih =>
    rw [storedStatus_of_statusOf? kept]
    exact ih
  | passes v before idle ih =>
    rw [Visit.after_of_idle idle]
    exact ih
  | writes v before finds writes ih =>
    obtain ⟨s, hs, hdistinct, hkeeps, -⟩ := ih
    obtain ⟨t, failure, values, hold, hnew, -, hback⟩ :=
      Visit.exists_newStatus_of_writes writes finds
    cases hs.symm.trans hold
    obtain ⟨now, rfl⟩ := newStatus_eq_ok hnew
    have hr := reconciled_type (failure.map Fault.message)
    exact ⟨_, hback, hdistinct.compute hr Readiness.verdict_type,
      hkeeps.compute hr Readiness.verdict_type, fun _ => Status.hasBoth_compute hr Readiness.verdict_type⟩

end Upkeep

/-- **Upkeep.**  After any run of visits, with changes between them of all but the status, there is no status
if there was none at the start and none was written, and a tidy one for the generation of the last write if
one was. If the run starts from any status that is read with pairwise distinct types, these stay distinct, the
conditions of other writers stay what and where they are, and after the first write both conditions of the
operator are there. -/
theorem wellKept (run : Upkeep k c₀ c w) :
    (c₀.statusOf? k = none → IsKept k c w) ∧
    ∀ s₀, c₀.storedStatus k = .ok s₀ → s₀.HasDistinctTypes →
      ∃ s, c.storedStatus k = .ok s ∧ s.HasDistinctTypes ∧ s₀.KeepsOthers s ∧
        (w.isSome = true → s.HasBoth) :=
  ⟨run.isKept, fun _ hread distinct => run.keepsOthers hread distinct⟩

end Reconcile

namespace Cluster

open Reconcile

/-- a visit to a revision that has no status yet -/
def firstVisit : Visit .sole :=
  ⟨.standard, versioned, reconcile .standard .sole, .inl rfl, holds_versioned.own_of_getRevision⟩

/-- what it wrote for the first generation stands there a day later -/
theorem wellKept_firstVisit :
    firstVisit.Writes ∧ IsKept .sole (firstVisit.after.atTime (.ofInt 86400)) (some 1) := by
  have htries : (firstVisit.call.statusPatches versioned).isEmpty = false := by decide +kernel
  have hwrites : firstVisit.Writes := by
    refine ⟨fun hnone => ?_, rfl⟩
    have hempty : (firstVisit.call.statusPatches versioned).isEmpty = true := List.isEmpty_iff.2 hnone
    cases htries.symm.trans hempty
  have hfinds : firstVisit.Finds .versioned := holds_versioned.outcome_getRevision
  have run : Upkeep .sole versioned (firstVisit.after.atTime (.ofInt 86400)) (some 1) :=
    .change (.writes firstVisit .start hfinds hwrites) rfl
  exact ⟨hwrites, (wellKept run).1 rfl⟩

end Cluster

end MeshOperator
