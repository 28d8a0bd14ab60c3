import MeshOperator.Proofs.Cluster.Matching
import MeshOperator.Proofs.Reconcile.Deletion

/-!
# A reconcile in two clusters

A call that reconciles a revision goes the same in two clusters if these agree about all that it looks at. Which
clusters agree is left open here: it is enough that they agree about some things, and still do after the status
of the revision was written in both. Events are apart, since they may fail differently where they are not told.

* `Reconcile.Congruence`: what a relation between clusters must have.
* `Reconcile.TellsAlike`: telling of something in an event matches itself.
* `Reconcile.Congruence.matches_converge`, `Reconcile.Congruence.matches_call`: where what is told is told
  alike, a reconcile matches itself, and so does a call.
-/

namespace MeshOperator.Reconcile

open MeshOperator.Action (Steady Matches)

variable {R : Cluster → Cluster → Prop} {K : Key → Prop} {p : Entry → Bool}
variable {cfg : Config} {c d : Cluster} {k : Key} {r : Revision} {call : Action Unit}

/-- Related clusters agree about all that a call for one of the keys `K` looks at, apart from events, and stay
related when the status under such a key is written in both. -/
structure Congruence (R : Cluster → Cluster → Prop) (K : Key → Prop) : Prop where
  clock : ∀ {c d}, R c d → d.clock = c.clock
  tools : ∀ {c d}, R c d → c.SameTools d
  workloads : ∀ {c d}, R c d → c.SameWorkloads d
  getRevision : ∀ {c d}, R c d → d.answer .getRevision = c.answer .getRevision
  patchStatus : ∀ {c d}, R c d → d.answer .patchStatus = c.answer .patchStatus
  revision : ∀ {c d k}, R c d → K k → d.revision? k = c.revision? k
  withStatus : ∀ {c d k}, R c d → K k → ∀ status, R (c.withStatus k status) (d.withStatus k status)

/-- Whatever is told of the revision in an event, telling it goes the same in both clusters. -/
def TellsAlike (R : Cluster → Cluster → Prop) (p : Entry → Bool) (r : Revision) (c d : Cluster) : Prop :=
  ∀ reason message type, Matches R p (Api.emitEvent r reason message type)
    (Api.emitEvent r reason message type) c d

/-! ### Steps that look at nothing -/

section

variable (h : R c d)
include h

theorem matches_throw {α : Type} (f : Fault) : Matches R p (throw f : Action α) (throw f) c d := ⟨rfl, rfl, h⟩

theorem matches_pure {α : Type} (x : α) : Matches R p (pure x : Action α) (pure x) c d := ⟨rfl, rfl, h⟩

end

/-- what is done after something was told -/
theorem TellsAlike.matches_bind (htold : TellsAlike R p r c d) {reason message type : String}
    {f : Unit → Action Unit} (hf : Matches R p (f ()) (f ()) c d) :
    Matches R p (Api.emitEvent r reason message type >>= f) (Api.emitEvent r reason message type >>= f)
      c d := by
  refine (htold reason message type).bind fun _ _ => ?_
  rw [(Api.quiet_emitEvent ..).after_eq, (Api.quiet_emitEvent ..).after_eq]
  exact hf

namespace Congruence

variable (hR : Congruence R K) (h : R c d)
include hR

theorem steady_getRevision (hk : K k) : (Api.getRevision k).Steady R fun _ => True :=
  Api.steady_getRevision k (fun _ _ => trivial) hR.getRevision fun h => hR.revision h hk

theorem steady_evaluate (r : Revision) (v : Values) :
    (Readiness.evaluate r v).Steady R fun _ => True :=
  Reconcile.steady_evaluate hR.workloads (fun _ _ => trivial) r v

theorem steady_installPhase (cfg : Config) (r : Revision) :
    (installPhase cfg r).Steady R fun _ => True :=
  Reconcile.steady_installPhase hR.tools (fun _ _ => trivial) (fun _ _ => trivial) (fun _ _ => trivial) cfg

theorem steady_finalize (cfg : Config) (r : Revision) : (finalize cfg r).Steady R fun _ => True :=
  Reconcile.steady_finalize hR.tools (fun _ _ => trivial) (fun _ _ => trivial) cfg

include h

theorem stamp_eq : stamp d = stamp c := by
  rw [stamp, stamp, hR.clock h]

theorem matches_log_bind {α : Type} {l : Log.Level} {m : String} {fs : List (String × Data)}
    {f : Unit → Action α} (hf : Matches R p (f ()) (f ()) c d) :
    Matches R p (Action.log l m fs >>= f) (Action.log l m fs >>= f) c d := by
  have hlog : (Action.log l m fs).Steady R fun _ => True := .log l m fs fun _ => trivial
  exact hlog.matching_bind (hR.clock h) h fun _ _ => hf

/-! ### Writing the status -/

theorem matches_patchStatus (hk : K r.key) (status : Data) :
    Matches R p (Api.patchStatus r status) (Api.patchStatus r status) c d := by
  have hcall (q : Request) : (Api.call .patchStatus q).Steady R fun _ => True :=
    Api.steady_call trivial hR.patchStatus
  have hfound (x : Option Data) : (Api.found x).Steady R fun _ => True := Api.steady_found x
  refine (hcall _).matching_bind (hR.clock h) h fun _ _ => .look ?_
  rw [hR.revision h hk]
  exact (hfound _).matching_bind (hR.clock h) h fun _ _ => .change (hR.withStatus h hk status)

theorem matches_updateStatus (hk : K r.key) (v : Values) (failure : Option Fault) :
    Matches R p (updateStatus r v failure) (updateStatus r v failure) c d := by
  refine (hR.steady_evaluate r v).matching_bind (hR.clock h) h fun ready _ => Matches.look ?_
  rw [hR.stamp_eq h]
  refine Matches.bind ⟨rfl, rfl, h⟩ fun status _ => ?_
  split
  · exact matches_pure h ()
  · have hpatch : Matches R p _ _ c d := hR.matches_patchStatus h hk status.toData
    refine hpatch.orRefused fun code reason => hR.matches_log_bind hpatch.after ?_
    split
    · exact matches_throw hpatch.after _
    · exact matches_pure hpatch.after ()

/-- what is done once a fault of the installation was told -/
theorem matches_record (hk : K r.key) (v : Values) (failure : Option Fault) :
    let record : Action Unit := do
      Action.log .info "Reconciliation done. Updating status."
        (aboutRevision r "reconcile" (if failure.isNone then "ReconcileSucceeded" else "InstallFailed"))
      updateStatus r v failure
      if let some f := failure then throw f
    Matches R p record record c d := by
  have hupdate : Matches R p _ _ c d := hR.matches_updateStatus h hk v failure
  refine hR.matches_log_bind h (hupdate.bind fun _ _ => ?_)
  cases failure with
  | none => exact matches_pure hupdate.after ()
  | some f => exact matches_throw hupdate.after f

/-- where a fault of the installation is told alike, if there is one, a reconcile matches itself -/
theorem matches_converge (hk : K r.key)
    (htold : ∀ f, (installation cfg r c).fault = some f → TellsAlike R p r c d) :
    Matches R p (converge cfg r) (converge cfg r) c d := by
  unfold converge
  refine hR.matches_log_bind h ?_
  by_cases hversion : r.version.truthy = true
  · rw [if_pos hversion, installAndRecord]
    refine (hR.steady_installPhase cfg r).matching_bind (hR.clock h) h fun tried htried => ?_
    rw [outcome_installPhase hversion] at htried
    obtain ⟨v, failure⟩ := tried
    cases failure with
    | none => exact hR.matches_record h hk v none
    | some f =>
      have hfault : (installation cfg r c).fault = some f := by
        injection htried with htried
        exact congrArg Prod.snd htried
      exact (htold f hfault).matches_bind (hR.matches_record h hk v (some f))
  · rw [if_neg hversion, refuse]
    have hevent := htold noVersion (by rw [installation_of_noVersion hversion])
    exact hR.matches_log_bind h (hevent.matches_bind (hR.matches_updateStatus h hk ..))

/-! ### From the key on -/

variable (hk : K k) (own : ∀ r, (Api.getRevision k).outcome c = .ok (some r) → K r.key)
variable (htold : ∀ r f, (Api.getRevision k).outcome c = .ok (some r) → r.isTerminating = false →
  (installation cfg r c).fault = some f → TellsAlike R p r c d)
include hk own htold

theorem matches_attempt : Matches R p (attempt cfg k) (attempt cfg k) c d := by
  refine (hR.steady_getRevision hk).matching_bind (hR.clock h) h fun found hfound => ?_
  cases found with
  | none => exact hR.matches_log_bind h (matches_pure h _)
  | some r =>
    dsimp only
    cases hdying : r.isTerminating with
    | true =>
      exact (hR.steady_finalize cfg r).matching_bind (hR.clock h) h fun _ _ => matches_pure h _
    | false =>
      have hconverge : Matches R p _ _ c d :=
        hR.matches_converge h (own r hfound) fun f hf => htold r f hfound hdying hf
      exact hconverge.bind fun _ _ => matches_pure hconverge.after _

theorem matches_reconcile : Matches R p (reconcile cfg k) (reconcile cfg k) c d := by
  have hnote (e : Entry) (_ : e.deed = .note) : True := trivial
  have hattempt : Matches R p _ _ c d := hR.matches_attempt h hk own htold
  have hcounted := hattempt.bind fun result _ =>
    (steady_counted hnote result).matching (hR.clock hattempt.after) hattempt.after
  exact hcounted.tryCatch fun f _ =>
    (steady_failed hnote k f).matching (hR.clock hcounted.after) hcounted.after

/-- a call matches itself if its reconcile does -/
theorem matches_call (hcall : Reconciles cfg k call) : Matches R p call call c d := by
  have hreconcile : Matches R p _ _ c d := hR.matches_reconcile h hk own htold
  obtain rfl | ⟨retry, rfl⟩ := hcall
  · exact hreconcile
  · refine hreconcile.tryCatch fun f _ => hR.matches_log_bind hreconcile.after ?_
    exact matches_throw hreconcile.after _

end Congruence

end MeshOperator.Reconcile
