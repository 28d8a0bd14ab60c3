import MeshOperator.Proofs.Reconcile.Course

/-!
# What the status tells after a reconcile

A reconcile is to leave a status that tells how it went. Two things are in its way: a status whose write
is refused while the revision names no version, and values that readiness cannot be judged from.

* `Reconcile.IsLost`: a refused write that nothing reports.
* `Cluster.Holds.agrees_iff_not_lost`: after a call that returns, the status is current unless its write
  was lost.
* `Status.Records`: the status tells the generation and the fault.
* `Cluster.Holds.records_iff_judges`: where no call of the API fails, the fault is told unless readiness
  cannot be judged.
-/

namespace MeshOperator

namespace Reconcile

variable {cfg : Config} {c : Cluster} {k : Key} {r : Revision} {s : Status}

/-! ### A status that is current -/

/-- The write of the status `s` is lost: the revision names no version, so that its fault is not raised,
the API refuses the write, and what is stored does not tell what `s` does. -/
structure IsLost (c : Cluster) (r : Revision) (s : Status) : Prop where
  noVersion : ¬ r.version.truthy = true
  refused : ∃ code reason, c.answer .patchStatus = .error (.api code reason)
  outdated : ¬ r.status.Agrees s

/-- a fault that is not raised is that of a revision without a version -/
theorem noVersion_of_raised {failure : Option Fault} (h : raised r failure = .ok ())
    (hfailure : failure.isSome = true) : ¬ r.version.truthy = true := by
  obtain ⟨f, rfl⟩ := Option.isSome_iff_exists.1 hfailure
  intro hversion
  cases (raised_of_version hversion f).symm.trans h

end Reconcile

namespace Cluster.Holds

open Reconcile

variable {cfg : Config} {c : Cluster} {k : Key} {r : Revision} {call : Action Unit}

/-- **Currency.**  A call that reconciles a revision that is not being deleted, and returns, computed a
status for the generation that was read. What is stored then tells what this status does, except where
the write of it is lost. -/
theorem agrees_iff_not_lost (held : c.Holds k r) (live : r.isTerminating = false)
    (hcall : Reconciles cfg k call) (returns : call.outcome c = .ok ()) :
    ∃ s t, newStatus c r (installation cfg r c).values (installation cfg r c).fault = .ok s ∧
      s.generation = r.generation ∧ (call.after c).storedStatus k = .ok t ∧
      (t.Agrees s ↔ ¬ IsLost c r s) := by
  rw [hcall.outcome_eq_ok, held.outcome_reconcile_of_live live, outcome_converge_eq_ok] at returns
  obtain ⟨htold, hdone, hraised⟩ := returns
  obtain ⟨s, hs, hwritten⟩ := outcome_updateStatus_eq_ok.1 hdone
  have hafter : call.after c = (updateStatus r (installation cfg r c).values
      (installation cfg r c).fault).after c := by
    rw [hcall.after_eq, held.after_reconcile_of_live live, after_converge, htold]
  refine ⟨s, ?_⟩
  rw [hafter]
  rw [outcome_writeStatus_eq_ok held, ← or_assoc] at hwritten
  rcases hwritten with htaken | ⟨hfault, code, reason, hrefused⟩
  · obtain ⟨t, ht, hagrees⟩ := storedStatus_of_updateStatus held hs htaken
    refine ⟨t, hs, generation_newStatus hs, ht, fun _ hlost => ?_, fun _ => hagrees⟩
    rcases htaken with hsame | htaken
    · exact hlost.outdated (agrees_of_same_newStatus hs hsame)
    · obtain ⟨code, reason, hrefused⟩ := hlost.refused
      cases htaken.symm.trans hrefused
  · -- the refusal is swallowed, and the cluster keeps the status that was read
    have hunchanged : c.answer .patchStatus ≠ .ok () := fun htaken => by
      cases hrefused.symm.trans htaken
    rw [after_updateStatus_of_refused hunchanged]
    refine ⟨r.status, hs, generation_newStatus hs, held.storedStatus,
      fun hagrees hlost => hlost.outdated hagrees, fun hkept => ?_⟩
    by_cases hagrees : r.status.Agrees s
    · exact hagrees
    · exact absurd ⟨noVersion_of_raised hraised hfault, ⟨code, reason, hrefused⟩, hagrees⟩ hkept

end Cluster.Holds

namespace Cluster

open Reconcile

/-- a revision with a version, whose reconcile returns, has a current status -/
theorem agrees_versioned :
    ∃ s t, newStatus versioned .versioned (installation .standard .versioned versioned).values
        (installation .standard .versioned versioned).fault = .ok s ∧ s.generation = 1 ∧
      ((Handler.revision .standard .sole 0).after versioned).storedStatus .sole = .ok t ∧
      t.Agrees s := by
  obtain ⟨s, t, hs, hgeneration, ht, hiff⟩ := holds_versioned.agrees_iff_not_lost rfl
    (.inr ⟨0, rfl⟩ : Reconciles .standard .sole (Handler.revision .standard .sole 0))
    (eq_ok_of_isOk (by decide +kernel))
  exact ⟨s, t, hs, hgeneration, ht, hiff.2 fun hlost => hlost.noVersion (by decide)⟩

/-- a cluster with one revision, which names no version, and whose status was written by another -/
def contested : Cluster :=
  { sole [] [] with
    troubles := [(.patchStatus, .answer (.int 409) (.text "Conflict") (.text ""))] }

/-- The handler returns for it, and what is stored is not for the generation that was read. -/
theorem loses_contested :
    contested.Holds .sole .sole ∧ Revision.sole.isTerminating = false ∧
    (Handler.revision .standard .sole 0).outcome contested = .ok () ∧
    ∃ t, ((Handler.revision .standard .sole 0).after contested).storedStatus .sole = .ok t ∧
      t.generation ≠ Revision.sole.generation := by
  have held : contested.Holds .sole .sole := ⟨rfl, ⟨_, rfl, rfl⟩, rfl⟩
  obtain ⟨t, ht, hgeneration⟩ :
      ∃ t, ((Handler.revision .standard .sole 0).after contested).storedStatus .sole = .ok t ∧
        t.generation = 0 := exists_storedStatus (by decide +kernel)
  refine ⟨held, rfl, eq_ok_of_isOk (by decide +kernel), t, ht, ?_⟩
  rw [hgeneration]
  decide

end Cluster

/-! ### A status that tells the fault -/

/-- The status tells how a reconcile of a generation went: that the charts are installed if there was no
fault, and otherwise that they are not, with the sentence for the fault. -/
structure Status.Records (t : Status) (generation : Int) (failure : Option Fault) : Prop where
  generation : t.generation = generation
  holds : (t.condition reconciledType).status = statusTrue ↔ failure = none
  explains : ∀ f, failure = some f → (t.condition reconciledType).status = statusFalse ∧
    (t.condition reconciledType).message = .text ("error reconciling resource: " ++ f.message)

/-- an operation is answered, or with the words that nothing is there -/
def Cluster.Tells (c : Cluster) (o : Operation) : Prop :=
  c.answer o = .ok () ∨ ∃ code reason, c.answer o = .error (.api code reason) ∧
    code.same Api.notFound = true

theorem Cluster.Tells.seen_isOk {c : Cluster} {o : Operation} (h : c.Tells o) {α : Type}
    (x : Option α) : ∃ y, c.seen o x = .ok y := by
  unfold Cluster.seen
  rcases h with h | ⟨code, reason, h, hcode⟩
  · rw [h]
    exact ⟨x, rfl⟩
  · rw [h]
    exact ⟨none, if_pos hcode⟩

/-- No call of the API fails that a reconcile makes after the revision was read, and the clock shows a
time. -/
structure Cluster.IsCalm (c : Cluster) : Prop where
  event : c.answer .createEvent = .ok ()
  status : c.answer .patchStatus = .ok ()
  deployment : c.Tells .readDeployment
  daemonSet : c.Tells .readDaemonSet
  time : Reconcile.HasTime c

namespace Reconcile

variable {c : Cluster} {r : Revision} {v : Values} {failure : Option Fault} {s t : Status}

/-- a new status is computed exactly when readiness can be judged -/
theorem newStatus_isOk_iff (calm : c.IsCalm) :
    (∃ s, newStatus c r v failure = .ok s) ↔ Readiness.Judges c r v := by
  rw [← Readiness.evaluate_isOk calm.deployment.seen_isOk calm.daemonSet.seen_isOk]
  constructor
  · rintro ⟨s, hs⟩
    obtain ⟨cond, hcond, -⟩ := bind_eq_ok.1 hs
    exact ⟨cond, hcond⟩
  · exact newStatus_isOk calm.time

theorem statusFalse_ne_statusTrue : statusFalse ≠ statusTrue := by
  simp [statusFalse, statusTrue]

/-- a status that tells what the new one does tells how the reconcile went -/
theorem records_of_agrees (hs : newStatus c r v failure = .ok s) (h : t.Agrees s) :
    t.Records r.generation failure := by
  have hgeneration := h.generation.trans (generation_newStatus hs)
  obtain ⟨now, rfl⟩ := newStatus_eq_ok hs
  have hcond := h.reconciled
  rw [Status.condition_compute_reconciled _ _ _ (reconciled_type _) Readiness.verdict_type] at hcond
  refine ⟨hgeneration, ?_, ?_⟩
  · rw [hcond]
    cases failure with
    | none => exact ⟨fun _ => rfl, fun _ => rfl⟩
    | some f => exact ⟨fun h => absurd h statusFalse_ne_statusTrue, fun h => (by cases h)⟩
  · rintro f rfl
    rw [hcond]
    exact ⟨rfl, rfl⟩

end Reconcile

namespace Cluster.Holds

open Reconcile

variable {cfg : Config} {c : Cluster} {k : Key} {r : Revision}

/-- **Visibility.**  Where no call of the API fails, a reconcile of a revision that is not being deleted
leaves a status that tells how it went exactly when readiness can be judged from the values, or the
status told so before: from values that it cannot be judged from, the reconcile ends with a fault and
leaves the cluster as it is. -/
theorem records_iff_judges (held : c.Holds k r) (live : r.isTerminating = false) (calm : c.IsCalm) :
    (∃ t, ((reconcile cfg k).after c).storedStatus k = .ok t ∧
      (t.Records r.generation (installation cfg r c).fault ↔
        Readiness.Judges c r (installation cfg r c).values ∨
          r.status.Records r.generation (installation cfg r c).fault)) ∧
    (¬ Readiness.Judges c r (installation cfg r c).values →
      (∃ f, (reconcile cfg k).outcome c = .error f) ∧ (reconcile cfg k).after c = c) := by
  have htold : announced c (installation cfg r c).fault = .ok () := announced_of_taken calm.event
  rw [held.outcome_reconcile_of_live live, held.after_reconcile_of_live live, outcome_converge,
    after_converge, htold, ok_bind]
  have hiff : (∃ s, newStatus c r (installation cfg r c).values (installation cfg r c).fault = .ok s) ↔
      Readiness.Judges c r (installation cfg r c).values := newStatus_isOk_iff calm
  cases hs : newStatus c r (installation cfg r c).values (installation cfg r c).fault with
  | error f =>
    have hblind : ¬ Readiness.Judges c r (installation cfg r c).values := fun hjudges => by
      obtain ⟨s, hs'⟩ := hiff.2 hjudges
      cases hs.symm.trans hs'
    have hends := ends_updateStatus_of_error hs
    have hend : (updateStatus r (installation cfg r c).values
        (installation cfg r c).fault).outcome c = .error f := congrArg Prod.fst hends
    have hkept : (updateStatus r (installation cfg r c).values
        (installation cfg r c).fault).after c = c := congrArg Prod.snd hends
    dsimp only
    rw [hend, hkept]
    exact ⟨⟨r.status, held.storedStatus, by simp [hblind]⟩, fun _ => ⟨⟨f, rfl⟩, rfl⟩⟩
  | ok s =>
    have hjudges := hiff.1 ⟨s, hs⟩
    refine ⟨?_, fun hblind => absurd hjudges hblind⟩
    obtain ⟨t, ht, hagrees⟩ := storedStatus_of_updateStatus held hs (.inr calm.status)
    exact ⟨t, ht, fun _ => .inl hjudges, fun _ => records_of_agrees hs hagrees⟩

end Cluster.Holds

namespace Cluster

open Reconcile

/-- nothing disturbs the reconcile of a revision with a version and without values -/
theorem isCalm_versioned : versioned.IsCalm :=
  ⟨rfl, rfl, .inl rfl, .inl rfl, exists_of_isOk (by decide +kernel)⟩

theorem records_versioned :
    ∃ t, ((reconcile .standard .sole).after versioned).storedStatus .sole = .ok t ∧
      t.Records 1 (installation .standard .versioned versioned).fault := by
  have judges : Readiness.Judges versioned .versioned
      (installation .standard .versioned versioned).values :=
    (Readiness.evaluate_isOk isCalm_versioned.deployment.seen_isOk
      isCalm_versioned.daemonSet.seen_isOk).1 (exists_of_isOk (by decide +kernel))
  obtain ⟨⟨t, ht, hiff⟩, -⟩ := holds_versioned.records_iff_judges rfl isCalm_versioned
  exact ⟨t, ht, hiff.2 (.inl judges)⟩

/-- a cluster with one revision, whose name in the values is a number -/
def misnamed : Cluster :=
  sole [] [("version", .text "v1.22"), ("values", .object [("revision", .int 5)])]

/-- the revision that it is -/
def misnamedRevision : Revision :=
  { Revision.versioned with values := .object [("revision", .int 5)] }

/-- Nothing disturbs its reconcile, and what is stored is not for its generation. -/
theorem hides_misnamed :
    misnamed.Holds .sole misnamedRevision ∧ misnamedRevision.isTerminating = false ∧
    misnamed.IsCalm ∧
    ∃ t, ((reconcile .standard .sole).after misnamed).storedStatus .sole = .ok t ∧
      t.generation ≠ misnamedRevision.generation := by
  have held : misnamed.Holds .sole misnamedRevision := ⟨rfl, ⟨_, rfl, rfl⟩, rfl⟩
  obtain ⟨t, ht, hgeneration⟩ :
      ∃ t, ((reconcile .standard .sole).after misnamed).storedStatus .sole = .ok t ∧
        t.generation = 0 := exists_storedStatus (by decide +kernel)
  refine ⟨held, rfl, ⟨rfl, rfl, .inl rfl, .inl rfl, exists_of_isOk (by decide +kernel)⟩, t, ht, ?_⟩
  rw [hgeneration]
  decide

end Cluster

end MeshOperator
