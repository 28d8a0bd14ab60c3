import MeshOperator.Proofs.Reconcile.Matching
import MeshOperator.Proofs.Reconcile.Writes

/-!
# Telling of a fault in an event

A reconcile whose installation failed tells of the fault in an event, before it updates the status. That the
API refuses the event is passed over. An event that is not answered ends the reconcile there: no status is
written, and the fault of the call is raised in place of the one that was to be told.

* `Cluster.SameButEvents`: clusters that differ at most in how events fail.
* `Action.GoesAlike`: an action goes the same in both, notes aside.
* `Reconcile.congruence_sameButEvents`, `Reconcile.Reconciles.goesAlike`: where what is told is answered alike,
  a call goes alike.
* `Reconcile.goesAlike_iff`: how a call depends on the events.
-/

namespace MeshOperator

/-- everything but notes -/
def Entry.isOutward (e : Entry) : Bool := e.deed ≠ .note

namespace Cluster

/-- The clusters differ at most in how telling of something in an event fails. -/
structure SameButEvents (c d : Cluster) : Prop where
  eq : ∃ troubles, d = { c with troubles }
  trouble?_eq : ∀ o, o ≠ .createEvent → d.trouble? o = c.trouble? o

/-- the same cluster, where events fail in some way -/
def withEventTrouble (c : Cluster) (t : Trouble) : Cluster :=
  { c with troubles := (.createEvent, t) :: c.troubles }

theorem sameButEvents_withEventTrouble (c : Cluster) (t : Trouble) :
    c.SameButEvents (c.withEventTrouble t) := by
  refine ⟨⟨_, rfl⟩, fun o ho => ?_⟩
  have hother : (o == Operation.createEvent) = false := by simp [ho]
  rw [trouble?, withEventTrouble, List.lookup_cons, hother]
  rfl

theorem answer_withEventTrouble (c : Cluster) (t : Trouble) :
    (c.withEventTrouble t).answer .createEvent = .error t.fault := rfl

namespace SameButEvents

variable {c d : Cluster} (h : c.SameButEvents d)
include h

theorem answer_eq {o : Operation} (ho : o ≠ .createEvent) : d.answer o = c.answer o := by
  rw [answer, answer, h.trouble?_eq o ho]

theorem revision?_eq (k : Key) : d.revision? k = c.revision? k := by
  obtain ⟨troubles, rfl⟩ := h.eq
  rfl

theorem clock_eq : d.clock = c.clock := by
  obtain ⟨troubles, rfl⟩ := h.eq
  rfl

theorem sameTools : c.SameTools d := by
  obtain ⟨troubles, rfl⟩ := h.eq
  exact ⟨rfl, rfl, rfl, rfl, rfl⟩

theorem sameWorkloads : c.SameWorkloads d := by
  have hdeployment := h.answer_eq (by decide : Operation.readDeployment ≠ .createEvent)
  have hdaemonSet := h.answer_eq (by decide : Operation.readDaemonSet ≠ .createEvent)
  obtain ⟨troubles, rfl⟩ := h.eq
  exact ⟨rfl, rfl, hdeployment, hdaemonSet⟩

theorem withStatus (k : Key) (status : Data) :
    (c.withStatus k status).SameButEvents (d.withStatus k status) := by
  have htroubles (c : Cluster) : (c.withStatus k status).troubles = c.troubles := by
    obtain ⟨_, _, heq⟩ := c.alike_withStatus k status
    rw [heq]
  refine ⟨⟨d.troubles, ?_⟩, fun o ho => ?_⟩
  · obtain ⟨troubles, rfl⟩ := h.eq
    unfold Cluster.withStatus
    have hsame : revision? { c with troubles } k = c.revision? k := rfl
    rw [hsame]
    split <;> rfl
  · rw [trouble?, trouble?, htroubles, htroubles]
    exact h.trouble?_eq o ho

end SameButEvents

end Cluster

open Cluster (SameButEvents)

/-- The action goes the same in both clusters: it ends the same, does the same but for notes, and leaves
clusters that differ at most in how events fail. -/
abbrev Action.GoesAlike {α : Type} (a : Action α) (c d : Cluster) : Prop :=
  Action.Matches SameButEvents Entry.isOutward a a c d

/-! ### Calls of the API -/

theorem Entry.isOutward_note (e : Entry) (h : e.deed ∈ [Deed.note]) : e.isOutward = false := by
  have hdeed := List.mem_singleton.1 h
  simp [Entry.isOutward, hdeed]

namespace Api

/-- an event that is told goes alike if it fails alike -/
theorem goesAlike_emitEvent {c d : Cluster} (h : c.SameButEvents d)
    (hevent : d.eventOutcome = c.eventOutcome) (r : Revision) (reason message type : String) :
    (emitEvent r reason message type).GoesAlike c d := by
  have hpicked (c : Cluster) : (emitEvent r reason message type).picked Entry.isOutward c =
      [.call (.createEvent r.ns (eventBody r reason message type))] := by
    refine Action.picked_tryCatch_of_makes c (fun e => ?_) Entry.isOutward_note
    split
    · exact .log _ _ _
    · exact .throw _
  refine ⟨?_, ?_, ?_⟩
  · rw [outcome_emitEvent, outcome_emitEvent, hevent]
  · rw [hpicked, hpicked]
  · rw [(quiet_emitEvent ..).after_eq, (quiet_emitEvent ..).after_eq]
    exact h

end Api

namespace Reconcile

open MeshOperator.Action (GoesAlike)

variable {cfg : Config} {c d : Cluster} {k : Key} {r : Revision} {call : Action Unit}

/-- a reconcile looks at nothing else that could differ -/
theorem congruence_sameButEvents : Congruence SameButEvents fun _ => True where
  clock h := h.clock_eq
  tools h := h.sameTools
  workloads h := h.sameWorkloads
  getRevision h := h.answer_eq (by decide)
  patchStatus h := h.answer_eq (by decide)
  revision h _ := h.revision?_eq _
  withStatus h _ := h.withStatus _

/-! ### From the key on -/

/-- A call for the key tells of something in an event: it finds a revision that is not being deleted, and
the installation of this has a fault. -/
def Announces (cfg : Config) (k : Key) (c : Cluster) : Prop :=
  ∃ r f, (Api.getRevision k).outcome c = .ok (some r) ∧ r.isTerminating = false ∧
    (installation cfg r c).fault = some f

section

variable (h : c.SameButEvents d)
include h

/-- where what is told is answered alike, a call goes alike -/
theorem Reconciles.goesAlike (hcall : Reconciles cfg k call)
    (htold : Announces cfg k c → d.eventOutcome = c.eventOutcome) : call.GoesAlike c d := by
  refine congruence_sameButEvents.matches_call h trivial (fun _ _ => trivial) ?_ hcall
  intro r f hread hlive hf reason message type
  exact Api.goesAlike_emitEvent h (htold ⟨r, f, hread, hlive, hf⟩) r reason message type

/-- both clusters agree about whether there is something to tell -/
theorem announces_iff : Announces cfg k d ↔ Announces cfg k c := by
  unfold Announces
  simp only [(congruence_sameButEvents.steady_getRevision trivial).outcome_eq h, installation_eq h.sameTools]

end

/-! ### An event that is not answered -/

/-- there the reconcile ends: no status is written, and the fault of the event is raised -/
theorem ends_of_silent {detail : String} (hcall : Reconciles cfg k call) (h : Announces cfg k c)
    (silent : c.answer .createEvent = .error (.connection detail)) :
    Raises cfg k c (.connection detail) call ∧ call.statusPatches c = [] ∧ call.after c = c := by
  obtain ⟨r, f, hread, hlive, hf⟩ := h
  have htold : announced c (installation cfg r c).fault = .error (.connection detail) := by
    rw [hf, announced_some, Cluster.eventOutcome, silent]
  have hreconcile : (reconcile cfg k).ends c = (converge cfg r).ends c := by
    rw [ends_reconcile_of_read hread, hlive]
    rfl
  rw [ends_converge, htold] at hreconcile
  refine ⟨hcall.raises (congrArg Prod.fst hreconcile), ?_, ?_⟩
  · rw [hcall.statusPatches_eq, statusPatches_reconcile, hread]
    dsimp only
    rw [hlive, if_neg Bool.false_ne_true, statusPatches_converge, htold]
  · rw [hcall.after_eq]
    exact congrArg Prod.snd hreconcile

/-- two such ends are not the same if the details are not -/
theorem exists_not_goesAlike (hcall : Reconciles cfg k call) (h : Announces cfg k c) :
    ∃ d, c.SameButEvents d ∧ ¬ call.GoesAlike c d := by
  by_contra hall
  push Not at hall
  have hmessage (detail : String) : ∃ g, call.outcome c = .error g ∧ g.message = detail := by
    have hsame := c.sameButEvents_withEventTrouble (.silence detail)
    obtain ⟨hraises, -, -⟩ := ends_of_silent hcall ((announces_iff hsame).2 h)
      (c.answer_withEventTrouble (.silence detail))
    rw [← (hall _ hsame).outcome_eq]
    exact hraises.message_eq
  obtain ⟨g, hg, hempty⟩ := hmessage ""
  obtain ⟨g', hg', hother⟩ := hmessage "closed"
  cases hg.symm.trans hg'
  exact absurd (hempty.symm.trans hother) (by decide)

/-- **Events.**  Take clusters that differ at most in how events fail. A call goes the same in both, notes
aside, if there is nothing to tell or what is told ends the same in both, as it does where events are taken
or refused. It goes the same in all such clusters exactly if there is nothing to tell: where an event is not
answered, the call ends there with that fault, writes no status and leaves the cluster as it is. -/
theorem goesAlike_iff (hcall : Reconciles cfg k call) :
    (∀ d, c.SameButEvents d → (Announces cfg k c → d.eventOutcome = c.eventOutcome) →
      call.GoesAlike c d) ∧
    ((∀ d, c.SameButEvents d → call.GoesAlike c d) ↔ ¬ Announces cfg k c) ∧
    (Announces cfg k c → ∀ d detail, c.SameButEvents d →
      d.answer .createEvent = .error (.connection detail) →
        Raises cfg k d (.connection detail) call ∧ call.statusPatches d = [] ∧ call.after d = d) := by
  refine ⟨fun d h htold => Reconciles.goesAlike h hcall htold, ⟨?_, ?_⟩, ?_⟩
  · intro hall htells
    obtain ⟨d, h, hnot⟩ := exists_not_goesAlike hcall htells
    exact hnot (hall d h)
  · intro hnone d h
    exact Reconciles.goesAlike h hcall fun htells => absurd htells hnone
  · intro htells d detail h silent
    exact ends_of_silent hcall ((announces_iff h).2 htells) silent

end Reconcile

/-! ### Events that are refused or not answered -/

namespace Cluster

open Reconcile

/-- a cluster with one revision, which names no version -/
def unversioned : Cluster := sole [] []

/-- the same cluster, where events are refused -/
def unheard : Cluster :=
  unversioned.withEventTrouble (.answer (.int 403) (.text "Forbidden") (.text ""))

/-- the same cluster, where events are not answered -/
def unanswered : Cluster := unversioned.withEventTrouble (.silence "Connection reset by peer")

/-- a refused event changes nothing: the status is written, and the handler returns -/
theorem goesAlike_unheard :
    unversioned.SameButEvents unheard ∧
    (Handler.revision .standard .sole 0).GoesAlike unversioned unheard ∧
    (Handler.revision .standard .sole 0).outcome unheard = .ok () := by
  have h : unversioned.SameButEvents unheard := sameButEvents_withEventTrouble _ _
  refine ⟨h, ?_, eq_ok_of_isOk (by decide +kernel)⟩
  exact (goesAlike_iff (.inr ⟨0, rfl⟩)).1 unheard h fun _ => rfl

/-- An event that is not answered changes all: without this the reconcile returns and tries to write a
status, and with it the reconcile raises the fault of the event and tries none. -/
theorem differs_unanswered :
    unversioned.SameButEvents unanswered ∧
    (reconcile .standard .sole).outcome unversioned = .ok () ∧
    (reconcile .standard .sole).statusPatches unversioned ≠ [] ∧
    (∃ f, (reconcile .standard .sole).outcome unanswered = .error f ∧
      f.message = "Connection reset by peer") ∧
    (reconcile .standard .sole).statusPatches unanswered = [] := by
  have hcomplaint : (reconcile .standard .sole).complaint? unanswered =
      some "Connection reset by peer" := by decide +kernel
  have hwrites : ((reconcile .standard .sole).statusPatches unversioned).isEmpty = false := by
    decide +kernel
  have hnone : ((reconcile .standard .sole).statusPatches unanswered).isEmpty = true := by
    decide +kernel
  refine ⟨sameButEvents_withEventTrouble _ _, eq_ok_of_isOk (by decide +kernel), ?_,
    Action.exists_of_complaint? hcomplaint, List.isEmpty_iff.1 hnone⟩
  intro hempty
  rw [hempty] at hwrites
  cases hwrites

end Cluster

end MeshOperator
