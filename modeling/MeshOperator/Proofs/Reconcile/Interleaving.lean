import MeshOperator.Proofs.Cluster.Timeline
import MeshOperator.Proofs.Reconcile.Reporting
import MeshOperator.Proofs.Reconcile.Silence

/-!
# A reconcile among other writers

Between reading a revision and writing its status, others may write the revision any number of times. The write
names the version that was read, so that it is taken only where none of them did.

* `Reconcile.Reconciles.journal_begin`: a call begins with reading the revision.
* `Cluster.Holds.eq_statusPatch`: the status that it tries to write.
* `Cluster.Holds.raises_of_untaken`: it ends with a fault where this status is not taken.
* `Reconcile.Lands`: a status is stored in the object that the call read.
* `Reconcile.neverStale`: a status lands, or what stands there stays.
-/

namespace MeshOperator

open Reconcile

variable {cfg : Config} {c : Cluster} {k : Key} {r : Revision} {call : Action Unit}

/-! ### Reading and writing -/

/-- a call begins with reading the revision -/
theorem Reconcile.Reconciles.journal_begin (hcall : Reconciles cfg k call) :
    ∃ rest, call.journal c = .read k :: rest := by
  have hattempt : ∃ rest, (attempt cfg k).journal c = .read k :: rest := by
    rw [attempt, Action.journal_bind, Api.journal_getRevision]
    exact ⟨_, rfl⟩
  have hreconcile : ∃ rest, (reconcile cfg k).journal c = .read k :: rest := by
    obtain ⟨rest, hrest⟩ := hattempt
    have htry : (reconcile cfg k).journal c = _ := Action.journal_tryCatch c _ _
    rw [htry, Action.journal_bind, hrest]
    exact ⟨_, rfl⟩
  obtain rfl | ⟨retry, rfl⟩ := hcall
  · exact hreconcile
  · obtain ⟨rest, hrest⟩ := hreconcile
    have htry : (Handler.revision cfg k retry).journal c = _ := Action.journal_tryCatch c _ _
    rw [htry, hrest]
    exact ⟨_, rfl⟩

/-- the write of a status is for the version of the revision that was read -/
theorem Reconcile.statusPatch_eq (r : Revision) (s : Status) :
    statusPatch r s = .patch r.key r.resourceVersion s.toData := rfl

namespace Cluster.Holds

variable (held : c.Holds k r)
include held

/-- the status that a call tries to write is the new one of the revision that it reads -/
theorem eq_statusPatch (hcall : Reconciles cfg k call) {e : Entry} (he : e ∈ call.statusPatches c) :
    r.isTerminating = false ∧ ∃ s failure v, newStatus c r v failure = .ok s ∧
      e = .patch k r.resourceVersion s.toData ∧
      call.after c = (Api.patchStatus r s.toData).after c := by
  rcases held.isSilent_or_writes hcall with hsilent | ⟨s, hlive, hs, hwrites, hafter⟩
  · rw [hsilent.statusPatches] at he
    cases he
  · rw [hwrites, List.mem_singleton, statusPatch_eq, held.own] at he
    exact ⟨hlive, s, _, _, hs, he, hafter⟩

/-- a call that tries to write a status does so once -/
theorem exists_journal_eq (hcall : Reconciles cfg k call) (tries : call.statusPatches c ≠ []) :
    ∃ es later s, call.journal c = es ++ .patch k r.resourceVersion (Status.toData s) :: later ∧
      ∀ e ∈ es, e.deed ≠ .statusPatch := by
  rcases held.isSilent_or_writes hcall with hsilent | ⟨s, -, -, hwrites, -⟩
  · exact absurd hsilent.statusPatches tries
  · obtain ⟨es, later, hjournal, hothers, -, -⟩ := List.filter_eq_cons_iff.1 hwrites
    rw [statusPatch_eq, held.own] at hjournal
    exact ⟨es, later, s, hjournal, fun e he heq => hothers e he (decide_eq_true heq)⟩

/-- Where the status is not taken that a call tries to write, and there was something to install, the call ends
with a fault: with the refusal, or with that of the installation. -/
theorem raises_of_untaken (hcall : Reconciles cfg k call) (tries : call.statusPatches c ≠ [])
    (live : r.isTerminating = false) (version : r.version.truthy = true)
    (untaken : c.answer .patchStatus ≠ .ok ()) : ∃ f, Raises cfg k c f call := by
  cases hend : (reconcile cfg k).outcome c with
  | error f => exact ⟨f, hcall.raises hend⟩
  | ok u =>
    exfalso
    rw [held.outcome_reconcile_of_live live, outcome_converge_eq_ok] at hend
    obtain ⟨-, hdone, hraised⟩ := hend
    obtain ⟨s, hs, hwritten⟩ := outcome_updateStatus_eq_ok.1 hdone
    rcases hwritten with hsame | htaken
    · have hsettled : IsSettled cfg c r := by
        intro _ s' hs'
        cases hs.symm.trans hs'
        exact hsame
      exact tries (hcall.isSilent (held.isSilent_of_settled live hsettled)).statusPatches
    · rcases (outcome_writeStatus_eq_ok held).1 htaken with htaken | ⟨hfault, -⟩
      · exact untaken htaken
      · exact noVersion_of_raised hraised hfault version

end Cluster.Holds

/-! ### Among other writers -/

namespace Reconcile

open Record (Turns Runs)

variable {xs ys : List Happening} {start met left : Record} {e : Entry}

/-- before a call writes a status, it read the revision -/
theorem exists_read (hcall : Reconciles cfg k call)
    (own : entriesOf (xs ++ .own e :: ys) = call.journal c) (patch : e.deed = .statusPatch) :
    ∃ before since, xs = before ++ .own (.read k) :: since := by
  obtain ⟨rest, hrest⟩ := hcall.journal_begin (c := c)
  rw [hrest, entriesOf_append, entriesOf_cons_own, List.append_eq_cons_iff] at own
  rcases own with ⟨-, hfirst⟩ | ⟨later, hxs, -⟩
  · injection hfirst with hfirst
    rw [hfirst] at patch
    cases patch
  · obtain ⟨before, x, since, hxs, -, hx, -⟩ := List.filterMap_eq_cons_iff.1 hxs
    rw [Happening.own?_eq_some.1 hx] at hxs
    exact ⟨before, since, hxs⟩

/-- The write of a status, which follows the happenings `xs` and turns what stands under the key from `met` into
`left`, lands: nobody else wrote since the call read the revision, so that the write meets the object that was
read and replaces no status but the one in it, and what is stored is a status for the generation of this object.
If the write is answered, this is the status that the call leaves. -/
structure Lands (c : Cluster) (k : Key) (r : Revision) (call : Action Unit) (xs : List Happening)
    (met left : Record) : Prop where
  undisturbed : ∃ before since, xs = before ++ .own (.read k) :: since ∧ Happening.foreign ∉ since
  current : ∃ d, c.revision? k = some d ∧ met.object = some d ∧ Revision.ofData d = .ok r
  stored : ∃ s : Status, left.status? = some s.toData ∧ s.generation = r.generation
  answered : c.answer .patchStatus = .ok () → (call.after c).statusOf? k = left.status?

/-- **No stale status.**  Let others write a revision, or remove it, at any moments of a call that reconciles the
revision and reads it with a version. If the write of a status changes what stands there, or is answered, it
lands. If it is refused, all stays as it stands there, and if there was something to install, the call ends with
a fault, and a handler asks for another try. -/
theorem neverStale (held : c.Holds k r) (versioned : r.resourceVersion.truthy = true)
    (hcall : Reconciles cfg k call) (own : entriesOf (xs ++ .own e :: ys) = call.journal c)
    (patch : e.deed = .statusPatch) (before : Runs c k xs start met) (turn : Turns c k (.own e) met left) :
    (left ≠ met ∨ c.answer .patchStatus = .ok () → Lands c k r call xs met left) ∧
    (c.Refuses .patchStatus → left = met ∧
      (r.version.truthy = true → ∃ f, Raises cfg k c f call)) := by
  have hjournal : e ∈ call.journal c := by
    simp [← own]
  have htries : e ∈ call.statusPatches c := List.mem_filter.2 ⟨hjournal, decide_eq_true patch⟩
  obtain ⟨live, s, failure, v, hs, rfl, hafter⟩ := held.eq_statusPatch hcall htries
  refine ⟨fun hwritten => ?_, fun hrefused => ?_⟩
  · rcases turn.of_patch with ⟨hmeets, hstored, -⟩ | ⟨hkept, huntaken⟩
    · obtain ⟨earlier, since, rfl⟩ := exists_read hcall own patch
      obtain ⟨d, hd, hr⟩ := held.stored
      -- the write is for the version that stood there when the call read
      have hversion := Revision.resourceVersion_of_ofData hr
      rw [hversion] at hmeets versioned
      obtain ⟨hthere, hnone⟩ := before.object_of_read held.answers hd versioned hmeets
      refine ⟨⟨earlier, since, rfl, hnone⟩, ⟨d, hd, hthere, hr⟩,
        ⟨s, hstored, generation_newStatus hs⟩, fun hanswer => ?_⟩
      rw [hafter, Api.after_patchStatus, hanswer, hstored]
      exact held.statusOf?_withStatus _
    · rcases hwritten with hchanged | hanswer
      · exact absurd hkept hchanged
      · exact absurd hanswer huntaken
  · rcases turn.of_patch with ⟨-, -, htaken⟩ | ⟨hkept, huntaken⟩
    · exact absurd hrefused htaken
    · exact ⟨hkept, fun hversion =>
        held.raises_of_untaken hcall (List.ne_nil_of_mem htries) live hversion huntaken⟩

end Reconcile

namespace Cluster

open Record (Turns Runs)

/-- a revision that names a version of the mesh, as an object with a version of its own and maybe a status -/
def guardedObject (version : String) (status : List (String × Data)) : Data :=
  .object ([("metadata", .object [("name", Key.sole.name), ("namespace", Key.sole.ns),
    ("generation", .int 1), ("resourceVersion", .text version)]),
    ("spec", .object [("version", .text "v1.22")])] ++ status)

/-- a cluster with this revision -/
def guarded : Cluster := { bare (.zero false) with revisions := [(.sole, guardedObject "7" [])] }

/-- the same cluster, where another client writes before the operator -/
def overtaken : Cluster :=
  { guarded with troubles := [(.patchStatus, .answer (.int 409) (.text "Conflict") (.text ""))] }

/-- this revision -/
def guardedRevision : Revision := { Revision.versioned with resourceVersion := .text "7" }

/-- what stands under its key at first -/
def guardedRecord : Record := Record.blank.next (some (guardedObject "7" []))

/-- The status lands if nobody else writes after the read; if another client writes before the operator, the call
is to be tried again. -/
theorem neverStale_guarded :
    (∃ xs ys e left, entriesOf (xs ++ .own e :: ys) = (Handler.revision .standard .sole 0).journal guarded ∧
      Runs guarded .sole xs guardedRecord guardedRecord ∧ Turns guarded .sole (.own e) guardedRecord left ∧
      Lands guarded .sole guardedRevision (Handler.revision .standard .sole 0) xs guardedRecord left) ∧
    ∃ xs ys e met, entriesOf (xs ++ .own e :: ys) = (Handler.revision .standard .sole 0).journal overtaken ∧
      Runs overtaken .sole xs guardedRecord met ∧ Turns overtaken .sole (.own e) met met ∧
      Happening.foreign ∈ xs ∧ ∃ f, Raises .standard .sole overtaken f (Handler.revision .standard .sole 0) := by
  have hreconciles : Reconciles .standard .sole (Handler.revision .standard .sole 0) := .inr ⟨0, rfl⟩
  have hfresh (status : List (String × Data)) : (guardedObject "8" status).version ∉ guardedRecord.past := by
    have hversion (version : String) (status : List (String × Data)) :
        (guardedObject version status).version = .text version := rfl
    simp [guardedRecord, Record.next, Record.blank, hversion]
  constructor
  · have held : guarded.Holds .sole guardedRevision := ⟨rfl, ⟨_, rfl, rfl⟩, rfl⟩
    have htries : (Handler.revision .standard .sole 0).statusPatches guarded ≠ [] := by
      rw [← List.isEmpty_eq_false_iff]
      decide +kernel
    obtain ⟨es, later, s, hjournal, hothers⟩ := held.exists_journal_eq hreconciles htries
    have hbefore : Runs guarded .sole (es.map .own) guardedRecord guardedRecord := .passes hothers rfl
    have hturn : Turns guarded .sole (.own (.patch .sole (.text "7") s.toData)) guardedRecord
        (guardedRecord.next (some (guardedObject "8" [("status", s.toData)]))) :=
      .takes ⟨_, rfl, fun _ => rfl⟩ (fun ⟨_, _, h⟩ => by cases h) rfl (hfresh _)
    have hown : entriesOf (es.map .own ++ .own (.patch .sole (.text "7") s.toData) :: later.map .own) =
        (Handler.revision .standard .sole 0).journal guarded := by
      simp [hjournal, guardedRevision]
    exact ⟨_, _, _, _, hown, hbefore, hturn,
      (neverStale held rfl hreconciles hown rfl hbefore hturn).1 (.inl (Record.next_ne _ _))⟩
  · have held : overtaken.Holds .sole guardedRevision := ⟨rfl, ⟨_, rfl, rfl⟩, rfl⟩
    have htries : (Handler.revision .standard .sole 0).statusPatches overtaken ≠ [] := by
      rw [← List.isEmpty_eq_false_iff]
      decide +kernel
    obtain ⟨es, later, s, hjournal, hothers⟩ := held.exists_journal_eq hreconciles htries
    have hrefused : overtaken.Refuses .patchStatus := ⟨.int 409, .text "Conflict", rfl⟩
    have hbefore : Runs overtaken .sole (es.map .own ++ [.foreign]) guardedRecord
        (guardedRecord.next (some (guardedObject "8" []))) := by
      refine Runs.append_iff.2 ⟨guardedRecord, .passes hothers rfl, .cons (.writes _ trivial ?_) (.nil _)⟩
      rintro d ⟨⟩
      exact hfresh []
    have hturn : Turns overtaken .sole (.own (.patch .sole (.text "7") s.toData))
        (guardedRecord.next (some (guardedObject "8" [])))
        (guardedRecord.next (some (guardedObject "8" []))) :=
      .keeps (fun h => by cases h) fun _ => hrefused
    have hown : entriesOf ((es.map .own ++ [.foreign]) ++
        .own (.patch .sole (.text "7") s.toData) :: later.map .own) =
        (Handler.revision .standard .sole 0).journal overtaken := by
      simp [hjournal, guardedRevision]
    exact ⟨_, _, _, _, hown, hbefore, hturn, by simp,
      ((neverStale held rfl hreconciles hown rfl hbefore hturn).2 hrefused).2 (by decide)⟩

end Cluster

end MeshOperator
