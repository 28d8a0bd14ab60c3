import Mathlib.Data.Option.Basic
import MeshOperator.Proofs.Reconcile.Independence
import MeshOperator.Proofs.Revision.Wording

/-!
# The past of a revision does not matter

What was recorded of a revision before is no input of a reconcile. In clusters that differ at most in the status
of the revision, a call does the same but for the write of a status, and where both bring the status up to date
they tell the same, word for word. Only the times and the conditions of other writers are taken over.

* `Cluster.SameButStatus`: clusters that differ at most in the status of the revision under a key.
* `Entry.isRepeated`: what is done again whatever the status was.
* `Reconcile.Updates`: a call brings the status up to date.
* `Reconcile.levelTriggered`: two calls, in clusters that differ at most in the status.
-/

namespace MeshOperator

/-! ### Objects that differ in one entry -/

/-- The data are mappings that differ at most in what stands under a key, or the same and no mapping. -/
inductive Data.SameBut (key : String) : Data → Data → Prop
  | dict {es fs : List (Data × Data)} (h : ∀ other, other ≠ key → lookup? other fs = lookup? other es) :
    SameBut key (.dict es) (.dict fs)
  | other {d : Data} (h : ∀ es, d ≠ .dict es) : SameBut key d d

namespace Data.SameBut

variable {key : String} {a b d : Data}

theorem refl (key : String) (d : Data) : d.SameBut key d := by
  cases d with
  | dict es => exact .dict fun _ _ => rfl
  | _ => exact .other fun _ h => nomatch h

theorem symm (h : a.SameBut key b) : b.SameBut key a := by
  cases h with
  | dict h => exact .dict fun other hother => (h other hother).symm
  | other h => exact .other h

theorem trans (h : a.SameBut key b) (h' : b.SameBut key d) : a.SameBut key d := by
  cases h with
  | dict h =>
    cases h' with
    | dict h' => exact .dict fun other hother => (h' other hother).trans (h other hother)
    | other h' => exact absurd rfl (h' _)
  | other h => exact h'

theorem withEntry (key : String) (v : Data) (es : List (Data × Data)) :
    (Data.dict es).SameBut key (.dict (Data.withEntry key v es)) :=
  .dict fun _ hother => lookup?_withEntry_of_ne hother v es

end Data.SameBut

/-- an answer that is read on, and then changed -/
theorem map_bind {ε α β γ : Type} (g : β → γ) (x : Except ε α) (f : α → Except ε β) :
    (x >>= f).map g = x >>= fun a => (f a).map g := by
  cases x <;> rfl

/-- only a mapping is read as a revision -/
theorem Revision.ofData_of_not_dict {d : Data} (h : ∀ es, d ≠ .dict es) : Revision.ofData d = .error .lacking := by
  cases d with
  | dict es => exact absurd rfl (h es)
  | _ => rfl

/-- an object with another status is read as the same revision, with that status -/
theorem Revision.ofData_of_sameBut {es fs : List (Data × Data)} {s t : Status}
    (h : ∀ other, other ≠ "status" → Data.lookup? other fs = Data.lookup? other es)
    (hs : Status.ofData ((Data.lookup? "status" es).getD .null) = .ok s)
    (ht : Status.ofData ((Data.lookup? "status" fs).getD .null) = .ok t) :
    Revision.ofData (.dict fs) = (Revision.ofData (.dict es)).map fun r => { r with status := t } := by
  simp only [Revision.ofData, Data.entryOrElse_dict, Data.entry_dict, ok_bind, map_bind,
    h "metadata" (by decide), h "spec" (by decide), hs, ht]
  rfl

namespace Cluster

/-- The clusters differ at most in the status of the revision under a key, and in other revisions. -/
structure SameButStatus (k : Key) (c d : Cluster) : Prop where
  eq : ∃ revisions, d = { c with revisions }
  object : Option.Rel (Data.SameBut "status") (c.revision? k) (d.revision? k)

namespace SameButStatus

variable {c d e : Cluster} {k : Key}

theorem refl (c : Cluster) (k : Key) : c.SameButStatus k c := by
  refine ⟨⟨c.revisions, rfl⟩, ?_⟩
  cases c.revision? k with
  | none => exact .none
  | some a => exact .some (.refl _ a)

theorem symm (h : c.SameButStatus k d) : d.SameButStatus k c := by
  refine ⟨?_, ?_⟩
  · obtain ⟨revisions, rfl⟩ := h.eq
    exact ⟨c.revisions, rfl⟩
  · have hobject := h.object
    generalize c.revision? k = x at hobject ⊢
    generalize d.revision? k = y at hobject ⊢
    cases hobject with
    | none => exact .none
    | some hab => exact .some hab.symm

theorem trans (h : c.SameButStatus k d) (h' : d.SameButStatus k e) : c.SameButStatus k e := by
  refine ⟨?_, ?_⟩
  · obtain ⟨_, rfl⟩ := h.eq
    obtain ⟨revisions, rfl⟩ := h'.eq
    exact ⟨revisions, rfl⟩
  · have hobject := h.object
    have hobject' := h'.object
    generalize c.revision? k = x at hobject ⊢
    generalize d.revision? k = y at hobject hobject'
    generalize e.revision? k = z at hobject' ⊢
    cases hobject with
    | none => exact hobject'
    | some hab =>
      cases hobject' with
      | some hbd => exact .some (hab.trans hbd)

/-- writing the status makes no other difference -/
theorem withStatus (c : Cluster) (k : Key) (s : Data) : c.SameButStatus k (c.withStatus k s) := by
  by_cases hfound : ∃ es, c.revision? k = some (.dict es)
  · obtain ⟨es, hes⟩ := hfound
    refine ⟨⟨_, withStatus_of_dict hes s⟩, ?_⟩
    have hput : (c.withStatus k s).revision? k = some (.dict (Data.withEntry "status" s es)) := by
      rw [withStatus_of_dict hes]
      exact find?_put hes
    rw [hput, hes]
    exact .some (.withEntry "status" s es)
  · rw [withStatus_of_not_dict fun es hes => hfound ⟨es, hes⟩]
    exact .refl c k

variable (h : c.SameButStatus k d)
include h

theorem clock_eq : d.clock = c.clock := by
  obtain ⟨revisions, rfl⟩ := h.eq
  rfl

theorem alike : c.Alike d := by
  obtain ⟨revisions, rfl⟩ := h.eq
  exact ⟨c.clock, revisions, rfl⟩

theorem stamp_eq : Reconcile.stamp d = Reconcile.stamp c := by
  rw [Reconcile.stamp, Reconcile.stamp, h.clock_eq]

/-- where both statuses are read, so is the same revision, with the one or the other, or the same fault -/
theorem outcome_getRevision {s t : Status} (hs : c.storedStatus k = .ok s) (ht : d.storedStatus k = .ok t) :
    (Api.getRevision k).outcome d =
      ((Api.getRevision k).outcome c).map (Option.map fun r => { r with status := t }) := by
  rw [Api.outcome_getRevision, Api.outcome_getRevision, seen, seen, h.alike.answer_eq]
  rw [storedStatus, statusOf?] at hs ht
  have hobject := h.object
  generalize c.revision? k = x at hobject hs ⊢
  generalize d.revision? k = y at hobject ht ⊢
  cases c.answer .getRevision with
  | error f =>
    cases f with
    | api code reason => by_cases hnone : code.same Api.notFound = true <;> simp [hnone, Except.map]
    | _ => rfl
  | ok u =>
    cases hobject with
    | none => rfl
    | some hab =>
      dsimp only
      cases hab with
      | dict hes =>
        rw [Revision.ofData_of_sameBut hes hs ht]
        cases Revision.ofData _ <;> rfl
      | other hnot =>
        rw [Revision.ofData_of_not_dict hnot]
        rfl

/-- what is read there is a revision of the other cluster, with the other status -/
theorem exists_of_getRevision {s t : Status} {r : Revision} (hs : c.storedStatus k = .ok s)
    (ht : d.storedStatus k = .ok t) (hr : (Api.getRevision k).outcome d = .ok (some r)) :
    ∃ r', (Api.getRevision k).outcome c = .ok (some r') ∧ r = { r' with status := t } := by
  rw [h.outcome_getRevision hs ht] at hr
  cases hread : (Api.getRevision k).outcome c with
  | error f =>
    rw [hread] at hr
    cases hr
  | ok found =>
    rw [hread] at hr
    cases found with
    | none => cases hr
    | some r' =>
      cases hr
      exact ⟨r', rfl, rfl⟩

end SameButStatus

end Cluster

/-! ### What is done whatever the status was -/

/-- what a call does again whatever the status was: all but notes and the write of a status -/
def Entry.isRepeated (e : Entry) : Bool := e.deed ∉ [Deed.note, .statusPatch]

theorem Entry.isRepeated_of_mem (e : Entry) (h : e.deed ∈ [Deed.note, .statusPatch]) :
    e.isRepeated = false :=
  decide_eq_false fun hnot => hnot h

theorem Entry.isRepeated_of_note (e : Entry) (h : e.deed ∈ [Deed.note]) : e.isRepeated = false :=
  e.isRepeated_of_mem (List.mem_cons.2 (.inl (List.mem_singleton.1 h)))

/-- what is done in two clusters after the same look at them -/
theorem Action.Steady.picked_bind_eq {α β : Type} {R : Cluster → Cluster → Prop} {q : Entry → Prop}
    {p : Entry → Bool} {c d : Cluster} {a : Action α} {f g : α → Action β} (ha : a.Steady R q)
    (hclock : d.clock = c.clock) (h : R c d) (hfg : ∀ x, (g x).picked p d = (f x).picked p c) :
    (a >>= g).picked p d = (a >>= f).picked p c := by
  have hpicked : a.picked p d = a.picked p c := by
    rw [picked, picked, ha.journal_eq hclock h]
  rw [ha.quiet.picked_bind, ha.quiet.picked_bind, hpicked, ha.outcome_eq h]
  cases a.outcome c with
  | error f => rfl
  | ok x =>
    dsimp only
    rw [hfg]

namespace Reconcile

open MeshOperator.Action (Makes)

variable {cfg : Config} {c d : Cluster} {k : Key} {r : Revision} {v : Values} {failure : Option Fault}
variable {s t : Status} {call : Action Unit}

/-- what an update does beside noting and writing is to look at the workloads -/
theorem picked_updateStatus :
    (updateStatus r v failure).picked Entry.isRepeated c =
      (Readiness.evaluate r v).picked Entry.isRepeated c := by
  refine Action.picked_bind_of_makes c (fun ready => ?_) Entry.isRepeated_of_mem
  refine Makes.cluster.bind fun c => (Makes.of _).bind fun s => ?_
  split
  · exact .pure _
  · exact makes_writeStatus r s failure

/-! ### In clusters that differ in the status -/

section SameButStatus

variable (h : c.SameButStatus k d)
include h

theorem picked_updateStatus_eq :
    (updateStatus { r with status := t } v failure).picked Entry.isRepeated d =
      (updateStatus r v failure).picked Entry.isRepeated c := by
  have hevaluate : (Readiness.evaluate r v).Steady (Cluster.SameButStatus k) fun _ => True :=
    steady_evaluate (fun h => h.alike.sameWorkloads) (fun _ _ => trivial) r v
  rw [picked_updateStatus, picked_updateStatus, Action.picked, Action.picked]
  exact congrArg _ (hevaluate.journal_eq h.clock_eq h)

theorem picked_emitEvent_eq {α : Type} {reason message type : String} {f g : Unit → Action α}
    (hfg : (g ()).picked Entry.isRepeated d = (f ()).picked Entry.isRepeated c) :
    (Api.emitEvent { r with status := t } reason message type >>= g).picked Entry.isRepeated d =
      (Api.emitEvent r reason message type >>= f).picked Entry.isRepeated c := by
  have hevent : (Api.emitEvent r reason message type).Steady (Cluster.SameButStatus k) fun _ => True :=
    Api.steady_emitEvent (fun h => h.alike.answer_eq _) r reason message type
  exact hevent.picked_bind_eq h.clock_eq h fun _ => hfg

theorem picked_log_eq {α : Type} {l : Log.Level} {m : String} {fs : List (String × Data)}
    {f g : Unit → Action α} (hfg : (g ()).picked Entry.isRepeated d = (f ()).picked Entry.isRepeated c) :
    (Action.log l m fs >>= g).picked Entry.isRepeated d =
      (Action.log l m fs >>= f).picked Entry.isRepeated c := by
  have hlog : (Action.log l m fs).Steady (Cluster.SameButStatus k) fun _ => True :=
    .log l m fs fun _ => trivial
  exact hlog.picked_bind_eq h.clock_eq h fun _ => hfg

/-- what is done once a fault of the installation was told -/
theorem picked_record_eq :
    let record (r : Revision) : Action Unit := do
      Action.log .info "Reconciliation done. Updating status."
        (aboutRevision r "reconcile" (if failure.isNone then "ReconcileSucceeded" else "InstallFailed"))
      updateStatus r v failure
      if let some f := failure then throw f
    (record { r with status := t }).picked Entry.isRepeated d =
      (record r).picked Entry.isRepeated c := by
  refine picked_log_eq h ?_
  have hraise (u : Unit) : (do if let some f := failure then throw f : Action Unit).Makes [] := by
    cases failure with
    | none => exact .pure _
    | some f => exact .throw f
  rw [Action.picked_bind_of_makes d hraise fun e he => (nomatch he),
    Action.picked_bind_of_makes c hraise fun e he => (nomatch he)]
  exact picked_updateStatus_eq h

theorem picked_converge_eq :
    (converge cfg { r with status := t }).picked Entry.isRepeated d =
      (converge cfg r).picked Entry.isRepeated c := by
  refine picked_log_eq h ?_
  by_cases hversion : r.version.truthy = true
  · rw [if_pos hversion, if_pos hversion, installAndRecord, installAndRecord]
    have hinstall : (installPhase cfg r).Steady (Cluster.SameButStatus k) fun _ => True :=
      steady_installPhase (fun h => h.alike.sameTools) (fun _ _ => trivial) (fun _ _ => trivial)
        (fun _ _ => trivial) cfg
    refine hinstall.picked_bind_eq h.clock_eq h fun tried => ?_
    obtain ⟨v, failure⟩ := tried
    cases failure with
    | none => exact picked_record_eq h
    | some f => exact picked_emitEvent_eq h (picked_record_eq h)
  · rw [if_neg hversion, if_neg hversion]
    exact picked_log_eq h (picked_emitEvent_eq h (picked_updateStatus_eq h))

theorem picked_finalize_eq :
    (finalize cfg { r with status := t }).picked Entry.isRepeated d =
      (finalize cfg r).picked Entry.isRepeated c := by
  have hfinalize : (finalize cfg r).Steady (Cluster.SameButStatus k) fun _ => True :=
    steady_finalize (fun h => h.alike.sameTools) (fun _ _ => trivial) (fun _ _ => trivial) cfg
  have hsame : finalize cfg { r with status := t } = finalize cfg r := rfl
  rw [hsame, Action.picked, Action.picked, hfinalize.journal_eq h.clock_eq h]

variable (hs : c.storedStatus k = .ok s) (ht : d.storedStatus k = .ok t)
include hs ht

theorem picked_reconcile_eq :
    (reconcile cfg k).picked Entry.isRepeated d = (reconcile cfg k).picked Entry.isRepeated c := by
  rw [picked_reconcile_of_notes Entry.isRepeated_of_note, picked_reconcile_of_notes Entry.isRepeated_of_note,
    h.outcome_getRevision hs ht]
  cases (Api.getRevision k).outcome c with
  | error f => rfl
  | ok found =>
    cases found with
    | none => rfl
    | some r =>
      dsimp only [Except.map, Option.map]
      cases hdying : r.isTerminating with
      | true =>
        have hdying' : ({ r with status := t } : Revision).isTerminating = true := hdying
        rw [hdying', if_pos rfl, if_pos rfl, picked_finalize_eq h]
      | false =>
        have hdying' : ({ r with status := t } : Revision).isTerminating = false := hdying
        rw [hdying', if_neg Bool.false_ne_true, if_neg Bool.false_ne_true, picked_converge_eq h]

end SameButStatus

/-! ### Bringing the status up to date -/

/-- what stands there after an update, if it is the same as before or is taken, tells what it was computed for -/
theorem exists_tells_of_updateStatus (held : c.Holds k r) (hs : newStatus c r v failure = .ok s)
    (hw : s.same r.status = true ∨ c.answer .patchStatus = .ok ()) :
    ∃ t, ((updateStatus r v failure).after c).storedStatus k = .ok t ∧
      t.Tells r.generation (.reconciled (failure.map Fault.message)) (Readiness.verdict c r v) := by
  obtain ⟨now, hcompute⟩ := newStatus_eq_ok hs
  have hreconciled := reconciled_type (failure.map Fault.message)
  by_cases hsame : s.same r.status = true
  · have hafter : (updateStatus r v failure).after c = c :=
      congrArg Prod.snd (ends_updateStatus_of_same hs hsame)
    rw [hafter]
    rw [hcompute] at hsame
    exact ⟨r.status, held.storedStatus, Status.tells_of_same hreconciled Readiness.verdict_type
      (Condition.isStated_reconciled _) Readiness.isStated_verdict hsame⟩
  · have hafter : (updateStatus r v failure).after c = (writeStatus r s failure).after c :=
      congrArg Prod.snd (ends_updateStatus_of_other hs hsame)
    rw [hafter, after_writeStatus, Api.after_patchStatus, hw.resolve_left hsame]
    refine ⟨s, held.storedStatus_withStatus (isPlain_newStatus held.isPlain_status hs), ?_⟩
    rw [hcompute]
    exact Status.tells_compute hreconciled Readiness.verdict_type ..

/-- A call that reconciles the revision `r` under the key brings its status up to date: it computes the status
`s`, and this is the same as what stands there, or is taken. -/
structure Updates (cfg : Config) (k : Key) (c : Cluster) (r : Revision) (s : Status) : Prop where
  held : c.Holds k r
  live : r.isTerminating = false
  told : announced c (installation cfg r c).fault = .ok ()
  computed : newStatus c r (installation cfg r c).values (installation cfg r c).fault = .ok s
  stored : s.same r.status = true ∨ c.answer .patchStatus = .ok ()

/-- where readiness can be judged, the clock shows a time and the status is taken, it is brought up to date -/
theorem exists_updates (held : c.Holds k r) (live : r.isTerminating = false)
    (told : announced c (installation cfg r c).fault = .ok ()) (time : HasTime c)
    (judged : ∃ cond, (Readiness.evaluate r (installation cfg r c).values).outcome c = .ok cond)
    (taken : c.answer .patchStatus = .ok ()) : ∃ s, Updates cfg k c r s := by
  have hnew : ∃ s, newStatus c r (installation cfg r c).values (installation cfg r c).fault = .ok s :=
    newStatus_isOk time judged
  obtain ⟨s, hs⟩ := hnew
  exact ⟨s, held, live, told, hs, .inr taken⟩

namespace Updates

variable (h : Updates cfg k c r s)
include h

/-- the reconcile ends as the installation did -/
theorem outcome_reconcile : (reconcile cfg k).outcome c = raised r (installation cfg r c).fault := by
  have hdone : (updateStatus r (installation cfg r c).values (installation cfg r c).fault).outcome c =
      .ok () := by
    refine outcome_updateStatus_eq_ok.2 ⟨s, h.computed, h.stored.imp id fun htaken => ?_⟩
    exact (outcome_writeStatus_eq_ok h.held).2 (.inl htaken)
  rw [h.held.outcome_reconcile_of_live h.live, outcome_converge, h.told, hdone]
  rfl

theorem exists_tells (hcall : Reconciles cfg k call) :
    ∃ t, (call.after c).storedStatus k = .ok t ∧
      t.Tells r.generation (.reconciled ((installation cfg r c).fault.map Fault.message))
        (Readiness.verdict c r (installation cfg r c).values) := by
  rw [hcall.after_eq, h.held.after_reconcile_of_live h.live, after_converge, h.told]
  exact exists_tells_of_updateStatus h.held h.computed h.stored

end Updates

/-- where its reconcile ends the same, a call does -/
theorem Reconciles.outcome_congr (hcall : Reconciles cfg k call)
    (h : (reconcile cfg k).outcome d = (reconcile cfg k).outcome c) : call.outcome d = call.outcome c := by
  obtain rfl | ⟨retry, rfl⟩ := hcall
  · exact h
  · have hend (c : Cluster) : (Handler.revision cfg k retry).outcome c = _ :=
      congrArg Prod.fst (ends_handler retry)
    rw [hend, hend, h]

/-- a call makes no difference but in the status of its revision -/
theorem Reconciles.sameButStatus (hcall : Reconciles cfg k call)
    (own : ∀ r, (Api.getRevision k).outcome c = .ok (some r) → r.key = k) :
    c.SameButStatus k (call.after c) := by
  let v : Visit k := ⟨cfg, c, call, hcall, own⟩
  rcases v.after_cases with ⟨-, hafter⟩ | ⟨r, s, failure, values, -, held, -, hafter⟩
  · have hleft : call.after c = c := hafter
    rw [hleft]
    exact .refl c k
  · have hleft : call.after c = c.withStatus r.key s.toData := hafter
    rw [hleft, held.own]
    exact .withStatus c k s.toData

/-- **No history.**  Take clusters that differ at most in the status of the revision under a key, where both
statuses can be read, and a call that reconciles this revision. It does the same in both, but for notes and the
write of the status: it runs the chart tool alike, patches and reads the same, and tells the same in events. They
differ at most in this status afterwards. Where the call brings the status up to date in both, it ends the same,
and what stands there tells the same, word for word. -/
theorem levelTriggered (hcall : Reconciles cfg k call)
    (own : ∀ r, (Api.getRevision k).outcome c = .ok (some r) → r.key = k) (h : c.SameButStatus k d)
    (hs : c.storedStatus k = .ok s) (ht : d.storedStatus k = .ok t) :
    call.picked Entry.isRepeated d = call.picked Entry.isRepeated c ∧
    (call.after c).SameButStatus k (call.after d) ∧
    ∀ r r' u u', Updates cfg k c r u → Updates cfg k d r' u' →
      call.outcome d = call.outcome c ∧
      ∃ w w', (call.after c).storedStatus k = .ok w ∧ (call.after d).storedStatus k = .ok w' ∧
        w.AgreesInWords w' := by
  refine ⟨?_, ?_, fun r r' u u' hc hd => ?_⟩
  · rw [hcall.picked_eq Entry.isRepeated_of_note, hcall.picked_eq Entry.isRepeated_of_note]
    exact picked_reconcile_eq h hs ht
  · have own' (r : Revision) (hr : (Api.getRevision k).outcome d = .ok (some r)) : r.key = k := by
      obtain ⟨r', hr', rfl⟩ := h.exists_of_getRevision hs ht hr
      exact own r' hr'
    exact ((hcall.sameButStatus own).symm.trans h).trans (hcall.sameButStatus own')
  · -- the revision that the other cluster gives has another status only
    obtain ⟨_, hr, rfl⟩ := h.exists_of_getRevision hs ht hd.held.outcome_getRevision
    cases hc.held.outcome_getRevision.symm.trans hr
    have hinstallation : installation cfg { r with status := t } d = installation cfg r c :=
      installation_eq h.alike.sameTools
    have hverdict (v : Values) : Readiness.verdict d { r with status := t } v = Readiness.verdict c r v := by
      obtain ⟨revisions, rfl⟩ := h.eq
      rfl
    obtain ⟨w, hw, htells⟩ := hc.exists_tells hcall
    obtain ⟨w', hw', htells'⟩ := hd.exists_tells hcall
    rw [hinstallation, hverdict] at htells'
    refine ⟨hcall.outcome_congr ?_, w, w', hw, hw', ?_⟩
    · rw [hc.outcome_reconcile, hd.outcome_reconcile, hinstallation]
      rfl
    · exact htells.agreesInWords htells' (reconciled_type _) Readiness.verdict_type

end Reconcile

namespace Cluster

open Reconcile

/-- a revision that has no status and one with a cluttered status end up with the same words -/
theorem levelTriggered_cluttered :
    (reconcile .standard .sole).picked Entry.isRepeated cluttered =
      (reconcile .standard .sole).picked Entry.isRepeated versioned ∧
    ∃ w w', ((reconcile .standard .sole).after versioned).storedStatus .sole = .ok w ∧
      ((reconcile .standard .sole).after cluttered).storedStatus .sole = .ok w' ∧ w.AgreesInWords w' := by
  have h : versioned.SameButStatus .sole cluttered := .withStatus _ _ _
  have held : cluttered.Holds .sole _ := ⟨rfl, ⟨_, rfl, rfl⟩, rfl⟩
  obtain ⟨hpicked, -, hup⟩ := levelTriggered (.inl rfl : Reconciles .standard .sole _)
    holds_versioned.own_of_getRevision h holds_versioned.storedStatus held.storedStatus
  refine ⟨hpicked, ?_⟩
  obtain ⟨u, hu⟩ : ∃ u, Updates .standard .sole versioned .versioned u :=
    exists_updates holds_versioned rfl (announced_of_taken rfl) (exists_of_isOk (by decide +kernel))
      (exists_of_isOk (by decide +kernel)) rfl
  obtain ⟨u', hu'⟩ : ∃ u', Updates .standard .sole cluttered _ u' :=
    exists_updates held rfl (announced_of_taken rfl) (exists_of_isOk (by decide +kernel))
      (exists_of_isOk (by decide +kernel)) rfl
  exact (hup _ _ _ _ hu hu').2

end Cluster

end MeshOperator
