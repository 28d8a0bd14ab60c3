import Mathlib.Data.Set.Defs
import MeshOperator.Proofs.Chart.Quiet
import MeshOperator.Proofs.Reconcile.Recording
import MeshOperator.Reconcile.Handlers

/-!
# The course of a reconcile

A reconcile of a revision that is not being deleted tries to install it, tells of a fault in an event,
updates the status and ends with the fault of the installation, if there was one. A revision without a
version is not tried; its fault is recorded, but not raised.

* `Reconcile.installation`: the values that were tried and the fault that ended the installation.
* `Reconcile.outcome_converge`, `Reconcile.after_converge`: how such a reconcile ends and what it leaves.
* `Reconcile.Reconciles`: a reconcile, or the handler that runs one.
* `Reconcile.Raises`: such a call ends with a fault, or asks for another try because of it.
* `Reconcile.ends_reconcile_of_read`: the same from the key on, once the revision is read.
* `Reconcile.picked_reconcile_of_notes`: what a reconcile does beside noting.
-/

namespace MeshOperator

open Reconcile in
/-- the releases that a revision can have: one for each chart, in its namespace and named for it -/
def Key.releases (k : Key) : Set Chart.Release :=
  {t | t ∈ (cniCharts ++ controlCharts).map (Chart.releaseOf k)}

open Reconcile in
theorem Key.releaseOf_mem {k : Key} {chart : String} (h : chart ∈ cniCharts ++ controlCharts) :
    Chart.releaseOf k chart ∈ k.releases := List.mem_map_of_mem h

namespace Reconcile

variable {cfg : Config} {c : Cluster} {k : Key} {r : Revision}

/-! ### Installing -/

/-- What the installation of a revision comes to. -/
structure Installation where
  values : Values
  fault : Option Fault

/-- the fault of a revision that names no version -/
def noVersion : Fault := .spec "no spec.version set"

/-- The values that a revision is installed with, and the fault that ends the installation: it names no
version, its values cannot be read or overridden, or a chart cannot be installed. -/
def installation (cfg : Config) (r : Revision) (c : Cluster) : Installation :=
  if r.version.truthy then
    match effectiveValues r with
    | .error f => ⟨.empty, some f⟩
    | .ok v =>
      match (installCharts cfg r v).outcome c with
      | .error f => ⟨v, some f⟩
      | .ok () => ⟨v, none⟩
  else ⟨.empty, some noVersion⟩

theorem installation_of_version (h : r.version.truthy = true) :
    installation cfg r c =
      match effectiveValues r with
      | .error f => ⟨.empty, some f⟩
      | .ok v =>
        match (installCharts cfg r v).outcome c with
        | .error f => ⟨v, some f⟩
        | .ok () => ⟨v, none⟩ := by
  unfold installation
  exact if_pos h

theorem installation_of_noVersion (h : ¬ r.version.truthy = true) :
    installation cfg r c = ⟨.empty, some noVersion⟩ := by
  unfold installation
  exact if_neg h

/-- The charts of a revision are installed with a look at the tools only, by runs about the releases that
the revision can have. -/
theorem steady_installCharts {R : Cluster → Cluster → Prop} {p : Entry → Prop}
    (htools : ∀ {c d}, R c d → c.SameTools d) (hpatch : ∀ e : Entry, e.deed = .objectPatch → p e)
    (hremark : ∀ e : Entry, e.isRemark = true → p e)
    (hrun : ∀ run : ToolRun, run.command.target ∈ r.key.releases → p (.tool run)) (cfg : Config)
    (v : Values) : (installCharts cfg r v).Steady R p := by
  have hinstall (charts : List String) (hcharts : charts ⊆ cniCharts ++ controlCharts) :
      (Chart.install cfg v r.version (Chart.ownerOf r) charts).Steady R p := by
    refine Chart.steady_install cfg _ htools hpatch hremark v r.version fun chart hchart run heq => ?_
    refine hrun run ?_
    rw [heq]
    exact Key.releaseOf_mem (hcharts hchart)
  refine (Action.Steady.of _).bind fun wanted => ?_
  dsimp only
  split
  · refine (hinstall _ (List.subset_append_left ..)).bind fun _ => ?_
    exact hinstall _ (List.subset_append_right ..)
  · exact hinstall _ (List.subset_append_right ..)

theorem steady_installPhase {R : Cluster → Cluster → Prop} {p : Entry → Prop}
    (htools : ∀ {c d}, R c d → c.SameTools d) (hpatch : ∀ e : Entry, e.deed = .objectPatch → p e)
    (hremark : ∀ e : Entry, e.isRemark = true → p e)
    (hrun : ∀ run : ToolRun, run.command.target ∈ r.key.releases → p (.tool run)) (cfg : Config) :
    (installPhase cfg r).Steady R p := by
  unfold installPhase
  split
  · exact .pure _
  · refine (Action.Steady.log _ _ _ fun _ => hremark _ rfl).bind fun _ => ?_
    exact (steady_installCharts htools hpatch hremark hrun cfg _).fault?.bind fun _ => .pure _

/-- what becomes of the charts depends on the tools only -/
theorem outcome_installCharts_eq {d : Cluster} (h : c.SameTools d) (cfg : Config) (r : Revision)
    (v : Values) : (installCharts cfg r v).outcome d = (installCharts cfg r v).outcome c :=
  (steady_installCharts (p := fun _ => True) id (fun _ _ => trivial) (fun _ _ => trivial)
    (fun _ _ => trivial) cfg v).outcome_eq h

theorem installation_eq {d : Cluster} (h : c.SameTools d) :
    installation cfg r d = installation cfg r c := by
  unfold installation
  split
  · cases effectiveValues r with
    | error f => rfl
    | ok v =>
      dsimp only
      rw [outcome_installCharts_eq h]
  · rfl

theorem quiet_installPhase (cfg : Config) (r : Revision) : (installPhase cfg r).Quiet :=
  (steady_installPhase (p := fun _ => True) id (fun _ _ => trivial) (fun _ _ => trivial)
    (fun _ _ => trivial) cfg).quiet

theorem makes_installPhase (cfg : Config) (r : Revision) : (installPhase cfg r).Makes Chart.deeds := by
  refine (steady_installPhase id ?_ ?_ ?_ cfg).makes
  · intro e he
    simp [Chart.deeds, he]
  · intro e he
    simp [Chart.deeds, Entry.deed_of_isRemark he]
  · intro run _
    simp [Chart.deeds, Entry.deed]

theorem outcome_installPhase (h : r.version.truthy = true) :
    (installPhase cfg r).outcome c =
      .ok ((installation cfg r c).values, (installation cfg r c).fault) := by
  rw [installation_of_version h, installPhase]
  cases effectiveValues r with
  | error f => rfl
  | ok v =>
    simp only [Action.outcome_bind, Action.outcome_log, Action.after_log, Action.outcome_fault?]
    cases (installCharts cfg r v).outcome c <;> rfl

/-! ### Telling, recording and raising -/

/-- how telling of a fault ends, if there is one -/
def announced (c : Cluster) : Option Fault → Except Fault Unit
  | none => .ok ()
  | some _ => c.eventOutcome

theorem announced_some (f : Fault) : announced c (some f) = c.eventOutcome := rfl

/-- where events are taken, every fault can be told -/
theorem announced_of_taken {failure : Option Fault} (h : c.answer .createEvent = .ok ()) :
    announced c failure = .ok () := by
  cases failure with
  | none => rfl
  | some f => rw [announced_some, Cluster.eventOutcome, h]

/-- the fault that a reconcile ends with once the status is updated: that of the installation, but not
that of a revision without a version -/
def raised (r : Revision) (failure : Option Fault) : Except Fault Unit :=
  match failure with
  | some f => if r.version.truthy then .error f else .ok ()
  | none => .ok ()

theorem raised_of_version (h : r.version.truthy = true) (f : Fault) :
    raised r (some f) = .error f := if_pos h

theorem raised_of_noVersion (h : ¬ r.version.truthy = true) (f : Fault) :
    raised r (some f) = .ok () := if_neg h

theorem ends_refuse :
    (refuse r).ends c =
      match announced c (some noVersion) with
      | .ok () => (updateStatus r .empty (some noVersion)).ends c
      | .error f => (.error f, c) := by
  unfold refuse
  rw [(Action.Quiet.log ..).ends_bind, Action.outcome_log]
  dsimp only
  rw [(Api.quiet_emitEvent _ _ _ _).ends_bind, Api.outcome_emitEvent, announced_some]
  cases c.eventOutcome <;> rfl

/-- the end of a reconcile: the status is updated, and then the fault is raised -/
theorem ends_update_raise {v : Values} {failure : Option Fault} (h : r.version.truthy = true) :
    (do
      updateStatus r v failure
      if let some f := failure then throw f : Action Unit).ends c =
      ((do (updateStatus r v failure).outcome c; raised r failure),
        (updateStatus r v failure).after c) := by
  rw [Action.ends, Action.outcome_bind, Action.after_bind]
  cases failure with
  | none => cases (updateStatus r v none).outcome c <;> rfl
  | some f =>
    rw [raised_of_version h]
    cases (updateStatus r v (some f)).outcome c <;> rfl

theorem ends_installAndRecord (h : r.version.truthy = true) :
    (installAndRecord cfg r).ends c =
      match announced c (installation cfg r c).fault with
      | .ok () =>
        ((do
          (updateStatus r (installation cfg r c).values (installation cfg r c).fault).outcome c
          raised r (installation cfg r c).fault),
        (updateStatus r (installation cfg r c).values (installation cfg r c).fault).after c)
      | .error f => (.error f, c) := by
  unfold installAndRecord
  rw [(quiet_installPhase cfg r).ends_bind, outcome_installPhase h]
  generalize installation cfg r c = i
  obtain ⟨v, _ | f⟩ := i
  · dsimp only
    rw [(Action.Quiet.log ..).ends_bind, Action.outcome_log]
    exact ends_update_raise h
  · dsimp only
    rw [(Api.quiet_emitEvent _ _ _ _).ends_bind, Api.outcome_emitEvent, announced_some]
    cases c.eventOutcome with
    | error e => rfl
    | ok u =>
      dsimp only
      rw [(Action.Quiet.log ..).ends_bind, Action.outcome_log]
      exact ends_update_raise h

/-- A reconcile tells of the fault, updates the status, and then ends as the installation did. It leaves
what the update leaves. -/
theorem ends_converge :
    (converge cfg r).ends c =
      match announced c (installation cfg r c).fault with
      | .ok () =>
        ((do
          (updateStatus r (installation cfg r c).values (installation cfg r c).fault).outcome c
          raised r (installation cfg r c).fault),
        (updateStatus r (installation cfg r c).values (installation cfg r c).fault).after c)
      | .error f => (.error f, c) := by
  unfold converge
  rw [(Action.Quiet.log ..).ends_bind, Action.outcome_log]
  dsimp only
  by_cases h : r.version.truthy = true
  · rw [if_pos h, ends_installAndRecord h]
  · rw [if_neg h, ends_refuse, installation_of_noVersion h, raised_of_noVersion h]
    cases announced c (some noVersion) with
    | error f => rfl
    | ok u =>
      rw [Action.ends]
      cases (updateStatus r Values.empty (some noVersion)).outcome c <;> rfl

theorem outcome_converge :
    (converge cfg r).outcome c = (do
      announced c (installation cfg r c).fault
      (updateStatus r (installation cfg r c).values (installation cfg r c).fault).outcome c
      raised r (installation cfg r c).fault) := by
  refine (congrArg Prod.fst ends_converge).trans ?_
  cases announced c (installation cfg r c).fault <;> rfl

/-- a reconcile that returns told of the fault, updated the status and had nothing to raise -/
theorem outcome_converge_eq_ok :
    (converge cfg r).outcome c = .ok () ↔
      announced c (installation cfg r c).fault = .ok () ∧
      (updateStatus r (installation cfg r c).values (installation cfg r c).fault).outcome c = .ok () ∧
      raised r (installation cfg r c).fault = .ok () := by
  rw [outcome_converge]
  simp only [bind_eq_ok]
  constructor
  · rintro ⟨⟨⟩, htold, ⟨⟩, hdone, hraised⟩
    exact ⟨htold, hdone, hraised⟩
  · rintro ⟨htold, hdone, hraised⟩
    exact ⟨(), htold, (), hdone, hraised⟩

theorem after_converge :
    (converge cfg r).after c =
      match announced c (installation cfg r c).fault with
      | .ok () =>
        (updateStatus r (installation cfg r c).values (installation cfg r c).fault).after c
      | .error _ => c := by
  refine (congrArg Prod.snd ends_converge).trans ?_
  cases announced c (installation cfg r c).fault <;> rfl

/-! ### From the key on -/

/-- a reconcile ends as its attempt does, only the outcome is counted -/
theorem ends_reconcile :
    (reconcile cfg k).ends c =
      ((attempt cfg k).outcome c >>= fun _ => .ok (), (attempt cfg k).after c) := by
  unfold reconcile
  rw [Action.ends, Action.outcome_tryCatch, Action.after_tryCatch, Action.outcome_bind,
    Action.after_bind]
  cases (attempt cfg k).outcome c <;> rfl

/-- a handler ends as its reconcile does, and asks for another try in place of a fault -/
theorem ends_handler (retry : Int) :
    (Handler.revision cfg k retry).ends c =
      (match (reconcile cfg k).outcome c with
        | .ok () => .ok ()
        | .error f => .error (.requeue f (cfg.backoff retry)),
      (reconcile cfg k).after c) := by
  rw [Action.ends, Handler.revision, Action.outcome_tryCatch, Action.after_tryCatch]
  cases (reconcile cfg k).outcome c <;> rfl

/-- A call that reconciles the revision under a key: directly, or as a handler. -/
def Reconciles (cfg : Config) (k : Key) (call : Action Unit) : Prop :=
  call = reconcile cfg k ∨ ∃ retry, call = Handler.revision cfg k retry

/-- A call that reconciles the revision under a key ends with the fault `f`: a reconcile with `f` itself,
and a handler by asking for another try because of it. -/
inductive Raises (cfg : Config) (k : Key) (c : Cluster) (f : Fault) : Action Unit → Prop
  | directly (h : (reconcile cfg k).outcome c = .error f) : Raises cfg k c f (reconcile cfg k)
  | asHandler {retry : Int}
      (h : (Handler.revision cfg k retry).outcome c = .error (.requeue f (cfg.backoff retry))) :
      Raises cfg k c f (Handler.revision cfg k retry)

theorem outcome_handler_eq_error {retry : Int} {f : Fault} :
    (Handler.revision cfg k retry).outcome c = .error (.requeue f (cfg.backoff retry)) ↔
      (reconcile cfg k).outcome c = .error f := by
  have hend : (Handler.revision cfg k retry).outcome c = _ := congrArg Prod.fst (ends_handler retry)
  rw [hend]
  cases (reconcile cfg k).outcome c <;> simp

section

variable {call : Action Unit} (hcall : Reconciles cfg k call)
include hcall

theorem Reconciles.after_eq : call.after c = (reconcile cfg k).after c := by
  obtain rfl | ⟨retry, rfl⟩ := hcall
  · rfl
  · exact congrArg Prod.snd (ends_handler retry)

/-- a handler returns exactly when its reconcile does -/
theorem Reconciles.outcome_eq_ok :
    call.outcome c = .ok () ↔ (reconcile cfg k).outcome c = .ok () := by
  obtain rfl | ⟨retry, rfl⟩ := hcall
  · rfl
  · have hend : (Handler.revision cfg k retry).outcome c = _ := congrArg Prod.fst (ends_handler retry)
    rw [hend]
    cases (reconcile cfg k).outcome c <;> simp

theorem Reconciles.raises {f : Fault} (h : (reconcile cfg k).outcome c = .error f) :
    Raises cfg k c f call := by
  obtain rfl | ⟨retry, rfl⟩ := hcall
  · exact .directly h
  · exact .asHandler (outcome_handler_eq_error.2 h)

end

section

variable {call : Action Unit} {f g : Fault}

theorem Raises.outcome_reconcile (h : Raises cfg k c f call) :
    (reconcile cfg k).outcome c = .error f := by
  cases h with
  | directly h => exact h
  | asHandler h => exact outcome_handler_eq_error.1 h

/-- a call ends with one fault only -/
theorem Raises.unique (hf : Raises cfg k c f call) (hg : Raises cfg k c g call) : f = g := by
  have heq := hf.outcome_reconcile.symm.trans hg.outcome_reconcile
  injection heq

/-- what a call that raises a fault ends with has the sentence of that fault -/
theorem Raises.message_eq (h : Raises cfg k c f call) :
    ∃ g, call.outcome c = .error g ∧ g.message = f.message := by
  cases h with
  | directly h => exact ⟨f, h, rfl⟩
  | asHandler h => exact ⟨_, h, rfl⟩

end

section Read

variable (read : (Api.getRevision k).outcome c = .ok (some r))
include read

theorem ends_attempt_of_read :
    (attempt cfg k).ends c =
      ((if r.isTerminating then finalize cfg r else converge cfg r).outcome c >>= fun _ =>
          .ok .success,
        (if r.isTerminating then finalize cfg r else converge cfg r).after c) := by
  have hend (a : Action Unit) : (do a; return ReconcileResult.success : Action _).ends c =
      (a.outcome c >>= fun _ => .ok .success, a.after c) := by
    rw [Action.ends, Action.outcome_bind, Action.after_bind]
    cases a.outcome c <;> rfl
  rw [attempt, (Api.quiet_getRevision k).ends_bind, read]
  dsimp only
  split
  · exact hend _
  · exact hend _

/-- a revision that is read is taken down if it is being deleted, and installed otherwise -/
theorem ends_reconcile_of_read :
    (reconcile cfg k).ends c =
      (if r.isTerminating then finalize cfg r else converge cfg r).ends c := by
  have hend : (attempt cfg k).outcome c = _ := congrArg Prod.fst (ends_attempt_of_read read)
  have hafter : (attempt cfg k).after c = _ := congrArg Prod.snd (ends_attempt_of_read read)
  rw [ends_reconcile, hend, hafter]
  generalize (if r.isTerminating then finalize cfg r else converge cfg r) = a
  rw [Action.ends]
  cases a.outcome c <;> rfl

theorem outcome_reconcile_of_read :
    (reconcile cfg k).outcome c =
      (if r.isTerminating then finalize cfg r else converge cfg r).outcome c :=
  congrArg Prod.fst (ends_reconcile_of_read read)

end Read

/-! ### What is done from the key on -/

section Notes

variable {R : Cluster → Cluster → Prop} {p : Entry → Prop} (hnote : ∀ e : Entry, e.deed = .note → p e)
include hnote

/-- what is counted of a reconcile -/
theorem steady_counted (result : ReconcileResult) :
    (do Action.count (.reconcile result); Action.count .duration : Action Unit).Steady R p :=
  (Action.Steady.count _ (hnote _ rfl)).bind fun _ => .count _ (hnote _ rfl)

/-- what is noted of a reconcile that failed -/
theorem steady_failed (k : Key) (f : Fault) : (do
    Action.log .error ("IstioRevision reconciliation failed: " ++ f.message)
      (about k none "reconcile" "ReconcileFailed")
    Action.count (.reconcile .error)
    Action.count .duration
    throw f : Action Unit).Steady R p := by
  refine (Action.Steady.log _ _ _ fun _ => hnote _ rfl).bind fun _ => ?_
  refine (Action.Steady.count _ (hnote _ rfl)).bind fun _ => ?_
  exact (Action.Steady.count _ (hnote _ rfl)).bind fun _ => .throw f

end Notes

theorem makes_counted (result : ReconcileResult) :
    (do Action.count (.reconcile result); Action.count .duration : Action Unit).Makes [.note] :=
  (steady_counted (R := Eq) (fun _ he => List.mem_singleton.2 he) result).makes

theorem makes_failed (k : Key) (f : Fault) : (do
    Action.log .error ("IstioRevision reconciliation failed: " ++ f.message)
      (about k none "reconcile" "ReconcileFailed")
    Action.count (.reconcile .error)
    Action.count .duration
    throw f : Action Unit).Makes [.note] :=
  (steady_failed (R := Eq) (fun _ he => List.mem_singleton.2 he) k f).makes

section Picked

variable {p : Entry → Bool}

/-- Notes aside, a reconcile reads the revision, and then does what taking down or installing it does, and
nothing if there is none. -/
theorem picked_reconcile_of_notes (hp : ∀ e : Entry, e.deed ∈ [Deed.note] → p e = false) :
    (reconcile cfg k).picked p c = [.call (.getRevision k.ns k.name)].filter p ++
      match (Api.getRevision k).outcome c with
      | .ok (some r) => (if r.isTerminating then finalize cfg r else converge cfg r).picked p c
      | _ => [] := by
  have hread : (Api.getRevision k).picked p c = [.call (.getRevision k.ns k.name)].filter p := by
    rw [Action.picked, Api.journal_getRevision]
  have hattempt : (reconcile cfg k).picked p c = (attempt cfg k).picked p c := by
    rw [reconcile, Action.picked_tryCatch_of_makes c (makes_failed k) hp]
    exact Action.picked_bind_of_makes c makes_counted hp
  rw [hattempt, attempt, (Api.quiet_getRevision k).picked_bind, hread]
  refine congrArg _ ?_
  cases (Api.getRevision k).outcome c with
  | error f => rfl
  | ok found =>
    cases found with
    | none => exact ((Action.Makes.log ..).bind fun _ => .pure _).picked_eq_nil c hp
    | some r =>
      dsimp only
      split
      · exact Action.picked_bind_of_makes c (fun _ => .pure _) hp
      · exact Action.picked_bind_of_makes c (fun _ => .pure _) hp

/-- Reading a revision and noting how it went aside, a reconcile does what taking down or installing the
revision does, and nothing if there is none. -/
theorem picked_reconcile (hp : ∀ e : Entry, e.deed ∈ [Deed.note, .reading] → p e = false) :
    (reconcile cfg k).picked p c =
      match (Api.getRevision k).outcome c with
      | .ok (some r) => (if r.isTerminating then finalize cfg r else converge cfg r).picked p c
      | _ => [] := by
  have hread : p (.call (.getRevision k.ns k.name)) = false := hp _ (by simp [Entry.deed])
  rw [picked_reconcile_of_notes fun e he => hp e ((by decide : [Deed.note] ⊆ [.note, .reading]) he)]
  simp [hread]

/-- a handler does what its reconcile does, apart from a note -/
theorem Reconciles.picked_eq {call : Action Unit} (hcall : Reconciles cfg k call)
    (hp : ∀ e : Entry, e.deed ∈ [Deed.note] → p e = false) :
    call.picked p c = (reconcile cfg k).picked p c := by
  obtain rfl | ⟨retry, rfl⟩ := hcall
  · rfl
  · exact Action.picked_tryCatch_of_makes c
      (fun f => (Action.Makes.log ..).bind fun _ => .throw _) hp

end Picked

end Reconcile

namespace Cluster.Holds

open Reconcile

variable {cfg : Config} {c : Cluster} {k : Key} {r : Revision} (held : c.Holds k r)
include held

theorem outcome_reconcile :
    (reconcile cfg k).outcome c =
      (if r.isTerminating then finalize cfg r else converge cfg r).outcome c :=
  outcome_reconcile_of_read held.outcome_getRevision

theorem after_reconcile :
    (reconcile cfg k).after c =
      (if r.isTerminating then finalize cfg r else converge cfg r).after c :=
  congrArg Prod.snd (ends_reconcile_of_read held.outcome_getRevision)

theorem outcome_reconcile_of_live (live : r.isTerminating = false) :
    (reconcile cfg k).outcome c = (converge cfg r).outcome c := by
  rw [held.outcome_reconcile, live]
  rfl

theorem after_reconcile_of_live (live : r.isTerminating = false) :
    (reconcile cfg k).after c = (converge cfg r).after c := by
  rw [held.after_reconcile, live]
  rfl

end Cluster.Holds

end MeshOperator
