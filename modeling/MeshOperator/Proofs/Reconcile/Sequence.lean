import MeshOperator.Proofs.Chart.Sequence
import MeshOperator.Proofs.Reconcile.Health
import MeshOperator.Proofs.Values.Override

/-!
# The works of a reconcile

A reconcile of a revision that is not being deleted runs the chart tool and patches objects only to
install it. Nothing of the kind is done for a revision whose version is empty or whose values are of no
use; for any other the charts that are wanted are worked on in order, up to the first that fails.

* `Reconcile.writes_converge`: what a reconcile writes beside its installation.
* `Reconcile.works_converge`: the works of a reconcile are those of the installation.
* `Reconcile.IsBarred`: what keeps a revision from being installed before its first chart.
* `Cluster.Holds.works_reconcile`: the works of a reconcile, whatever the cluster is like.
-/

namespace MeshOperator

/-- the deeds that are no works, and that a reconcile does beside them -/
def Deed.idle : List Deed := [.note, .reading, .event, .statusPatch]

namespace Action

variable {α β : Type} {a : Action α} (c : Cluster)

theorem isWork_of_idle (e : Entry) (h : e.deed ∈ Deed.idle) : e.isWork = false := by
  unfold Entry.isWork
  revert h
  cases e.deed <;> decide

theorem Makes.works_idle (h : a.Makes Deed.idle) : a.works c = [] :=
  h.picked_eq_nil c isWork_of_idle

theorem works_bind_idle {f : α → Action β} (hf : ∀ x, (f x).Makes Deed.idle) :
    (a >>= f).works c = a.works c :=
  picked_bind_of_makes c hf isWork_of_idle

theorem works_tryCatch_idle {h : Fault → Action α} (hh : ∀ e, (h e).Makes Deed.idle) :
    (tryCatch a h).works c = a.works c :=
  picked_tryCatch_of_makes c hh isWork_of_idle

theorem works_fault? (a : Action Unit) : a.fault?.works c = a.works c := by
  have hcaught := works_tryCatch_idle (a := do a; return none) c fun f => Makes.pure (some f)
  exact hcaught.trans (works_bind_idle c fun _ => Makes.pure none)

/-- after an action that changes nothing and does no works, only the next one's works count -/
theorem works_bind_of_idle (hquiet : a.Quiet) (hidle : a.Makes Deed.idle) {x : α}
    (hx : a.outcome c = .ok x) (f : α → Action β) : (a >>= f).works c = (f x).works c := by
  rw [hquiet.works_bind, hidle.works_idle, hx]
  rfl

end Action

namespace Reconcile

open MeshOperator.Action (Makes Writes)

variable {cfg : Config} {c : Cluster} {r : Revision} {v : Values} {failure : Option Fault}

/-! ### What is written beside installing -/

theorem writes_writeStatus {p : Entry → Prop} (hlog : ∀ record, p (.log record))
    (hpatch : ∀ e : Entry, e.deed = .statusPatch → p e) (r : Revision) (s : Status)
    (failure : Option Fault) : (writeStatus r s failure).Writes p := by
  have hmono (e : Entry) (he : e.deed ∈ [Deed.statusPatch]) : p e := hpatch e (List.mem_singleton.1 he)
  refine Writes.orRefused ((Api.makes_patchStatus r _).writes.mono hmono) fun code reason => ?_
  refine (Writes.log _ _ _ hlog).bind fun _ => ?_
  split
  · exact .throw _
  · exact .pure _

theorem makes_writeStatus (r : Revision) (s : Status) (failure : Option Fault) :
    (writeStatus r s failure).Makes [.note, .statusPatch] :=
  (writes_writeStatus (fun _ => by simp [Entry.deed]) (fun _ he => by simp [he]) r s failure).makes

section Writes

variable {p : Entry → Prop} (hlog : ∀ record, p (.log record))
variable (hdeed : ∀ e : Entry, e.deed ∈ [Deed.reading, .event, .statusPatch] → p e)
include hlog hdeed

theorem writes_updateStatus (r : Revision) (v : Values) (failure : Option Fault) :
    (updateStatus r v failure).Writes p := by
  have hreading (e : Entry) (he : e.deed ∈ [Deed.reading]) : p e :=
    hdeed e ((by decide : [Deed.reading] ⊆ [Deed.reading, .event, .statusPatch]) he)
  refine ((makes_evaluate r v).writes.mono hreading).bind fun ready => ?_
  refine Writes.cluster.bind fun c => (Writes.of _).bind fun s => ?_
  split
  · exact .pure _
  · exact writes_writeStatus hlog (fun e he => hdeed e (by simp [he])) r s failure

theorem writes_emitEvent (r : Revision) (reason message type : String) :
    (Api.emitEvent r reason message type).Writes p :=
  Api.writes_emitEvent hlog (fun e he => hdeed e (by simp [he])) r reason message type

theorem writes_refuse (r : Revision) : (refuse r).Writes p :=
  (Writes.log _ _ _ hlog).bind fun _ => (writes_emitEvent hlog hdeed ..).bind fun _ =>
    writes_updateStatus hlog hdeed ..

/-- what is done once a fault of the installation was told -/
theorem writes_record (r : Revision) (v : Values) (failure : Option Fault) : (do
    Action.log .info "Reconciliation done. Updating status."
      (aboutRevision r "reconcile" (if failure.isNone then "ReconcileSucceeded" else "InstallFailed"))
    updateStatus r v failure
    if let some f := failure then throw f : Action Unit).Writes p := by
  refine (Writes.log _ _ _ hlog).bind fun _ => (writes_updateStatus hlog hdeed ..).bind fun _ => ?_
  cases failure with
  | none => exact .pure _
  | some f => exact .throw f

/-- a reconcile writes what its installation does, and what is written beside it -/
theorem writes_converge {r : Revision} (hinstall : (installPhase cfg r).Writes p) :
    (converge cfg r).Writes p := by
  refine (Writes.log _ _ _ hlog).bind fun _ => ?_
  split
  · refine hinstall.bind fun tried => ?_
    obtain ⟨v, failure⟩ := tried
    cases failure with
    | none => exact writes_record hlog hdeed r v none
    | some f => exact (writes_emitEvent hlog hdeed ..).bind fun _ => writes_record hlog hdeed r v (some f)
  · exact writes_refuse hlog hdeed r

end Writes

/-! ### Recording does no works -/

theorem deed_idle_log (record : Log.Record) : (Entry.log record).deed ∈ Deed.idle :=
  List.mem_cons_self ..

theorem deed_idle_of_mem (e : Entry) (he : e.deed ∈ [Deed.reading, .event, .statusPatch]) :
    e.deed ∈ Deed.idle :=
  List.mem_cons_of_mem _ (by revert he; cases e.deed <;> decide)

theorem idle_log (l : Log.Level) (m : String) (fs : List (String × Data)) :
    (Action.log l m fs).Makes Deed.idle :=
  Writes.makes (Writes.log l m fs deed_idle_log)

theorem idle_emitEvent (r : Revision) (reason message type : String) :
    (Api.emitEvent r reason message type).Makes Deed.idle :=
  (writes_emitEvent deed_idle_log deed_idle_of_mem r reason message type).makes

theorem idle_refuse (r : Revision) : (refuse r).Makes Deed.idle :=
  (writes_refuse deed_idle_log deed_idle_of_mem r).makes

/-! ### The works of an installation -/

theorem works_installPhase :
    (installPhase cfg r).works c =
      match effectiveValues r with
      | .error _ => []
      | .ok v => (installCharts cfg r v).works c := by
  unfold installPhase
  cases effectiveValues r with
  | error f => rfl
  | ok v =>
    dsimp only
    rw [Action.works_bind_of_idle c (.log ..) (idle_log ..) (Action.outcome_log ..)]
    rw [Action.works_bind_idle c fun _ => Makes.pure _, Action.works_fault?]

theorem idle_record (r : Revision) (v : Values) (failure : Option Fault) : (do
    Action.log .info "Reconciliation done. Updating status."
      (aboutRevision r "reconcile" (if failure.isNone then "ReconcileSucceeded" else "InstallFailed"))
    updateStatus r v failure
    if let some f := failure then throw f : Action Unit).Makes Deed.idle :=
  (writes_record deed_idle_log deed_idle_of_mem r v failure).makes

/-- a reconcile installs, and all else that it does is no work -/
theorem works_converge :
    (converge cfg r).works c = if r.version.truthy then (installPhase cfg r).works c else [] := by
  unfold converge
  rw [Action.works_bind_of_idle c (.log ..) (idle_log ..) (Action.outcome_log ..)]
  by_cases h : r.version.truthy = true
  · rw [if_pos h, if_pos h, installAndRecord]
    refine Action.works_bind_idle c fun tried => ?_
    obtain ⟨v, failure⟩ := tried
    cases failure with
    | none => exact idle_record r v none
    | some f => exact (idle_emitEvent ..).bind fun _ => idle_record r v (some f)
  · rw [if_neg h, if_neg h]
    exact (idle_refuse r).works_idle c

/-! ### The charts of a revision -/

/-- what the charts of a revision are installed with -/
def jobOf (cfg : Config) (r : Revision) (text version : String) (limit : Int) : Chart.Job :=
  ⟨cfg, text, version, limit, Chart.ownerOf r⟩

/-- all charts are installed with the same values, in a row -/
theorem installCharts_eq {text version : String} {cni : Bool} (hversion : r.version = .text version)
    (htext : v.yaml = .ok text) (hcni : v.isCniEnabled = .ok cni) (limit : Int) :
    installCharts cfg r v = (jobOf cfg r text version limit).installEach (wantedCharts cni) := by
  have hinstall (charts : List String) : Chart.install cfg v r.version (Chart.ownerOf r) charts =
      (jobOf cfg r text version limit).installEach charts := by
    rw [Chart.install, htext, hversion]
    rfl
  rw [installCharts, hcni, hinstall, hinstall]
  cases cni with
  | false => rfl
  | true => exact Chart.Job.installEach_append ..

/-! ### Revisions that are not installed -/

/-- What keeps a revision from being installed before its first chart: it names no version, its values
are not those of a mapping, something other than a mapping is where the namespace is to be put, or the
switch of the node agent is no truth value. -/
inductive IsBarred (r : Revision) : Prop where
  | noVersion (h : r.version = .text "")
  | unread {f : Fault} (h : Values.ofRaw r.values = .error f)
  | blocked {v : Values} (h : Values.ofRaw r.values = .ok v)
      (hglobal : ¬ v.Allows "global" v.store.itemEntries?)
  | untyped {v : Values} (h : effectiveValues r = .ok v) (hcni : ¬ v.Allows Values.cniPath Item.bool?)

theorem effectiveValues_isOk_iff {v : Values} (h : Values.ofRaw r.values = .ok v) :
    (∃ w, effectiveValues r = .ok w) ↔ v.Allows "global" v.store.itemEntries? := by
  rw [← Values.override_isOk (Values.isSound_of_ofRaw h) r.ns, effectiveValues, h]
  rfl

theorem works_converge_of_barred (h : IsBarred r) : (converge cfg r).works c = [] := by
  rw [works_converge, works_installPhase]
  cases h with
  | noVersion h =>
    have hempty : ¬ r.version.truthy = true := by
      rw [h]
      decide
    exact if_neg hempty
  | unread h =>
    rw [effectiveValues, h]
    exact ite_self _
  | blocked h hglobal =>
    cases hv : effectiveValues r with
    | error f => exact ite_self _
    | ok w => exact absurd ((effectiveValues_isOk_iff h).1 ⟨w, hv⟩) hglobal
  | untyped h hcni =>
    rw [h]
    dsimp only
    cases hswitch : Values.isCniEnabled _ with
    | ok cni => exact absurd (Values.isCniEnabled_isOk.1 ⟨cni, hswitch⟩) hcni
    | error f =>
      rw [installCharts, hswitch]
      exact ite_self _

/-- any other revision has values, which say whether the node agent is wanted -/
theorem exists_effectiveValues (h : ¬ IsBarred r) :
    ∃ v cni, effectiveValues r = .ok v ∧ v.isCniEnabled = .ok cni := by
  cases hraw : Values.ofRaw r.values with
  | error f => exact absurd (.unread hraw) h
  | ok v =>
    obtain ⟨w, hw⟩ := (effectiveValues_isOk_iff hraw).2
      (Classical.not_not.1 fun hglobal => h (.blocked hraw hglobal))
    obtain ⟨cni, hcni⟩ := Values.isCniEnabled_isOk.2
      (Classical.not_not.1 fun hcni => h (.untyped hw hcni))
    exact ⟨w, cni, hw, hcni⟩

end Reconcile

namespace Cluster.Holds

open Reconcile

variable {cfg : Config} {c : Cluster} {k : Key} {r : Revision}

/-- a reconcile of a revision that is not being deleted does the works of its installation -/
theorem works_reconcile_of_live (held : c.Holds k r) (live : r.isTerminating = false) :
    (reconcile cfg k).works c = (converge cfg r).works c := by
  have hpicked : (reconcile cfg k).works c = _ :=
    picked_reconcile fun e he => Action.isWork_of_idle e ((by decide : [Deed.note, .reading] ⊆ Deed.idle) he)
  rw [hpicked, held.outcome_getRevision]
  dsimp only
  rw [live]
  rfl

/-- **Sequence.**  Nothing is run or patched for a revision that is barred. For any other the charts that
are wanted, those of the node agent first, are worked on in order with the same values, up to the first
that is not deployed; and the installation has no fault exactly if all of them are. -/
theorem sequenced_reconcile (held : c.Holds k r) (live : r.isTerminating = false) {version : String}
    {limit : Int} (named : r.version = .text version)
    (timed : cfg.helmTimeout.toInteger = .ok limit)
    (written : ∀ v, effectiveValues r = .ok v → ∃ text, v.yaml = .ok text) :
    (IsBarred r → (reconcile cfg k).works c = []) ∧
    (¬ IsBarred r → ∃ v text, effectiveValues r = .ok v ∧ v.yaml = .ok text ∧
      (jobOf cfg r text version limit).Sequenced c (wantedCharts (v.isTrueAt Values.cniPath))
        ((reconcile cfg k).works c) ∧
      ((installation cfg r c).fault = none ↔ ∀ chart ∈ wantedCharts (v.isTrueAt Values.cniPath),
        (jobOf cfg r text version limit).IsDeployed c chart)) := by
  rw [held.works_reconcile_of_live live]
  refine ⟨works_converge_of_barred, fun hfree => ?_⟩
  obtain ⟨v, cni, hv, hcni⟩ := exists_effectiveValues hfree
  obtain ⟨text, htext⟩ := written v hv
  have hversion : r.version.truthy = true := by
    rw [named]
    refine decide_eq_true fun hempty => hfree (.noVersion ?_)
    rw [named, hempty]
  have htimed : (jobOf cfg r text version limit).IsTimed := ⟨by
    show orFault .number cfg.helmTimeout.toInteger = .ok limit
    rw [timed]
    rfl⟩
  refine ⟨v, text, hv, htext, ?_, ?_⟩
  · rw [works_converge, if_pos hversion, works_installPhase, hv]
    dsimp only
    rw [installCharts_eq named htext hcni limit, ← Values.isCniEnabled_eq_ok hcni]
    exact Chart.Job.sequenced_installEach c htimed _
  · rw [installation_of_version hversion, hv]
    dsimp only
    rw [installCharts_eq named htext hcni limit, ← Values.isCniEnabled_eq_ok hcni,
      ← Chart.Job.outcome_installEach_eq_ok]
    cases (Chart.Job.installEach _ _).outcome c with
    | error f => simp
    | ok u => simp

end Cluster.Holds

namespace Cluster

open Reconcile

theorem not_isBarred_versioned : ¬ IsBarred .versioned := by
  intro h
  cases h with
  | noVersion h => simp [Revision.versioned] at h
  | unread h => cases h
  | blocked h hglobal =>
    cases h
    refine hglobal fun i hi => ?_
    have habsent : Values.empty.get? "global" = none := by decide
    cases hi.symm.trans habsent
  | untyped h hcni =>
    obtain ⟨cni, hread⟩ : ∃ cni, (effectiveValues .versioned >>= fun v => v.isCniEnabled) = .ok cni :=
      exists_of_isOk (by decide +kernel)
    rw [h] at hread
    exact hcni (Values.isCniEnabled_isOk.1 ⟨cni, hread⟩)

theorem sequenced_versioned :
    ∃ v text, effectiveValues .versioned = .ok v ∧ v.yaml = .ok text ∧
      (jobOf .standard .versioned text "v1.22" 300).Sequenced versioned
        (wantedCharts (v.isTrueAt Values.cniPath)) ((reconcile .standard .sole).works versioned) := by
  have written (v : Values) (hv : effectiveValues .versioned = .ok v) :
      ∃ text, v.yaml = .ok text := by
    obtain ⟨text, htext⟩ : ∃ text, (effectiveValues .versioned >>= fun v => v.yaml) = .ok text :=
      exists_of_isOk (by decide +kernel)
    rw [hv] at htext
    exact ⟨text, htext⟩
  obtain ⟨v, text, hv, htext, hsequenced, -⟩ :=
    (@holds_versioned.sequenced_reconcile .standard _ _ _ rfl "v1.22" 300 rfl (by decide) written).2 not_isBarred_versioned
  exact ⟨v, text, hv, htext, hsequenced⟩

end Cluster

end MeshOperator
