import MeshOperator.Proofs.Reconcile.Writes
import MeshOperator.Proofs.Values.Override

/-!
# The deployment that is read for readiness

Readiness is judged with the values of the installation. These are the values of the revision, in its own
namespace, if the installation comes to the charts; they are empty if the revision names no version, or if
its namespace cannot be put into its values. So the deployment that is read is that of the revision in the
first case, and the one without a name in the others.

* `Action.deploymentReads`: the readings of deployments that an action tries.
* `Readiness.deploymentReads_evaluate`: judging readiness reads one deployment.
* `Reconcile.Proceeds`: the installation of a revision comes to the charts.
* `Reconcile.deploymentReads_of_proceeds`, `Reconcile.deploymentReads_of_not_proceeds`: what a call reads.
* `Reconcile.readsOwn_iff`: when this is the deployment of the revision's own control plane.
-/

namespace MeshOperator

/-- a reading of a deployment -/
def Entry.isDeploymentRead : Entry → Bool
  | .call (.readDeployment ..) => true
  | _ => false

/-- the reading of the deployment under a key -/
def Key.deploymentRead (k : Key) : Entry := .call (.readDeployment k.ns k.name)

theorem Entry.isDeploymentRead_of_deed {e : Entry} (h : e.deed ≠ .reading) :
    e.isDeploymentRead = false := by
  cases e with
  | call q =>
    cases q with
    | readDeployment ns name => exact absurd rfl h
    | _ => rfl
  | _ => rfl

/-- the readings of deployments that an action tries -/
def Action.deploymentReads {α : Type} (a : Action α) (c : Cluster) : List Entry :=
  a.picked Entry.isDeploymentRead c

/-! ### The name in the effective values -/

namespace Values

variable {v w : Values} {ns : Data}

theorem text?_rename (f : Nat → Nat) (i : Item) : (i.rename f).text? = i.text? := by
  cases i <;> rfl

/-- the override of the namespace leaves the name of the revision -/
theorem textAt_override (hv : v.IsSound) (hw : v.override ns = .ok w) :
    w.textAt revisionPath = v.textAt revisionPath := by
  have hget := get?_override_of_ne hv hw (show pathKeys revisionPath = [revisionPath] by decide) (by decide)
  rw [textAt, textAt, hget]
  cases v.get? revisionPath with
  | none => rfl
  | some i => simp [text?_rename]

theorem allows_override (hv : v.IsSound) (hw : v.override ns = .ok w)
    (h : v.Allows revisionPath Item.text?) : w.Allows revisionPath Item.text? := by
  have hget := get?_override_of_ne hv hw (show pathKeys revisionPath = [revisionPath] by decide) (by decide)
  intro j hj
  rw [hget] at hj
  obtain ⟨i, hi, rfl⟩ := Option.map_eq_some_iff.1 hj
  rcases h i hi with rfl | htext
  · exact .inl rfl
  · rw [text?_rename]
    exact .inr htext

theorem get?_empty_revisionPath : empty.get? revisionPath = none := by decide

theorem textAt_empty : empty.textAt revisionPath = "" := by
  rw [textAt, get?_empty_revisionPath]
  rfl

theorem allows_empty : empty.Allows revisionPath Item.text? := by
  intro i hi
  rw [get?_empty_revisionPath] at hi
  cases hi

/-- only without a name the deployment is the one without a name -/
theorem deploymentFor_eq_iff {label : String} : deploymentFor label = "istiod" ↔ label = "" := by
  unfold deploymentFor
  split
  · simp_all
  · rename_i hlabel
    refine iff_of_false (fun h => ?_) hlabel
    have hlength := congrArg String.length h
    rw [String.length_append] at hlength
    have hlong : "istiod-".length = 7 := by decide
    have hshort : "istiod".length = 6 := by decide
    omega

end Values

/-! ### Judging readiness -/

namespace Readiness

variable {c : Cluster} {r : Revision} {v : Values}

/-- only of a revision without a name the deployment without a name is its own -/
theorem deploymentRead_eq_nameless_iff :
    Key.deploymentRead ⟨r.ns, .text "istiod"⟩ = (deploymentKey r v).deploymentRead ↔
      v.textAt Values.revisionPath = "" := by
  constructor
  · intro h
    injection h with hrequest
    injection hrequest with _ hname
    injection hname with hscalar
    injection hscalar with hname
    exact Values.deploymentFor_eq_iff.1 hname.symm
  · intro h
    rw [deploymentKey, h]
    rfl

theorem deploymentReads_reading (what : String) (k : Key) (a : Action (Option (Option Workload))) :
    (reading what k a).deploymentReads c = a.deploymentReads c := by
  have htry : (reading what k a).deploymentReads c = a.deploymentReads c ++ _ := Action.picked_tryCatch c _
  rw [htry]
  cases a.outcome c with
  | ok w => exact List.append_nil _
  | error e => cases e <;> exact List.append_nil _

theorem deploymentReads_readDeployment (k : Key) :
    (Api.readDeployment k).deploymentReads c = [k.deploymentRead] := by
  rw [Action.deploymentReads, Action.picked, Api.journal_readDeployment]
  rfl

theorem deploymentReads_readDaemonSet (k : Key) : (Api.readDaemonSet k).deploymentReads c = [] := by
  rw [Action.deploymentReads, Action.picked, Api.journal_readDaemonSet]
  rfl

/-- what follows on the deployment reads no other -/
theorem deploymentReads_daemonSet (r : Revision) (v : Values) : (do
    if ← Action.of v.isCniEnabled then
      let cni : Key := ⟨r.ns, .text "istio-cni-node"⟩
      match daemonSetGap? (← reading "DaemonSet" cni (Api.readDaemonSet cni)) with
      | some gap => return .notReady "CNINotReady" gap
      | none => return .ready
    else return .ready : Action Condition).deploymentReads c = [] := by
  rw [Action.deploymentReads, (Action.Quiet.of _).picked_bind, Action.outcome_of]
  cases v.isCniEnabled with
  | error f => rfl
  | ok wanted =>
    cases wanted with
    | false => rfl
    | true =>
      have hread : (reading "DaemonSet" (daemonSetKey r) (Api.readDaemonSet (daemonSetKey r))).picked
          Entry.isDeploymentRead c = [] :=
        (deploymentReads_reading ..).trans (deploymentReads_readDaemonSet _)
      rw [daemonSetKey] at hread
      dsimp only
      rw [if_pos rfl, Action.picked_bind, hread]
      split
      · split <;> rfl
      · rfl

/-- Where the name of the revision is a text, judging readiness reads the deployment of this name, and no
other. -/
theorem deploymentReads_evaluate (hlabel : v.Allows Values.revisionPath Item.text?) :
    (evaluate r v).deploymentReads c = [(deploymentKey r v).deploymentRead] := by
  obtain ⟨n, hn⟩ := Values.deploymentName_isOk.2 hlabel
  have hread : (reading "Deployment" (deploymentKey r v) (Api.readDeployment (deploymentKey r v))).picked
      Entry.isDeploymentRead c = [(deploymentKey r v).deploymentRead] :=
    (deploymentReads_reading ..).trans (deploymentReads_readDeployment _)
  rw [deploymentKey, ← Values.deploymentName_eq_ok hn] at hread ⊢
  have hname : (Action.of (.ok n)).picked Entry.isDeploymentRead c = [] := rfl
  rw [Action.deploymentReads, evaluate, (Action.Quiet.of _).picked_bind, Action.outcome_of, hn]
  dsimp only
  rw [hname, List.nil_append, (quiet_reading _ _ (Api.quiet_readDeployment _)).picked_bind, hread]
  refine List.append_right_eq_self.2 ?_
  split
  · split
    · rfl
    · exact deploymentReads_daemonSet r v
  · rfl

end Readiness

namespace Reconcile

open MeshOperator.Action (Makes)

variable {cfg : Config} {c : Cluster} {k : Key} {r : Revision} {v : Values} {call : Action Unit}

/-! ### The values of the installation -/

/-- The revision names a version and its namespace can be put into its values `v`, so that its installation
comes to the charts. -/
structure Proceeds (r : Revision) (v : Values) : Prop where
  version : r.version.truthy = true
  mapping : v.Allows "global" v.store.itemEntries?

variable (cfg c) in
/-- an installation that comes to the charts has the revision's own values, in its namespace -/
theorem exists_override_of_proceeds (hvalues : Values.ofRaw r.values = .ok v) (h : Proceeds r v) :
    ∃ w, v.override r.ns = .ok w ∧ (installation cfg r c).values = w := by
  obtain ⟨w, hw⟩ := (Values.override_isOk (Values.isSound_of_ofRaw hvalues) r.ns).2 h.mapping
  refine ⟨w, hw, ?_⟩
  rw [installation_of_version h.version, effectiveValues, hvalues, ok_bind, hw]
  dsimp only
  split <;> rfl

theorem values_of_not_proceeds (hvalues : Values.ofRaw r.values = .ok v) (h : ¬ Proceeds r v) :
    (installation cfg r c).values = .empty := by
  by_cases hversion : r.version.truthy = true
  · rw [installation_of_version hversion, effectiveValues, hvalues, ok_bind]
    cases hw : v.override r.ns with
    | error f => rfl
    | ok w =>
      have hmapping := (Values.override_isOk (Values.isSound_of_ofRaw hvalues) r.ns).1 ⟨w, hw⟩
      exact absurd ⟨hversion, hmapping⟩ h
  · rw [installation_of_noVersion hversion]

/-! ### What a call reads -/

theorem deploymentReads_updateStatus (v : Values) (failure : Option Fault) :
    (updateStatus r v failure).deploymentReads c = (Readiness.evaluate r v).deploymentReads c := by
  have hother (e : Entry) (he : e.deed ∈ [Deed.note, .statusPatch]) : e.isDeploymentRead = false := by
    refine Entry.isDeploymentRead_of_deed fun hreading => ?_
    rw [hreading] at he
    exact absurd he (by decide)
  refine Action.picked_bind_of_makes c (fun ready => ?_) hother
  refine Makes.cluster.bind fun _ => (Makes.of _).bind fun status => ?_
  split
  · exact .pure _
  · have hpatch := (Api.makes_patchStatus r status.toData).mono (by decide : _ ⊆ [Deed.note, .statusPatch])
    refine hpatch.orRefused fun code reason => ?_
    refine ((Makes.log ..).mono (by decide)).bind fun _ => ?_
    split
    · exact .throw _
    · exact .pure _

section Reads

variable (hcall : Reconciles cfg k call) (read : (Api.getRevision k).outcome c = .ok (some r))
variable (live : r.isTerminating = false)
include hcall read live

/-- A call reads the deployments that judging readiness with the values of the installation reads, if it could
tell of the fault, and none otherwise. -/
theorem deploymentReads_of_read :
    call.deploymentReads c =
      match announced c (installation cfg r c).fault with
      | .error _ => []
      | .ok () => (Readiness.evaluate r (installation cfg r c).values).deploymentReads c := by
  have hother (e : Entry) (he : e.deed ∈ Deed.before) : e.isDeploymentRead = false := by
    refine Entry.isDeploymentRead_of_deed fun hreading => ?_
    rw [hreading] at he
    exact absurd he (by decide)
  have hnote (e : Entry) (he : e.deed ∈ [Deed.note]) : e.isDeploymentRead = false :=
    hother e ((by decide : [Deed.note] ⊆ Deed.before) he)
  rw [Action.deploymentReads, hcall.picked_eq hnote, picked_reconcile_of_notes hnote, read]
  dsimp only
  rw [live, if_neg Bool.false_ne_true, picked_converge hother]
  cases announced c (installation cfg r c).fault with
  | error f => rfl
  | ok u => exact deploymentReads_updateStatus _ _

variable (hvalues : Values.ofRaw r.values = .ok v)
variable (told : announced c (installation cfg r c).fault = .ok ())
include hvalues told

theorem deploymentReads_of_proceeds (hlabel : v.Allows Values.revisionPath Item.text?)
    (h : Proceeds r v) : call.deploymentReads c = [(Readiness.deploymentKey r v).deploymentRead] := by
  obtain ⟨w, hw, heq⟩ := exists_override_of_proceeds cfg c hvalues h
  have hv := Values.isSound_of_ofRaw hvalues
  rw [deploymentReads_of_read hcall read live, told, heq]
  dsimp only
  rw [Readiness.deploymentReads_evaluate (Values.allows_override hv hw hlabel), Readiness.deploymentKey,
    Values.textAt_override hv hw, Readiness.deploymentKey]

theorem deploymentReads_of_not_proceeds (h : ¬ Proceeds r v) :
    call.deploymentReads c = [Key.deploymentRead ⟨r.ns, .text "istiod"⟩] := by
  rw [deploymentReads_of_read hcall read live, told, values_of_not_proceeds hvalues h]
  dsimp only
  rw [Readiness.deploymentReads_evaluate Values.allows_empty, Readiness.deploymentKey, Values.textAt_empty]
  rfl

end Reads

/-- **Own control plane.**  Take a revision that is not being deleted and whose values are read, with nothing
but a text for its name. A call reads no deployment if it cannot tell of the fault of the installation.
Otherwise it reads one: that of the revision's own name if the installation comes to the charts, whether or not
they are installed, and the one without a name if not. So it reads the revision's own exactly if the
installation comes to the charts or the revision has no name. -/
theorem readsOwn_iff (hcall : Reconciles cfg k call)
    (read : (Api.getRevision k).outcome c = .ok (some r)) (live : r.isTerminating = false)
    (hvalues : Values.ofRaw r.values = .ok v) (hlabel : v.Allows Values.revisionPath Item.text?) :
    (∀ f, announced c (installation cfg r c).fault = .error f → call.deploymentReads c = []) ∧
    (announced c (installation cfg r c).fault = .ok () →
      (Proceeds r v → call.deploymentReads c = [(Readiness.deploymentKey r v).deploymentRead]) ∧
      (¬ Proceeds r v → call.deploymentReads c = [Key.deploymentRead ⟨r.ns, .text "istiod"⟩]) ∧
      (call.deploymentReads c = [(Readiness.deploymentKey r v).deploymentRead] ↔
        Proceeds r v ∨ v.textAt Values.revisionPath = "")) := by
  refine ⟨fun f hf => ?_, fun told => ?_⟩
  · rw [deploymentReads_of_read hcall read live, hf]
  · have hown := deploymentReads_of_proceeds hcall read live hvalues told hlabel
    have hother := deploymentReads_of_not_proceeds hcall read live hvalues told
    refine ⟨hown, hother, ?_⟩
    by_cases hproceeds : Proceeds r v
    · exact iff_of_true (hown hproceeds) (.inl hproceeds)
    · rw [hother hproceeds, List.singleton_inj, Readiness.deploymentRead_eq_nameless_iff]
      exact ⟨.inr, fun h => h.resolve_left hproceeds⟩

end Reconcile

/-- values that name the revision, and nothing else -/
def Values.canary : Values := .ofEntries [(.text "revision", .text "canary")]

namespace Values

theorem get?_canary : canary.get? revisionPath = some (.scalar (.text "canary")) := by decide +kernel

theorem textAt_canary : canary.textAt revisionPath = "canary" := by
  rw [textAt, get?_canary]
  rfl

theorem allows_canary : canary.Allows revisionPath Item.text? := by
  intro i hi
  cases get?_canary.symm.trans hi
  exact .inr rfl

end Values

/-- a revision that names itself, and no version -/
def Revision.canary : Revision := { sole with values := .object [("revision", .text "canary")] }

namespace Cluster

open Reconcile

/-- a cluster with one revision, which names itself and a version -/
def labelled : Cluster :=
  sole [] [("values", Revision.canary.values), ("version", .text "v1.22")]

/-- the deployment of its own name is read -/
theorem readsOwn_labelled :
    ∃ r, (Api.getRevision .sole).outcome labelled = .ok (some r) ∧
      Values.ofRaw r.values = .ok .canary ∧ Values.canary.textAt Values.revisionPath = "canary" ∧
      (reconcile .standard .sole).deploymentReads labelled =
        [(Readiness.deploymentKey r .canary).deploymentRead] := by
  have held : labelled.Holds .sole { Revision.canary with version := .text "v1.22" } :=
    ⟨rfl, ⟨_, rfl, rfl⟩, rfl⟩
  have hglobal : Values.canary.get? "global" = none := by decide +kernel
  have hproceeds : Proceeds { Revision.canary with version := .text "v1.22" } .canary := by
    refine ⟨rfl, fun i hi => ?_⟩
    cases hglobal.symm.trans hi
  refine ⟨_, held.outcome_getRevision, rfl, Values.textAt_canary, ?_⟩
  exact ((readsOwn_iff (.inl rfl) held.outcome_getRevision rfl rfl Values.allows_canary).2
    (announced_of_taken rfl)).1 hproceeds

/-- a cluster with one revision, which names itself but no version, and with the control plane of another -/
def mistaken : Cluster :=
  { sole [] [("values", Revision.canary.values)] with
    deployments := [(⟨Key.sole.ns, .text "istiod"⟩, some ⟨some 1, some 1⟩)] }

/-- The deployment of the other control plane is read, and what is stored is that the revision is ready, while
its own deployment is not there. -/
theorem misreads_mistaken :
    (Api.getRevision .sole).outcome mistaken = .ok (some .canary) ∧
      Revision.canary.isTerminating = false ∧
      Values.ofRaw Revision.canary.values = .ok .canary ∧
      Values.canary.Allows Values.revisionPath Item.text? ∧
      mistaken.deployment? (Readiness.deploymentKey .canary .canary) = none ∧
      (reconcile .standard .sole).deploymentReads mistaken ≠
        [(Readiness.deploymentKey .canary .canary).deploymentRead] ∧
      ∃ t, ((reconcile .standard .sole).after mistaken).storedStatus .sole = .ok t ∧
        (t.condition readyType).status.same statusTrue = true := by
  have held : mistaken.Holds .sole .canary := ⟨rfl, ⟨_, rfl, rfl⟩, rfl⟩
  have hread : (reconcile .standard .sole).deploymentReads mistaken =
      [Key.deploymentRead ⟨Revision.canary.ns, .text "istiod"⟩] :=
    deploymentReads_of_not_proceeds (.inl rfl) held.outcome_getRevision rfl
      (show Values.ofRaw _ = .ok .canary from rfl) (announced_of_taken rfl)
      fun h => absurd h.version (by decide)
  have hready : (((reconcile .standard .sole).after mistaken).storedStatus .sole).toOption.any
      (fun t => (t.condition readyType).status.same statusTrue) = true := by decide +kernel
  refine ⟨held.outcome_getRevision, rfl, rfl, Values.allows_canary, by decide +kernel, ?_, ?_⟩
  · rw [hread]
    intro h
    have hempty := Readiness.deploymentRead_eq_nameless_iff.1 (List.singleton_inj.1 h)
    exact absurd (Values.textAt_canary.symm.trans hempty) (by decide)
  · cases ht : ((reconcile .standard .sole).after mistaken).storedStatus .sole with
    | error f =>
      rw [ht] at hready
      cases hready
    | ok t =>
      rw [ht] at hready
      exact ⟨t, rfl, hready⟩

end Cluster

end MeshOperator
