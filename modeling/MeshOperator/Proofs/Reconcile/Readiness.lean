import MeshOperator.Proofs.Cluster.Steady
import MeshOperator.Proofs.Revision.StatusUpdate
import MeshOperator.Proofs.Values.Typed

/-!
# The verdict on readiness

* `IsUp`: a workload that is there, is wanted, and has as many parts ready as are wanted.
* `Readiness.verdict`: the condition that follows from the workloads and the values.
* `Readiness.evaluate_eq_ok`: an evaluation that succeeds gives the verdict.
* `Readiness.evaluate_isOk`: when workloads can be read, only a value of a wrong type lets it fail.
-/

namespace MeshOperator

/-- A workload as it is seen: it is there, some of it is wanted, and no less is ready. -/
def IsUp (w : Option (Option Workload)) : Prop :=
  ∃ p n, w = some (some p) ∧ p.wanted = some n ∧ n ≠ 0 ∧ n ≤ p.ready.getD 0

namespace Readiness

theorem gap?_eq_none {absent unwanted unready : String} {w : Option (Option Workload)} :
    gap? absent unwanted unready w = none ↔ IsUp w := by
  rcases w with _ | _ | ⟨_ | n, ready⟩
  · simp [gap?, IsUp]
  · simp [gap?, IsUp, counts]
  · simp [gap?, IsUp, counts]
  · by_cases hn : n = 0
    · simp [gap?, IsUp, counts, hn]
    · by_cases hr : ready.getD 0 < n
      · simp [gap?, IsUp, counts, hn, hr, Int.not_le.2 hr]
      · simp [gap?, IsUp, counts, hn, hr, Int.not_lt.1 hr]

end Readiness

instance (w : Option (Option Workload)) : Decidable (IsUp w) :=
  decidable_of_iff (Readiness.gap? "" "" "" w = none) Readiness.gap?_eq_none

namespace Cluster

/-- the deployment under a key as the API tells of it, none if it is not there -/
def deployment? (c : Cluster) (k : Key) : Option (Option Workload) :=
  (c.seen .readDeployment (find? k c.deployments)).toOption.join

/-- the daemon set under a key as the API tells of it, none if it is not there -/
def daemonSet? (c : Cluster) (k : Key) : Option (Option Workload) :=
  (c.seen .readDaemonSet (find? k c.daemonSets)).toOption.join

end Cluster

namespace Readiness

variable {c : Cluster} {r : Revision} {v : Values} {cond : Condition}

/-- the deployment that decides about a revision -/
def deploymentKey (r : Revision) (v : Values) : Key :=
  ⟨r.ns, .text (Values.deploymentFor (v.textAt Values.revisionPath))⟩

/-- the daemon set that decides about a revision whose node agent is wanted -/
def daemonSetKey (r : Revision) : Key := ⟨r.ns, .text "istio-cni-node"⟩

/-- The condition that follows from the workloads: that of the deployment first, then, if the node
agent is wanted, that of the daemon set. -/
def verdict (c : Cluster) (r : Revision) (v : Values) : Condition :=
  match deploymentGap? (c.deployment? (deploymentKey r v)) with
  | some gap => .notReady "IstiodNotReady" gap
  | none =>
    if v.isTrueAt Values.cniPath then
      match daemonSetGap? (c.daemonSet? (daemonSetKey r)) with
      | some gap => .notReady "CNINotReady" gap
      | none => .ready
    else .ready

theorem quiet_reading (what : String) (k : Key) {a : Action (Option (Option Workload))}
    (ha : a.Quiet) : (reading what k a).Quiet :=
  ha.orRefused fun _ _ => .throw _

theorem steady_reading {R : Cluster → Cluster → Prop} {p : Entry → Prop} (what : String) (k : Key)
    {a : Action (Option (Option Workload))} (ha : a.Steady R p) : (reading what k a).Steady R p :=
  ha.orRefused fun _ _ => .throw _

theorem outcome_reading (what : String) (k : Key) (a : Action (Option (Option Workload))) :
    (reading what k a).outcome c =
      match a.outcome c with
      | .error (.api _ s) =>
        .error (.readiness ("failed to read " ++ what ++ " " ++ k.text ++ ": " ++ s.plainText))
      | x => x := by
  rw [reading, Action.outcome_orRefused]
  cases a.outcome c with
  | ok w => rfl
  | error e => cases e <;> rfl

theorem reading_eq_ok {what : String} {k : Key} {a : Action (Option (Option Workload))}
    {w : Option (Option Workload)} :
    (reading what k a).outcome c = .ok w ↔ a.outcome c = .ok w := by
  rw [outcome_reading]
  split <;> simp_all

@[simp] theorem after_reading_deployment (k : Key) :
    (reading "Deployment" k (Api.readDeployment k)).after c = c :=
  (quiet_reading _ _ (Api.quiet_readDeployment k)).after_eq c

@[simp] theorem after_reading_daemonSet (k : Key) :
    (reading "DaemonSet" k (Api.readDaemonSet k)).after c = c :=
  (quiet_reading _ _ (Api.quiet_readDaemonSet k)).after_eq c

/-- an evaluation that succeeds gives the verdict -/
theorem evaluate_eq_ok (h : (evaluate r v).outcome c = .ok cond) : cond = verdict c r v := by
  simp only [evaluate, Action.outcome_bind_eq_ok, Action.outcome_of, Action.after_of,
    reading_eq_ok, Api.outcome_readDeployment, after_reading_deployment] at h
  obtain ⟨n, hn, w, hw, h⟩ := h
  have hdep : c.deployment? (deploymentKey r v) = w := by
    rw [deploymentKey, ← Values.deploymentName_eq_ok hn, Cluster.deployment?, hw]
    rfl
  unfold verdict
  rw [hdep]
  cases hgap : deploymentGap? w with
  | some gap =>
    simp only [hgap, Action.outcome_pure, Except.ok.injEq] at h
    exact h.symm
  | none =>
    simp only [hgap, Action.outcome_bind_eq_ok, Action.outcome_of, Action.after_of] at h
    obtain ⟨b, hb, h⟩ := h
    rw [← Values.isCniEnabled_eq_ok hb]
    cases b with
    | false => simpa using h.symm
    | true =>
      simp only [if_true, Action.outcome_bind_eq_ok, reading_eq_ok, Api.outcome_readDaemonSet,
        after_reading_daemonSet] at h ⊢
      obtain ⟨w', hw', h⟩ := h
      have hset : c.daemonSet? (daemonSetKey r) = w' := by
        rw [daemonSetKey, Cluster.daemonSet?, hw']
        rfl
      rw [hset]
      cases hgap' : daemonSetGap? w' <;> simpa [hgap'] using h.symm

theorem isStated_verdict : (verdict c r v).IsStated := by
  unfold verdict
  split
  · exact Condition.isStated_notReady _ _
  · split
    · split
      · exact Condition.isStated_notReady _ _
      · exact Condition.isStated_ready
    · exact Condition.isStated_ready

/-- the state of a revision whose installation went well -/
theorem stateOf_verdict :
    stateOf (.reconciled none) (verdict c r v) =
      if ¬ IsUp (c.deployment? (deploymentKey r v)) then .text "IstiodNotReady"
      else if v.isTrueAt Values.cniPath ∧ ¬ IsUp (c.daemonSet? (daemonSetKey r)) then
        .text "CNINotReady"
      else healthy := by
  unfold verdict
  cases hdep : deploymentGap? (c.deployment? (deploymentKey r v)) with
  | some gap =>
    have hdown : ¬ IsUp (c.deployment? (deploymentKey r v)) := fun hup => by
      cases hdep.symm.trans (gap?_eq_none.2 hup)
    rw [if_pos hdown]
    rfl
  | none =>
    rw [if_neg (not_not_intro (gap?_eq_none.1 hdep))]
    cases v.isTrueAt Values.cniPath with
    | false => rfl
    | true =>
      cases hset : daemonSetGap? (c.daemonSet? (daemonSetKey r)) with
      | some gap =>
        have hdown : ¬ IsUp (c.daemonSet? (daemonSetKey r)) := fun hup => by
          cases hset.symm.trans (gap?_eq_none.2 hup)
        have hboth : true = true ∧ ¬ IsUp (c.daemonSet? (daemonSetKey r)) := ⟨rfl, hdown⟩
        rw [if_pos hboth]
        rfl
      | none =>
        have hnot : ¬ (true = true ∧ ¬ IsUp (c.daemonSet? (daemonSetKey r))) :=
          fun h => h.2 (gap?_eq_none.1 hset)
        rw [if_neg hnot]
        rfl

theorem verdict_type : (verdict c r v).type = readyType := by
  unfold verdict
  split
  · rfl
  · split
    · split <;> rfl
    · rfl

/-- The values let readiness be judged: the name of the revision is a text, and, where the deployment
is up and the switch of the node agent is looked at, the switch is a truth value. -/
structure Judges (c : Cluster) (r : Revision) (v : Values) : Prop where
  label : v.Allows Values.revisionPath Item.text?
  switch : IsUp (c.deployment? (deploymentKey r v)) → v.Allows Values.cniPath Item.bool?

/-- when the workloads can be read, only a value of a wrong type lets the evaluation fail -/
theorem evaluate_isOk (hdep : ∀ w : Option (Option Workload), ∃ w', c.seen .readDeployment w = .ok w')
    (hset : ∀ w : Option (Option Workload), ∃ w', c.seen .readDaemonSet w = .ok w') :
    (∃ cond, (evaluate r v).outcome c = .ok cond) ↔ Judges c r v := by
  constructor
  · rintro ⟨cond, h⟩
    simp only [evaluate, Action.outcome_bind_eq_ok, Action.outcome_of, Action.after_of,
      reading_eq_ok, Api.outcome_readDeployment, after_reading_deployment] at h
    obtain ⟨n, hn, w, hw, h⟩ := h
    refine ⟨Values.deploymentName_isOk.1 ⟨n, hn⟩, fun hup => Values.isCniEnabled_isOk.1 ?_⟩
    rw [deploymentKey, ← Values.deploymentName_eq_ok hn, Cluster.deployment?, hw] at hup
    have hgap : deploymentGap? w = none := gap?_eq_none.2 hup
    simp only [hgap, Action.outcome_bind_eq_ok, Action.outcome_of] at h
    obtain ⟨b, hb, -⟩ := h
    exact ⟨b, hb⟩
  · intro h
    obtain ⟨n, hn⟩ := Values.deploymentName_isOk.2 h.label
    obtain ⟨w, hw⟩ := hdep (Cluster.find? ⟨r.ns, .text n⟩ c.deployments)
    simp only [evaluate, Action.outcome_bind_eq_ok, Action.outcome_of, Action.after_of,
      reading_eq_ok, Api.outcome_readDeployment, after_reading_deployment]
    cases hgap : deploymentGap? w with
    | some gap => exact ⟨_, n, hn, w, hw, by rw [hgap]; rfl⟩
    | none =>
      have hup : IsUp (c.deployment? (deploymentKey r v)) := by
        rw [deploymentKey, ← Values.deploymentName_eq_ok hn, Cluster.deployment?, hw]
        exact gap?_eq_none.1 hgap
      obtain ⟨b, hb⟩ := Values.isCniEnabled_isOk.2 (h.switch hup)
      obtain ⟨w', hw'⟩ := hset (Cluster.find? (daemonSetKey r) c.daemonSets)
      have hread : (reading "DaemonSet" (daemonSetKey r) (Api.readDaemonSet (daemonSetKey r))).outcome c
          = .ok w' := reading_eq_ok.2 ((Api.outcome_readDaemonSet c _).trans hw')
      cases b with
      | false => exact ⟨.ready, n, hn, w, hw, by simp [hgap, Action.outcome_bind, hb]⟩
      | true =>
        rw [daemonSetKey] at hread
        cases hgap' : daemonSetGap? w' with
        | some gap =>
          exact ⟨.notReady "CNINotReady" gap, n, hn, w, hw, by
            simp [hgap, Action.outcome_bind, hb, hread, hgap']⟩
        | none =>
          exact ⟨.ready, n, hn, w, hw, by
            simp [hgap, Action.outcome_bind, hb, hread, hgap']⟩

end Readiness

end MeshOperator
