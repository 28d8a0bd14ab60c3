import MeshOperator.Proofs.Cluster.Deeds

/-!
# Actions that only look

Most of what the operator does changes nothing in the cluster and depends on a part of it only. Such an
action comes to the same in all clusters that agree about this part: at another time, after the status of a
revision was written, or where other calls of the API fail.

* `Action.Steady`: an action that is put together from deeds of some kind and from looks at what is the same
  in related clusters.
* `Action.Steady.quiet`, `Action.Steady.writes`: it leaves the cluster, and does deeds of that kind only.
* `Action.Steady.outcome_eq`, `Action.Steady.journal_eq`: in related clusters it ends the same, and at the
  same time writes the same.
* `Cluster.SameTools`, `Cluster.SameWorkloads`: clusters that agree about charts, or about workloads.
* `Cluster.Alike`: clusters that differ at most in the clock and in what they hold of revisions.
-/

namespace MeshOperator

/-- An action that changes nothing, writes only entries for which `p` holds, and looks only at what is the
same in clusters that `R` relates. A log record has the time, but the action does not see it. -/
inductive Action.Steady (R : Cluster → Cluster → Prop) (p : Entry → Prop) :
    {α : Type} → Action α → Prop
  | pure {α : Type} (x : α) : Steady R p (Pure.pure x : Action α)
  | throw {α : Type} (e : Fault) : Steady R p (MonadExcept.throw e : Action α)
  | of {α : Type} (r : Except Fault α) : Steady R p (Action.of r)
  | write {e : Entry} (h : p e) : Steady R p (Action.write e)
  | log (l : Log.Level) (m : String) (fs : List (String × Data)) (h : ∀ record, p (.log record)) :
    Steady R p (Action.log l m fs)
  | look {α : Type} {f : Cluster → Action α} (hf : ∀ c, Steady R p (f c))
    (heq : ∀ {c d}, R c d → f d = f c) : Steady R p (Action.cluster >>= f)
  | bind {α β : Type} {a : Action α} {f : α → Action β} (ha : Steady R p a)
    (hf : ∀ x, Steady R p (f x)) : Steady R p (a >>= f)
  | tryCatch {α : Type} {a : Action α} {h : Fault → Action α} (ha : Steady R p a)
    (hh : ∀ e, Steady R p (h e)) : Steady R p (MonadExcept.tryCatch a h)

namespace Action.Steady

variable {α : Type} {R : Cluster → Cluster → Prop} {p : Entry → Prop} {a : Action α} {c d : Cluster}

/-! ### More ways to put actions together -/

theorem count (m : Metric) (h : p (.count m)) : (Action.count m).Steady R p := write h

theorem orRefused {h : Data → Data → Action α} (ha : a.Steady R p)
    (hh : ∀ s r, (h s r).Steady R p) : (a.orRefused h).Steady R p := by
  refine ha.tryCatch fun e => ?_
  split
  · exact hh _ _
  · exact throw _

theorem fault? {a : Action Unit} (ha : a.Steady R p) : a.fault?.Steady R p :=
  (ha.bind fun _ => pure _).tryCatch fun _ => pure _

/-! ### What they do and come to -/

theorem quiet (h : a.Steady R p) : a.Quiet := by
  induction h with
  | pure x => exact .pure x
  | throw e => exact .throw e
  | of r => exact .of r
  | write h => exact .write _
  | log l m fs h => exact .log l m fs
  | look hf heq ih => exact Quiet.cluster.bind ih
  | bind ha hf iha ihf => exact iha.bind ihf
  | tryCatch ha hh iha ihh => exact iha.tryCatch ihh

theorem writes (h : a.Steady R p) : a.Writes p := by
  induction h with
  | pure x => exact .pure x
  | throw e => exact .throw e
  | of r => exact .of r
  | write h => exact .write h
  | log l m fs h => exact Writes.cluster.bind fun _ => .write (h _)
  | look hf heq ih => exact Writes.cluster.bind ih
  | bind ha hf iha ihf => exact iha.bind ihf
  | tryCatch ha hh iha ihh => exact iha.tryCatch ihh

theorem makes {ks : List Deed} (h : a.Steady R (·.deed ∈ ks)) : a.Makes ks := h.writes.makes

/-- in related clusters the action ends the same -/
theorem outcome_eq (h : a.Steady R p) (hcd : R c d) : a.outcome d = a.outcome c := by
  induction h with
  | pure x => rfl
  | throw e => rfl
  | of r => rfl
  | write h => rfl
  | log l m fs h => rfl
  | look hf heq ih =>
    rw [Quiet.cluster.outcome_bind, Quiet.cluster.outcome_bind, outcome_cluster, outcome_cluster,
      ok_bind, ok_bind, heq hcd]
    exact ih c
  | bind ha hf iha ihf =>
    rw [ha.quiet.outcome_bind, ha.quiet.outcome_bind, iha]
    exact congrArg _ (funext ihf)
  | @tryCatch _ a h ha hh iha ihh =>
    rw [ha.quiet.outcome_tryCatch, ha.quiet.outcome_tryCatch, iha]
    cases a.outcome c with
    | ok x => rfl
    | error e => exact ihh e

/-- in related clusters with the same time the action writes the same into the journal -/
theorem journal_eq (h : a.Steady R p) (hclock : d.clock = c.clock) (hcd : R c d) :
    a.journal d = a.journal c := by
  induction h with
  | pure x => rfl
  | throw e => rfl
  | of r => rfl
  | write h => rfl
  | log l m fs h =>
    have hlog (c : Cluster) : (Action.log l m fs).journal c =
        [.log (Log.operatorRecord c.clock l m fs)] := rfl
    rw [hlog, hlog, hclock]
  | look hf heq ih =>
    rw [journal_bind, journal_bind, journal_cluster, journal_cluster, outcome_cluster, outcome_cluster]
    dsimp only
    rw [heq hcd, after_cluster, after_cluster, ih c]
  | @bind _ _ a f ha hf iha ihf =>
    rw [journal_bind, journal_bind, iha, ha.outcome_eq hcd, ha.quiet.after_eq, ha.quiet.after_eq]
    cases a.outcome c with
    | ok x =>
      dsimp only
      rw [ihf x]
    | error e => rfl
  | @tryCatch _ a h ha hh iha ihh =>
    have htry (c : Cluster) : (MonadExcept.tryCatch a h).journal c = _ := journal_tryCatch c a h
    rw [htry, htry, iha, ha.outcome_eq hcd, ha.quiet.after_eq, ha.quiet.after_eq]
    cases a.outcome c with
    | ok x => rfl
    | error e =>
      dsimp only
      rw [ihh e]

end Action.Steady

/-! ### Clusters that agree -/

namespace Cluster

/-- The clusters agree about what work on charts meets: the replies of the chart tool, the charts, the kinds
of objects and how their patches fail. -/
structure SameTools (c d : Cluster) : Prop where
  replies : d.replies = c.replies
  charts : d.charts = c.charts
  kinds : d.kinds = c.kinds
  patchTroubles : d.patchTroubles = c.patchTroubles
  otherTroubles : d.otherTroubles = c.otherTroubles

/-- The clusters agree about workloads, and about how reading them fails. -/
structure SameWorkloads (c d : Cluster) : Prop where
  deployments : d.deployments = c.deployments
  daemonSets : d.daemonSets = c.daemonSets
  readDeployment : d.answer .readDeployment = c.answer .readDeployment
  readDaemonSet : d.answer .readDaemonSet = c.answer .readDaemonSet

variable {c d : Cluster}

theorem SameTools.reply_eq (h : c.SameTools d) (verb release : String) :
    d.reply verb release = c.reply verb release := by
  rw [reply, reply, h.replies]

theorem SameTools.patchTrouble?_eq (h : c.SameTools d) (q : Request) :
    d.patchTrouble? q = c.patchTrouble? q := by
  unfold patchTrouble?
  rw [h.patchTroubles, h.otherTroubles]

theorem SameTools.hasChart_eq (h : c.SameTools d) (path : String) : d.hasChart path = c.hasChart path := by
  rw [hasChart, hasChart, h.charts]

/-- The second cluster differs from the first at most in the clock and in the revisions. -/
def Alike (c d : Cluster) : Prop :=
  ∃ clock revisions, d = { c with clock, revisions }

theorem Alike.refl (c : Cluster) : c.Alike c := ⟨c.clock, c.revisions, rfl⟩

theorem alike_withStatus (c : Cluster) (k : Key) (status : Data) : c.Alike (c.withStatus k status) := by
  unfold withStatus
  split
  · exact ⟨_, _, rfl⟩
  · exact .refl c

/-- the same cluster at another time -/
def atTime (c : Cluster) (clock : Double) : Cluster := { c with clock }

theorem Alike.atTime (h : c.Alike d) (clock : Double) : c.Alike (d.atTime clock) := by
  obtain ⟨_, revisions, rfl⟩ := h
  exact ⟨clock, revisions, rfl⟩

theorem Alike.answer_eq (h : c.Alike d) (o : Operation) : d.answer o = c.answer o := by
  obtain ⟨_, _, rfl⟩ := h
  rfl

theorem Alike.sameTools (h : c.Alike d) : c.SameTools d := by
  obtain ⟨_, _, rfl⟩ := h
  exact ⟨rfl, rfl, rfl, rfl, rfl⟩

theorem Alike.sameWorkloads (h : c.Alike d) : c.SameWorkloads d := by
  obtain ⟨_, _, rfl⟩ := h
  exact ⟨rfl, rfl, rfl, rfl⟩

end Cluster

/-! ### Calls that only look -/

namespace Api

open MeshOperator.Action (Steady)

variable {R : Cluster → Cluster → Prop} {p : Entry → Prop}

theorem steady_call {o : Operation} {q : Request} (h : p (.call q))
    (hanswer : ∀ {c d}, R c d → d.answer o = c.answer o) : (call o q).Steady R p := by
  refine (Steady.write h).bind fun _ => .look (fun _ => .of _) fun hcd => ?_
  rw [hanswer hcd]

theorem steady_found {α : Type} (x : Option α) : (found x).Steady R p := by
  cases x with
  | none => exact .throw _
  | some a => exact .pure a

theorem steady_ifFound {α : Type} {a : Action α} (ha : a.Steady R p) : (ifFound a).Steady R p := by
  refine (ha.bind fun _ => .pure _).orRefused fun s r => ?_
  split
  · exact .pure _
  · exact .throw _

/-- a call that reads what is the same in related clusters -/
theorem steady_reading {α : Type} {o : Operation} {q : Request} {x : Cluster → Option α} (h : p (.call q))
    (hanswer : ∀ {c d}, R c d → d.answer o = c.answer o) (hx : ∀ {c d}, R c d → x d = x c) :
    (ifFound do call o q; found (x (← Action.cluster))).Steady R p := by
  refine steady_ifFound ((steady_call h hanswer).bind fun _ => .look (fun _ => steady_found _) fun hcd => ?_)
  rw [hx hcd]

theorem steady_getRevision (k : Key) (h : ∀ e : Entry, e.deed = .reading → p e)
    (hanswer : ∀ {c d}, R c d → d.answer .getRevision = c.answer .getRevision)
    (hrevision : ∀ {c d}, R c d → d.revision? k = c.revision? k) : (getRevision k).Steady R p := by
  refine (steady_reading (h _ rfl) hanswer hrevision).bind fun x => ?_
  cases x with
  | none => exact .pure _
  | some d => exact (Steady.of _).bind fun _ => .pure _

section

variable (hR : ∀ {c d}, R c d → c.SameWorkloads d) (k : Key) (h : ∀ e : Entry, e.deed = .reading → p e)
include hR h

theorem steady_readDeployment : (readDeployment k).Steady R p := by
  refine steady_reading (h _ rfl) (fun hcd => (hR hcd).readDeployment) fun hcd => ?_
  rw [(hR hcd).deployments]

theorem steady_readDaemonSet : (readDaemonSet k).Steady R p := by
  refine steady_reading (h _ rfl) (fun hcd => (hR hcd).readDaemonSet) fun hcd => ?_
  rw [(hR hcd).daemonSets]

end

theorem steady_patchObject (hR : ∀ {c d}, R c d → c.SameTools d) (apiVersion kind body name ns : Data)
    (h : ∀ e : Entry, e.deed = .objectPatch → p e) :
    (patchObject apiVersion kind body name ns).Steady R p := by
  refine (Steady.write (h _ rfl)).bind fun _ => .look (fun c => ?_) fun hcd => ?_
  · split
    · exact .pure _
    · exact .pure _
    · exact .throw _
  · rw [(hR hcd).patchTrouble?_eq]

end Api

end MeshOperator
