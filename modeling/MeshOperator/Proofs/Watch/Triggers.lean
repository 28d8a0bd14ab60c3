import MeshOperator.Proofs.Cluster.Stored
import MeshOperator.Proofs.Cluster.Timeline
import MeshOperator.Reconcile.Handlers

/-!
# Touching the revision of a changed object

A change of a watched object is told to the handler of its kind, and an update of a configuration of validating
webhooks to a second one as well. Together they touch the revision that the object leads to once, and none if it
leads to none or the update is not one to react to.

* `Notification`: what the cluster tells of a change of an object.
* `Notification.journal`: what both handlers do about it.
* `Handler.journal_trigger`, `Handler.ends_trigger`: what touching the revision of an object comes to.
* `WatchedKind.handledOnce`: the revisions that are touched, and what is counted.
-/

namespace MeshOperator

namespace Entry

/-- the key of the revision that an entry touches -/
def touched? : Entry → Option Key
  | .call (.patchRevision ns name _) => some ⟨ns, name⟩
  | _ => none

/-- whether an entry counts `m` -/
def counts (m : Metric) : Entry → Bool
  | .count n => n = m
  | _ => false

/-- log records touch nothing -/
theorem filterMap_touched?_logs (records : List Log.Record) :
    (records.map Entry.log).filterMap touched? = [] := by
  rw [List.filterMap_map]
  exact List.filterMap_eq_nil_iff.2 fun record _ => rfl

end Entry

/-- What the cluster tells of a change: its type and the object, and the object before and after it, from which
it can be told whether the change of a configuration of webhooks is one to react to. -/
structure Notification where
  change : Data
  type : Data
  object : Data
  name : String
  old : Data
  new : Data
  matters : Bool
  typed : change.entry "type" = .ok type
  tells : change.entryOrElse "object" (.dict []) = .ok object
  compared : isWebhookUpdate name old new = .ok matters

namespace Notification

variable (n : Notification) (k : WatchedKind)

/-- an update of a configuration of validating webhooks -/
def IsWebhookUpdate : Prop := k = .validatingWebhooks ∧ n.type.same (.text "MODIFIED") = true

instance : Decidable (n.IsWebhookUpdate k) := inferInstanceAs (Decidable (_ ∧ _))

/-- an update that is not one to react to -/
def IsSuppressed : Prop := n.IsWebhookUpdate k ∧ n.matters = false

instance : Decidable (n.IsSuppressed k) := inferInstanceAs (Decidable (_ ∧ _))

/-- What the operator does about a notification: the handler of the kind is called in the cluster `c`, and the one
for updates of configurations of validating webhooks, if it is such an update, in `d`. -/
def journal (c d : Cluster) : List Entry :=
  (Handler.event k n.change).journal c ++
    if n.IsWebhookUpdate k then (Handler.webhookUpdate n.name n.old n.new n.object).journal d else []

/-- the revision of this key is to be touched: it is no listing, it is to be reacted to, and the object leads there -/
structure LeadsTo (key : Key) : Prop where
  change : n.type.isNull = false
  matters : ¬ n.IsSuppressed k
  owner : k.owner? n.object = .ok (some key)

end Notification

namespace Handler

variable {c : Cluster} {k : WatchedKind} {object : Data} {key : Key}

/-! ### One touch -/

/-- the patch that touches a revision -/
def touchBody (c : Cluster) : Data :=
  .object [("metadata", .object [("annotations", .object [(Api.triggerMark, .text c.clock.message)])])]

/-- the call that touches a revision, which must be there -/
def touchCall (body : Data) (key : Key) : Action Unit := do
  Api.call .patchRevision (.patchRevision key.ns key.name body)
  let _ ← Api.found ((← Action.cluster).revision? key)

theorem touchRevision_eq (key : Key) : Api.touchRevision key = (do
    let done ← Api.ifFound (touchCall (touchBody (← Action.cluster)) key)
    return done.isSome) := rfl

theorem journal_touchCall (body : Data) (key : Key) (c : Cluster) :
    (touchCall body key).journal c = [.call (.patchRevision key.ns key.name body)] := by
  rw [touchCall, Action.journal_bind, Api.journal_call]
  cases (Api.call .patchRevision _).outcome c with
  | error f => rfl
  | ok u =>
    dsimp only
    rw [Action.journal_bind, Action.journal_cluster, Action.outcome_cluster]
    dsimp only
    rw [Action.journal_bind, Api.journal_found]
    cases (Api.found _).outcome _ <;> rfl

/-- a touch writes that it was tried, and nothing else -/
theorem journal_touchRevision (key : Key) (c : Cluster) :
    (Api.touchRevision key).journal c = [.call (.patchRevision key.ns key.name (touchBody c))] := by
  rw [touchRevision_eq, Action.journal_bind, Action.journal_cluster, Action.outcome_cluster]
  dsimp only
  rw [Action.journal_bind, Api.journal_ifFound, Action.after_cluster, journal_touchCall]
  cases (Api.ifFound _).outcome c <;> rfl

theorem outcome_touchCall (body : Data) (key : Key) (c : Cluster) :
    (touchCall body key).outcome c =
      match c.answer .patchRevision with
      | .ok () => if (c.revision? key).isSome then .ok () else .error Api.notFoundFault
      | .error f => .error f := by
  rw [touchCall, Action.outcome_bind, Api.outcome_call, (Api.quiet_call ..).after_eq]
  cases c.answer .patchRevision with
  | error f => rfl
  | ok u =>
    dsimp only
    rw [Action.outcome_bind, Action.outcome_cluster, Action.after_cluster]
    dsimp only
    cases c.revision? key <;> rfl

/-- a touch that is answered ends well, or is refused -/
theorem answered_touchRevision (key : Key)
    (h : c.answer .patchRevision = .ok () ∨ c.Refuses .patchRevision) :
    (∃ there, (Api.touchRevision key).outcome c = .ok there) ∨
      ∃ code reason, (Api.touchRevision key).outcome c = .error (.api code reason) := by
  have hcall (body : Data) : (touchCall body key).outcome c = .ok () ∨
      ∃ code reason, (touchCall body key).outcome c = .error (.api code reason) := by
    rw [outcome_touchCall]
    rcases h with h | ⟨code, reason, h⟩
    · rw [h]
      dsimp only
      split
      · exact .inl rfl
      · exact .inr ⟨_, _, rfl⟩
    · rw [h]
      exact .inr ⟨code, reason, rfl⟩
  rw [touchRevision_eq, Action.outcome_bind, Action.outcome_cluster, Action.after_cluster]
  dsimp only
  rw [Action.outcome_bind, Api.outcome_ifFound]
  rcases hcall (touchBody c) with hend | ⟨code, reason, hend⟩
  · rw [hend]
    exact .inl ⟨true, rfl⟩
  · rw [hend]
    dsimp only
    cases code.same Api.notFound with
    | true => exact .inl ⟨false, rfl⟩
    | false => exact .inr ⟨code, reason, rfl⟩

/-! ### The revision of an object -/

theorem journal_orRefused {α : Type} (a : Action α) (f : Data → Data → Action α) (c : Cluster) :
    (a.orRefused f).journal c = a.journal c ++
      match a.outcome c with
      | .error (.api code reason) => (f code reason).journal (a.after c)
      | _ => [] := by
  rw [Action.orRefused, Action.journal_tryCatch]
  cases a.outcome c with
  | ok x => rfl
  | error e => cases e <;> rfl

/-- what is done about an object that leads to a revision: the touch is counted, tried, and noted if it is refused -/
theorem journal_trigger (h : k.owner? object = .ok (some key)) (c : Cluster) :
    ∃ records : List Log.Record, (trigger k object).journal c =
      .count (.trigger k.kind) :: .call (.patchRevision key.ns key.name (touchBody c)) ::
        records.map Entry.log := by
  have htouch : (do let _ ← Api.touchRevision key : Action Unit).journal c =
      [.call (.patchRevision key.ns key.name (touchBody c))] := by
    rw [Action.journal_bind, journal_touchRevision]
    cases (Api.touchRevision key).outcome c <;> rfl
  rw [trigger, Action.journal_bind, Action.journal_of, Action.outcome_of, h]
  dsimp only
  rw [Action.journal_bind, Action.outcome_count, Action.count, Action.journal_write]
  dsimp only
  rw [journal_orRefused, Action.after_of, Action.after_write, htouch]
  cases (do let _ ← Api.touchRevision key : Action Unit).outcome c with
  | ok u => exact ⟨[], rfl⟩
  | error f =>
    cases f with
    | api code reason => exact ⟨[_], rfl⟩
    | _ => exact ⟨[], rfl⟩

/-- nothing is done about an object that leads to no revision -/
theorem journal_trigger_of_none (h : ∀ key, k.owner? object ≠ .ok (some key)) (c : Cluster) :
    (trigger k object).journal c = [] := by
  rw [trigger, Action.journal_bind, Action.journal_of, Action.outcome_of]
  cases howner : k.owner? object with
  | error f => rfl
  | ok found =>
    cases found with
    | none => rfl
    | some key => exact absurd howner (h key)

/-- where it can be told which revision an object leads to, a refused touch is no fault -/
theorem outcome_trigger (howner : ∃ found, k.owner? object = .ok found)
    (h : c.answer .patchRevision = .ok () ∨ c.Refuses .patchRevision) :
    (trigger k object).outcome c = .ok () := by
  obtain ⟨found, hfound⟩ := howner
  rw [trigger, Action.outcome_bind, Action.outcome_of, hfound, Action.after_of]
  cases found with
  | none => rfl
  | some key =>
    dsimp only
    rw [Action.outcome_bind, Action.outcome_count, Action.after_count]
    dsimp only
    rw [Action.outcome_orRefused, Action.outcome_bind]
    rcases answered_touchRevision key h with ⟨there, hend⟩ | ⟨code, reason, hend⟩
    · rw [hend]
      rfl
    · rw [hend]
      rfl

/-! ### The handlers -/

/-- a change is passed on unless it is a listing or an update for the second handler -/
theorem journal_event (n : Notification) (k : WatchedKind) (c : Cluster) :
    (event k n.change).journal c =
      if isFollowed k n.type then (trigger k n.object).journal c else [] := by
  rw [event, Action.journal_bind, Action.journal_of, Action.outcome_of, n.typed, Action.after_of]
  dsimp only
  rw [apply_ite (Action.journal · c), Action.journal_bind, Action.journal_of, Action.outcome_of, n.tells]
  rfl

theorem outcome_event (n : Notification) (k : WatchedKind) (c : Cluster) :
    (event k n.change).outcome c =
      if isFollowed k n.type then (trigger k n.object).outcome c else .ok () := by
  rw [event, Action.outcome_bind, Action.outcome_of, n.typed, Action.after_of]
  dsimp only
  rw [apply_ite (Action.outcome · c), Action.outcome_bind, Action.outcome_of, n.tells]
  rfl

/-- an update is passed on if it is one to react to, and counted otherwise -/
theorem journal_webhookUpdate (n : Notification) (c : Cluster) :
    (webhookUpdate n.name n.old n.new n.object).journal c =
      if n.matters then (trigger .validatingWebhooks n.object).journal c
      else [.count (.filtered WatchedKind.validatingWebhooks.kind)] := by
  rw [webhookUpdate, Action.journal_bind, Action.journal_of, Action.outcome_of, n.compared]
  dsimp only
  rw [apply_ite (Action.journal · _)]
  rfl

theorem outcome_webhookUpdate (n : Notification) (c : Cluster) :
    (webhookUpdate n.name n.old n.new n.object).outcome c =
      if n.matters then (trigger .validatingWebhooks n.object).outcome c else .ok () := by
  rw [webhookUpdate, Action.outcome_bind, Action.outcome_of, n.compared]
  dsimp only
  rw [apply_ite (Action.outcome · _)]
  rfl

end Handler

/-! ### Both handlers -/

namespace WatchedKind

variable {k : WatchedKind}

/-- only the updates of configurations of validating webhooks are looked at on their own -/
theorem filtered_iff (hk : k ∈ all) : k.filtered = true ↔ k = validatingWebhooks := by
  revert k
  decide

/-- a notification is a listing, an update for the second handler, or a change for the first one -/
theorem isFollowed_iff (hk : k ∈ all) (n : Notification) :
    Handler.isFollowed k n.type = true ↔ n.type.isNull = false ∧ ¬ n.IsWebhookUpdate k := by
  rw [Handler.isFollowed, Notification.IsWebhookUpdate, ← filtered_iff hk, Bool.and_eq_true,
    Bool.not_eq_true', Bool.not_eq_true', ← Bool.and_eq_true, Bool.not_eq_true]

/-- Whatever a notification tells, the object is passed on once at most, and nothing else is done. -/
theorem journal_notification (hk : k ∈ all) (n : Notification) (c d : Cluster) :
    n.journal k c d =
      if n.IsWebhookUpdate k then
        if n.matters then (Handler.trigger k n.object).journal d else [.count (.filtered k.kind)]
      else if n.type.isNull then [] else (Handler.trigger k n.object).journal c := by
  rw [Notification.journal, Handler.journal_event]
  have hfollowed := isFollowed_iff hk n
  by_cases hupdate : n.IsWebhookUpdate k
  · have hpassed : ¬ Handler.isFollowed k n.type = true := fun h => (hfollowed.1 h).2 hupdate
    rw [if_pos hupdate, if_pos hupdate, if_neg hpassed, Handler.journal_webhookUpdate, hupdate.1]
    rfl
  · rw [if_neg hupdate, if_neg hupdate, List.append_nil]
    cases hnull : n.type.isNull with
    | true =>
      have hlisted : ¬ Handler.isFollowed k n.type = true := fun h => by
        rw [(hfollowed.1 h).1] at hnull
        cases hnull
      rw [if_neg hlisted]
      rfl
    | false =>
      rw [if_pos (hfollowed.2 ⟨hnull, hupdate⟩)]
      rfl

/-- what is done about a notification that leads to a revision -/
theorem journal_of_leadsTo (hk : k ∈ all) {n : Notification} {key : Key} (h : n.LeadsTo k key) (c d : Cluster) :
    ∃ (body : Data) (records : List Log.Record), n.journal k c d =
      .count (.trigger k.kind) :: .call (.patchRevision key.ns key.name body) :: records.map Entry.log := by
  rw [journal_notification hk]
  split
  · rename_i hupdate
    have hmatters : n.matters = true := Bool.not_eq_false _ ▸ fun hnot => h.matters ⟨hupdate, hnot⟩
    rw [if_pos hmatters]
    exact ⟨_, Handler.journal_trigger h.owner d⟩
  · rw [if_neg (by simp [h.change])]
    exact ⟨_, Handler.journal_trigger h.owner c⟩

/-- an update that is not one to react to is counted, and nothing else is done about it -/
theorem journal_of_isSuppressed (hk : k ∈ all) {n : Notification} (h : n.IsSuppressed k) (c d : Cluster) :
    n.journal k c d = [.count (.filtered k.kind)] := by
  rw [journal_notification hk, if_pos h.1, h.2]
  rfl

/-- nothing is done about any other notification -/
theorem journal_of_idle (hk : k ∈ all) {n : Notification} (hmatters : ¬ n.IsSuppressed k)
    (h : ∀ key, ¬ n.LeadsTo k key) (c d : Cluster) : n.journal k c d = [] := by
  have hnone (hchange : n.type.isNull = false) (key : Key) : k.owner? n.object ≠ .ok (some key) :=
    fun howner => h key ⟨hchange, hmatters, howner⟩
  rw [journal_notification hk]
  split
  · rename_i hupdate
    have hreact : n.matters = true := Bool.not_eq_false _ ▸ fun hnot => hmatters ⟨hupdate, hnot⟩
    have hchange : n.type.isNull = false := by
      rw [Data.same_text.1 hupdate.2]
      rfl
    rw [if_pos hreact]
    exact Handler.journal_trigger_of_none (hnone hchange) d
  · split
    · rfl
    · rename_i hchange
      exact Handler.journal_trigger_of_none (hnone (Bool.not_eq_true _ ▸ hchange)) c

/-- where it can be told which revision an object leads to, and touches are answered, both handlers return -/
theorem ends_of_answered (n : Notification) {k : WatchedKind} {c d : Cluster}
    (howner : ∃ found, k.owner? n.object = .ok found) :
    (c.answer .patchRevision = .ok () ∨ c.Refuses .patchRevision →
      (Handler.event k n.change).outcome c = .ok ()) ∧
    (n.IsWebhookUpdate k → d.answer .patchRevision = .ok () ∨ d.Refuses .patchRevision →
      (Handler.webhookUpdate n.name n.old n.new n.object).outcome d = .ok ()) := by
  refine ⟨fun hanswer => ?_, fun hupdate hanswer => ?_⟩
  · rw [Handler.outcome_event, Handler.outcome_trigger howner hanswer, ite_self]
  · rw [hupdate.1] at howner
    rw [Handler.outcome_webhookUpdate, Handler.outcome_trigger howner hanswer, ite_self]

/-- **Triggers.**  Both handlers together touch the revision that a notification leads to, and this once; if it leads
to none, they touch none. Every touch is counted for the kind, every update that is not to be reacted to is counted
as one, and nothing else is counted. A touch that is refused, as where the revision is gone, is no fault. -/
theorem handledOnce (hk : k ∈ all) (n : Notification) (c d : Cluster) :
    (∀ key, n.LeadsTo k key → (n.journal k c d).filterMap Entry.touched? = [key]) ∧
    ((∀ key, ¬ n.LeadsTo k key) → (n.journal k c d).filterMap Entry.touched? = []) ∧
    (n.journal k c d).countP (Entry.counts (.trigger k.kind)) =
      ((n.journal k c d).filterMap Entry.touched?).length ∧
    (n.journal k c d).countP (Entry.counts (.filtered k.kind)) = (if n.IsSuppressed k then 1 else 0) ∧
    (∀ m, m ≠ .trigger k.kind → m ≠ .filtered k.kind → (n.journal k c d).countP (Entry.counts m) = 0) ∧
    ((∃ found, k.owner? n.object = .ok found) →
      (c.answer .patchRevision = .ok () ∨ c.Refuses .patchRevision →
        (Handler.event k n.change).outcome c = .ok ()) ∧
      (n.IsWebhookUpdate k → d.answer .patchRevision = .ok () ∨ d.Refuses .patchRevision →
        (Handler.webhookUpdate n.name n.old n.new n.object).outcome d = .ok ())) := by
  have hends := ends_of_answered n (k := k) (c := c) (d := d)
  by_cases hsuppressed : n.IsSuppressed k
  · have hnone (key : Key) : ¬ n.LeadsTo k key := fun h => h.matters hsuppressed
    rw [journal_of_isSuppressed hk hsuppressed, if_pos hsuppressed]
    refine ⟨fun key h => absurd h (hnone key), fun _ => rfl, ?_, ?_, fun m htrigger hfiltered => ?_, hends⟩
    · rfl
    · simp [Entry.counts]
    · simp [Entry.counts, Ne.symm hfiltered]
  · rw [if_neg hsuppressed]
    by_cases hleads : ∃ key, n.LeadsTo k key
    · obtain ⟨key, hkey⟩ := hleads
      obtain ⟨body, records, hjournal⟩ := journal_of_leadsTo hk hkey c d
      have htouched : (n.journal k c d).filterMap Entry.touched? = [key] := by
        have hcall : Entry.touched? (.call (.patchRevision key.ns key.name body)) = some key := rfl
        rw [hjournal, List.filterMap_cons_none rfl, List.filterMap_cons_some hcall,
          Entry.filterMap_touched?_logs]
      rw [htouched, hjournal]
      refine ⟨fun key' hkey' => ?_, fun hnone => absurd hkey (hnone key), ?_, ?_,
        fun m htrigger hfiltered => ?_, hends⟩
      · cases hkey.owner.symm.trans hkey'.owner
        rfl
      · simp [Entry.counts]
      · simp [Entry.counts]
      · simp [Entry.counts, Ne.symm htrigger]
    · have hnone (key : Key) : ¬ n.LeadsTo k key := fun h => hleads ⟨key, h⟩
      rw [journal_of_idle hk hsuppressed hnone]
      exact ⟨fun key h => absurd h (hnone key), fun _ => rfl, rfl, rfl, fun _ _ _ => rfl, hends⟩

/-- a configuration of webhooks that belongs to the sole revision, with a failure policy and what it stands for -/
def validator (policy rule : String) : Data :=
  .object [
    ("metadata", .object [("name", .text "istio-validator-istio-system"),
      ("annotations", ownershipAnnotations Key.sole.ns Key.sole.name)]),
    ("webhooks", .list [.object [("name", .text rule), ("failurePolicy", .text policy)]])]

/-- an update of this configuration, which allows failures before and does not afterwards -/
def closing (rule : String) (matters : Bool)
    (compared : isWebhookUpdate "istio-validator-istio-system" (validator "Ignore" "rev.validation.istio.io")
      (validator "Fail" rule) = .ok matters) : Notification where
  change := .object [("type", .text "MODIFIED"), ("object", validator "Fail" rule)]
  type := .text "MODIFIED"
  object := validator "Fail" rule
  name := "istio-validator-istio-system"
  old := validator "Ignore" "rev.validation.istio.io"
  new := validator "Fail" rule
  matters
  typed := rfl
  tells := rfl
  compared

/-- the update changes nothing but the failure policy -/
def closed : Notification := closing "rev.validation.istio.io" false rfl

/-- the update changes something else too -/
def replaced : Notification := closing "validation.istio.io" true rfl

/-- The one update touches the revision of the configuration, and the other one is only counted. -/
theorem handledOnce_validator :
    (replaced.journal validatingWebhooks .versioned .versioned).filterMap Entry.touched? = [.sole] ∧
    (closed.journal validatingWebhooks .versioned .versioned).filterMap Entry.touched? = [] ∧
    (closed.journal validatingWebhooks .versioned .versioned).countP
      (Entry.counts (.filtered validatingWebhooks.kind)) = 1 := by
  have hk : validatingWebhooks ∈ all := by decide
  have hleads : replaced.LeadsTo validatingWebhooks .sole :=
    ⟨rfl, fun h => Bool.noConfusion h.2, rfl⟩
  have hsuppressed : closed.IsSuppressed validatingWebhooks := ⟨⟨rfl, Data.same_text.2 rfl⟩, rfl⟩
  obtain ⟨-, hnone, -, hcount, -⟩ := handledOnce hk closed .versioned .versioned
  refine ⟨(handledOnce hk replaced .versioned .versioned).1 _ hleads,
    hnone fun key h => h.matters hsuppressed, ?_⟩
  rw [hcount, if_pos hsuppressed]

end WatchedKind

end MeshOperator
