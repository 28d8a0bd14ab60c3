import MeshOperator.Cluster.Api

/-!
# What calls of the API come to

A call that reads tells what is there, that nothing is, or fails; a call that writes a status is the
only one that changes the cluster.

* `Action.Quiet`: an action that leaves the cluster as it is.
* `Cluster.seen`: what a call that reads tells.
* `Api.outcome_readDeployment` and the others: how each call ends.
* `Api.after_patchStatus`: what writing a status leaves.
-/

namespace MeshOperator

/-! ### Actions that change nothing -/

/-- how an action ends, and the cluster that it leaves -/
def Action.ends {α : Type} (a : Action α) (c : Cluster) : Except Fault α × Cluster :=
  (a.outcome c, a.after c)

/-- the sentence for the fault that an action ends with, if it does -/
def Action.complaint? {α : Type} (a : Action α) (c : Cluster) : Option String :=
  match a.outcome c with
  | .ok _ => none
  | .error f => some f.message

theorem Action.exists_of_complaint? {α : Type} {a : Action α} {c : Cluster} {message : String}
    (h : a.complaint? c = some message) : ∃ f, a.outcome c = .error f ∧ f.message = message := by
  unfold complaint? at h
  cases hend : a.outcome c with
  | ok x =>
    rw [hend] at h
    cases h
  | error f =>
    rw [hend] at h
    cases h
    exact ⟨f, rfl, rfl⟩

/-- The action leaves every cluster as it is. -/
structure Action.Quiet {α : Type} (a : Action α) : Prop where
  after_eq : ∀ c, a.after c = c

namespace Action.Quiet

variable {α β : Type} {a : Action α} {f : α → Action β}

theorem pure (x : α) : (Pure.pure x : Action α).Quiet := ⟨fun _ => rfl⟩
theorem throw (e : Fault) : (MonadExcept.throw e : Action α).Quiet := ⟨fun _ => rfl⟩
theorem of (r : Except Fault α) : (Action.of r).Quiet := ⟨fun _ => rfl⟩
theorem cluster : Action.cluster.Quiet := ⟨fun _ => rfl⟩
theorem write (e : Entry) : (Action.write e).Quiet := ⟨fun _ => rfl⟩
theorem count (m : Metric) : (Action.count m).Quiet := ⟨fun _ => rfl⟩

theorem bind (ha : a.Quiet) (hf : ∀ x, (f x).Quiet) : (a >>= f).Quiet := by
  refine ⟨fun c => ?_⟩
  rw [after_bind, ha.after_eq c]
  split
  · exact (hf _).after_eq c
  · rfl

theorem tryCatch {h : Fault → Action α} (ha : a.Quiet) (hh : ∀ e, (h e).Quiet) :
    (MonadExcept.tryCatch a h).Quiet := by
  refine ⟨fun c => ?_⟩
  rw [after_tryCatch, ha.after_eq c]
  split
  · rfl
  · exact (hh _).after_eq c

/-- after an action that changes nothing, the next one meets the same cluster -/
theorem outcome_bind (ha : a.Quiet) (c : Cluster) :
    (a >>= f).outcome c = a.outcome c >>= fun x => (f x).outcome c := by
  rw [Action.outcome_bind, ha.after_eq c]
  cases a.outcome c <;> rfl

/-- after an action that changes nothing, its faults are met in the same cluster -/
theorem outcome_tryCatch (ha : a.Quiet) (h : Fault → Action α) (c : Cluster) :
    (MonadExcept.tryCatch a h).outcome c =
      match a.outcome c with
      | .ok x => .ok x
      | .error e => (h e).outcome c := by
  have htry := Action.outcome_tryCatch c a h
  rw [ha.after_eq] at htry
  exact htry

theorem ends_bind (ha : a.Quiet) (c : Cluster) :
    (a >>= f).ends c =
      match a.outcome c with
      | .ok x => (f x).ends c
      | .error e => (.error e, c) := by
  rw [Action.ends, Action.outcome_bind, Action.after_bind, ha.after_eq c]
  cases a.outcome c <;> rfl

theorem outcome_bind_eq_ok (ha : a.Quiet) {c : Cluster} {y : β} :
    (a >>= f).outcome c = .ok y ↔ ∃ x, a.outcome c = .ok x ∧ (f x).outcome c = .ok y := by
  rw [ha.outcome_bind, bind_eq_ok]

theorem log (l : Log.Level) (m : String) (fs : List (String × Data)) : (Action.log l m fs).Quiet :=
  cluster.bind fun _ => write _

theorem orRefused {h : Data → Data → Action α} (ha : a.Quiet) (hh : ∀ s r, (h s r).Quiet) :
    (a.orRefused h).Quiet :=
  ha.tryCatch fun e => by
    split
    · exact hh _ _
    · exact throw _

end Action.Quiet

namespace Action

variable {α : Type} (c : Cluster)

@[simp] theorem outcome_log (l : Log.Level) (m : String) (fs : List (String × Data)) :
    (log l m fs).outcome c = .ok () := rfl

@[simp] theorem after_log (l : Log.Level) (m : String) (fs : List (String × Data)) :
    (log l m fs).after c = c := rfl

@[simp] theorem outcome_count (m : Metric) : (count m).outcome c = .ok () := rfl

@[simp] theorem after_count (m : Metric) : (count m).after c = c := rfl

theorem outcome_orRefused (a : Action α) (h : Data → Data → Action α) :
    (a.orRefused h).outcome c =
      match a.outcome c with
      | .error (.api s r) => (h s r).outcome (a.after c)
      | x => x := by
  rw [orRefused, outcome_tryCatch]
  cases a.outcome c with
  | ok x => rfl
  | error e => cases e <;> rfl

theorem ends_orRefused (a : Action α) (h : Data → Data → Action α) :
    (a.orRefused h).ends c =
      match a.outcome c with
      | .error (.api s r) => (h s r).ends (a.after c)
      | _ => a.ends c := by
  rw [orRefused, ends, ends, outcome_tryCatch, after_tryCatch]
  cases a.outcome c with
  | ok x => rfl
  | error e => cases e <;> rfl

theorem outcome_fault? (a : Action Unit) :
    a.fault?.outcome c =
      match a.outcome c with
      | .ok () => .ok none
      | .error f => .ok (some f) := by
  rw [fault?, outcome_tryCatch, outcome_bind]
  cases a.outcome c <;> rfl

end Action

/-! ### Calls that read -/

/-- What a call that reads tells of `x`: what it is, that nothing is there, or the fault of the call. -/
def Cluster.seen {α : Type} (c : Cluster) (o : Operation) (x : Option α) :
    Except Fault (Option α) :=
  match c.answer o with
  | .ok () => .ok x
  | .error (.api s r) => if s.same Api.notFound then .ok none else .error (.api s r)
  | .error f => .error f

/-- what was found is there, and the call was answered well -/
theorem Cluster.eq_some_of_seen {α : Type} {c : Cluster} {o : Operation} {x : Option α} {a : α}
    (h : c.seen o x = .ok (some a)) : c.answer o = .ok () ∧ x = some a := by
  unfold seen at h
  split at h
  · rename_i hanswer
    cases h
    exact ⟨hanswer, rfl⟩
  · split at h <;> cases h
  · cases h

/-- How telling of something in an event ends: a refusal is passed over, and only an event that is not
answered is a fault. -/
def Cluster.eventOutcome (c : Cluster) : Except Fault Unit :=
  match c.answer .createEvent with
  | .error (.api _ _) => .ok ()
  | x => x

namespace Api

variable {α : Type} (c : Cluster) (k : Key)

theorem notFound_same : notFound.same notFound = true := by decide

theorem outcome_call (o : Operation) (q : Request) : (call o q).outcome c = c.answer o := rfl

theorem quiet_call (o : Operation) (q : Request) : (call o q).Quiet := ⟨fun _ => rfl⟩

theorem quiet_found (x : Option α) : (found x).Quiet := by
  cases x <;> exact ⟨fun _ => rfl⟩

theorem quiet_ifFound {a : Action α} (ha : a.Quiet) : (ifFound a).Quiet :=
  (ha.bind fun _ => .pure _).orRefused fun s r => by
    split
    · exact .pure _
    · exact .throw _

theorem quiet_reading (o : Operation) (q : Request) (x : Cluster → Option α) :
    (ifFound do call o q; found (x (← Action.cluster))).Quiet :=
  quiet_ifFound ((quiet_call o q).bind fun _ => Action.Quiet.cluster.bind fun _ => quiet_found _)

theorem outcome_ifFound (a : Action α) :
    (ifFound a).outcome c =
      match a.outcome c with
      | .ok x => .ok (some x)
      | .error (.api s r) => if s.same notFound then .ok none else .error (.api s r)
      | .error f => .error f := by
  rw [ifFound, Action.outcome_orRefused, Action.outcome_bind]
  cases a.outcome c with
  | ok x => rfl
  | error e =>
    cases e with
    | api s r => simp only []; split <;> rfl
    | _ => rfl

theorem outcome_reading (o : Operation) (q : Request) (x : Cluster → Option α) :
    (ifFound do call o q; found (x (← Action.cluster))).outcome c = c.seen o (x c) := by
  rw [outcome_ifFound, Action.outcome_bind, outcome_call, (quiet_call o q).after_eq, Cluster.seen]
  cases c.answer o with
  | ok u =>
    rw [Action.outcome_bind]
    cases hx : x c <;> simp [hx, found, notFoundFault, notFound_same]
  | error e => cases e <;> rfl

theorem quiet_readDeployment : (readDeployment k).Quiet := quiet_reading _ _ _

theorem quiet_readDaemonSet : (readDaemonSet k).Quiet := quiet_reading _ _ _

theorem outcome_readDeployment :
    (readDeployment k).outcome c = c.seen .readDeployment (Cluster.find? k c.deployments) :=
  outcome_reading c _ _ fun c => Cluster.find? k c.deployments

theorem outcome_readDaemonSet :
    (readDaemonSet k).outcome c = c.seen .readDaemonSet (Cluster.find? k c.daemonSets) :=
  outcome_reading c _ _ fun c => Cluster.find? k c.daemonSets

theorem quiet_getRevision : (getRevision k).Quiet :=
  (quiet_reading _ _ _).bind fun x => by
    cases x with
    | none => exact .pure _
    | some d => exact (Action.Quiet.of _).bind fun _ => .pure _

theorem outcome_getRevision :
    (getRevision k).outcome c =
      match c.seen .getRevision (c.revision? k) with
      | .ok none => .ok none
      | .ok (some d) => (Revision.ofData d).map some
      | .error f => .error f := by
  rw [getRevision, Action.outcome_bind, outcome_reading c _ _ fun c => c.revision? k]
  cases c.seen .getRevision (c.revision? k) with
  | error f => rfl
  | ok x =>
    cases x with
    | none => rfl
    | some d =>
      simp only [Action.outcome_bind, Action.outcome_of]
      cases Revision.ofData d <;> rfl

/-! ### Calls that write -/

theorem quiet_emitEvent (r : Revision) (reason message type : String) :
    (emitEvent r reason message type).Quiet :=
  (quiet_call _ _).orRefused fun _ _ => .log _ _ _

theorem outcome_emitEvent (r : Revision) (reason message type : String) :
    (emitEvent r reason message type).outcome c = c.eventOutcome := by
  rw [emitEvent, Action.outcome_orRefused, outcome_call, Cluster.eventOutcome]
  cases c.answer .createEvent with
  | ok u => rfl
  | error e => cases e <;> rfl

theorem outcome_patchStatus (r : Revision) (status : Data) :
    (patchStatus r status).outcome c =
      match c.answer .patchStatus with
      | .ok () => if (c.revision? r.key).isSome then .ok () else .error notFoundFault
      | .error f => .error f := by
  rw [patchStatus, Action.outcome_bind, outcome_call, (quiet_call _ _).after_eq]
  cases c.answer .patchStatus with
  | error f => rfl
  | ok u => cases h : c.revision? r.key <;> simp [Action.outcome_bind, found, h]

theorem after_patchStatus (r : Revision) (status : Data) :
    (patchStatus r status).after c =
      match c.answer .patchStatus with
      | .ok () => c.withStatus r.key status
      | .error _ => c := by
  rw [patchStatus, Action.after_bind, outcome_call, (quiet_call _ _).after_eq]
  cases c.answer .patchStatus with
  | error f => rfl
  | ok u =>
    cases h : c.revision? r.key <;>
      simp [Action.after_bind, found, h, Cluster.withStatus]

end Api

end MeshOperator
