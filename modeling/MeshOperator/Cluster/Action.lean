import MeshOperator.Cluster.Basic
import MeshOperator.Cluster.Journal

/-!
# Actions

An action reads and changes the cluster, writes into the journal, and ends with an answer or a fault.
What it did before a fault stays done. It sees the cluster only, so its part of the journal does not
depend on what was written before.

* `Action.outcome`, `Action.after`, `Action.journal`: how an action ends in a cluster, the cluster
  that it leaves, and what it writes.
* `Action.outcome_bind`, `Action.after_bind`, `Action.journal_bind`: the same for two actions in a row.
-/

namespace MeshOperator

/-- How an action went. -/
structure Step (α : Type) where
  outcome : Except Fault α
  cluster : Cluster
  journal : List Entry

/-- What the operator does in a cluster. -/
def Action (α : Type) : Type := Cluster → Step α

/-- The cluster and the journal so far. -/
structure Run where
  cluster : Cluster
  journal : List Entry := []

namespace Action

variable {α β : Type}

/-- the answer or fault that an action ends with -/
def outcome (a : Action α) (c : Cluster) : Except Fault α := (a c).outcome

/-- the cluster that an action leaves -/
def after (a : Action α) (c : Cluster) : Cluster := (a c).cluster

/-- what an action writes into the journal -/
def journal (a : Action α) (c : Cluster) : List Entry := (a c).journal

/-- the answer or fault of an action, and what it leaves -/
def result (a : Action α) (r : Run) : Except Fault α × Run :=
  let s := a r.cluster
  (s.outcome, ⟨s.cluster, r.journal ++ s.journal⟩)

/-- a step followed by what an action does in the cluster that it left -/
def follow (s : Step α) (a : Action β) : Step β :=
  let t := a s.cluster
  ⟨t.outcome, t.cluster, s.journal ++ t.journal⟩

instance : Monad Action where
  pure a := fun c => ⟨.ok a, c, []⟩
  bind a f := fun c =>
    let s := a c
    match s.outcome with
    | .ok x => follow s (f x)
    | .error e => ⟨.error e, s.cluster, s.journal⟩

instance : MonadExceptOf Fault Action where
  throw f := fun c => ⟨.error f, c, []⟩
  tryCatch a h := fun c =>
    let s := a c
    match s.outcome with
    | .ok _ => s
    | .error f => follow s (h f)

/-- an entry at the end of the journal -/
def write (e : Entry) : Action Unit := fun c => ⟨.ok (), c, [e]⟩

/-- the cluster as it is -/
def cluster : Action Cluster := fun c => ⟨.ok c, c, []⟩

/-- a change of the cluster -/
def change (f : Cluster → Cluster) : Action Unit := fun c => ⟨.ok (), f c, []⟩

/-- an answer or fault that needs nothing from the outside -/
def of (r : Except Fault α) : Action α := fun c => ⟨r, c, []⟩

/-- a log record -/
def log (level : Log.Level) (message : String) (fields : List (String × Data)) : Action Unit := do
  write (.log (Log.operatorRecord (← cluster).clock level message fields))

/-- one more of what is counted -/
def count (m : Metric) : Action Unit := write (.count m)

/-- an action, with another one in place of a refusal by the API -/
def orRefused (a : Action α) (h : (status reason : Data) → Action α) : Action α :=
  tryCatch a fun
    | .api status reason => h status reason
    | f => throw f

/-- the fault that an action ends with, if it does -/
def fault? (a : Action Unit) : Action (Option Fault) :=
  tryCatch (do a; return none) fun f => return some f

/-! ### How actions end, what they leave and what they write -/

section Laws

variable (c : Cluster) (x : α) (e : Fault) (r : Except Fault α) (en : Entry)
variable (a : Action α) (f : α → Action β) (h : Fault → Action α)

@[simp] theorem outcome_pure : (pure x : Action α).outcome c = .ok x := rfl
@[simp] theorem after_pure : (pure x : Action α).after c = c := rfl
@[simp] theorem journal_pure : (pure x : Action α).journal c = [] := rfl

@[simp] theorem outcome_throw : (throw e : Action α).outcome c = .error e := rfl
@[simp] theorem after_throw : (throw e : Action α).after c = c := rfl
@[simp] theorem journal_throw : (throw e : Action α).journal c = [] := rfl

@[simp] theorem outcome_of : (of r).outcome c = r := rfl
@[simp] theorem after_of : (of r).after c = c := rfl
@[simp] theorem journal_of : (of r).journal c = [] := rfl

@[simp] theorem outcome_cluster : cluster.outcome c = .ok c := rfl
@[simp] theorem after_cluster : cluster.after c = c := rfl
@[simp] theorem journal_cluster : cluster.journal c = [] := rfl

@[simp] theorem outcome_write : (write en).outcome c = .ok () := rfl
@[simp] theorem after_write : (write en).after c = c := rfl
@[simp] theorem journal_write : (write en).journal c = [en] := rfl

@[simp] theorem outcome_change (g : Cluster → Cluster) : (change g).outcome c = .ok () := rfl
@[simp] theorem after_change (g : Cluster → Cluster) : (change g).after c = g c := rfl
@[simp] theorem journal_change (g : Cluster → Cluster) : (change g).journal c = [] := rfl

theorem outcome_bind : (a >>= f).outcome c =
    match a.outcome c with
    | .ok x => (f x).outcome (a.after c)
    | .error e => .error e := by
  simp only [outcome, bind, after, follow]
  cases (a c).outcome <;> rfl

theorem outcome_bind_eq_ok {y : β} : (a >>= f).outcome c = .ok y ↔
    ∃ x, a.outcome c = .ok x ∧ (f x).outcome (a.after c) = .ok y := by
  rw [outcome_bind]
  cases a.outcome c <;> simp

theorem after_bind : (a >>= f).after c =
    match a.outcome c with
    | .ok x => (f x).after (a.after c)
    | .error _ => a.after c := by
  simp only [outcome, bind, after, follow]
  cases (a c).outcome <;> rfl

theorem journal_bind : (a >>= f).journal c = a.journal c ++
    match a.outcome c with
    | .ok x => (f x).journal (a.after c)
    | .error _ => [] := by
  simp only [outcome, bind, after, follow, journal]
  cases (a c).outcome <;> simp

theorem outcome_tryCatch : (tryCatch a h).outcome c =
    match a.outcome c with
    | .ok x => .ok x
    | .error e => (h e).outcome (a.after c) := by
  simp only [outcome, tryCatch, tryCatchThe, after, follow, MonadExceptOf.tryCatch]
  cases hx : (a c).outcome <;> simp [hx]

theorem after_tryCatch : (tryCatch a h).after c =
    match a.outcome c with
    | .ok _ => a.after c
    | .error e => (h e).after (a.after c) := by
  simp only [outcome, tryCatch, tryCatchThe, after, follow, MonadExceptOf.tryCatch]
  cases (a c).outcome <;> rfl

theorem journal_tryCatch : (tryCatch a h).journal c = a.journal c ++
    match a.outcome c with
    | .ok _ => []
    | .error e => (h e).journal (a.after c) := by
  simp only [outcome, tryCatch, tryCatchThe, after, follow, journal, MonadExceptOf.tryCatch]
  cases (a c).outcome <;> simp

end Laws

end Action

end MeshOperator
