import MeshOperator.Reconcile.Basic
import MeshOperator.Watch.Kind
import MeshOperator.Watch.WebhookFilter

/-!
# Handlers

What the operator does when it is called: a revision was written or deleted, an object that belongs
to one changed, or a webhook configuration was updated.

* `Handler.revision`: reconciles, and asks for another try when that fails.
* `Handler.event`, `Handler.webhookUpdate`: touch the revision that a changed object belongs to.
-/

namespace MeshOperator.Handler

/-- Reconciles the revision under a key. A fault asks for another try, after a delay that grows with
the tries before. -/
def revision (c : Config) (k : Key) (retry : Int) : Action Unit :=
  tryCatch (Reconcile.reconcile c k) fun f => do
    let delay := c.backoff retry
    Action.log .warning ("Requeueing after error: " ++ f.message)
      (Reconcile.about k none "reconcile" "Requeued"
        ++ [("retry", .int retry), ("delay", .double delay)])
    throw (.requeue f delay)

/-- Touches the revision that a changed object belongs to, if there is one. A refusal is only logged:
the next change tries again. -/
def trigger (k : WatchedKind) (object : Data) : Action Unit := do
  match ← Action.of (k.owner? object) with
  | none => return ()
  | some owner =>
    Action.count (.trigger k.kind)
    Action.orRefused (do let _ ← Api.touchRevision owner) fun _ reason =>
      Action.log .warning ("Failed to trigger reconciliation: " ++ reason.plainText)
        (Reconcile.about owner none "watch" "TriggerFailed" ++ [("kind", .text k.kind)])

/-- whether a change of an object of a kind is one to follow: not the first listing, and not an update
of a kind whose updates are looked at on their own -/
def isFollowed (k : WatchedKind) (type : Data) : Bool :=
  !type.isNull && !(k.filtered && type.same (.text "MODIFIED"))

/-- A change of an object of a watched kind. -/
def event (k : WatchedKind) (change : Data) : Action Unit := do
  if isFollowed k (← Action.of (change.entry "type")) then
    trigger k (← Action.of (change.entryOrElse "object" (.dict [])))

/-- An update of a webhook configuration from `old` to `new`, which now is `object`. -/
def webhookUpdate (name : String) (old new object : Data) : Action Unit := do
  let k := WatchedKind.validatingWebhooks
  if ← Action.of (isWebhookUpdate name old new) then trigger k object
  else Action.count (.filtered k.kind)

end MeshOperator.Handler
