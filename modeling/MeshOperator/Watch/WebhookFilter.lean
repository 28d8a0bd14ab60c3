import MeshOperator.Data.Access
import MeshOperator.Text.Cut

/-!
# Updates of webhook configurations

The control plane itself rewrites the failure policy in its validating webhook configuration. An
update that changes nothing but this, and what the cluster counts and records on every write, is not
an update to react to.

* `isValidatorName`: the names of the configurations that the control plane rewrites.
* `isWebhookUpdate`: whether an update is one to react to.
-/

namespace MeshOperator

/-- whether some tail of a text has a property -/
def anyTail (p : List Char → Bool) : List Char → Bool
  | [] => p []
  | c :: s => p (c :: s) || anyTail p s

/-- Whether a name belongs to a configuration that the control plane rewrites: it holds
`istio-validator`, or `istiod-` and later on the same line `-validator`. -/
def isValidatorName (name : String) : Bool :=
  let istiod := "istiod-".toList
  Text.occurs "istio-validator".toList name.toList
    || anyTail (fun s => Text.startsWith s istiod
        && Text.occurs "-validator".toList ((s.drop istiod.length).takeWhile (· ≠ '\n'))) name.toList

/-- what the cluster counts and records on every write -/
def recordFields : List String := ["resourceVersion", "generation", "managedFields"]

/-- data without some entries, which only a mapping can do without -/
def Data.dropping (keys : List String) : Data → Except Fault Data
  | .dict es => .ok (.dict (keys.foldl (fun es k => Data.without k es) es))
  | .list _ => .error .unsuitable
  | _ => .error .lacking

/-- an object without the fields that change by themselves -/
def withoutChurn (object : Data) : Except Fault Data := do
  let es ← object.entries
  let about ← ((Data.lookup? "metadata" es).getD (.dict [])).dropping recordFields
  let es := Data.withEntry "metadata" about es
  let webhooks := ((Data.lookup? "webhooks" es).getD .null).orElse (.list [])
  let cleared ← (← webhooks.members).mapM (Data.dropping ["failurePolicy"])
  return .dict (if cleared.isEmpty then es else Data.withEntry "webhooks" (.list cleared) es)

/-- Whether the update of a webhook configuration from `old` to `new` is one to react to. -/
def isWebhookUpdate (name : String) (old new : Data) : Except Fault Bool :=
  if old.isNull || new.isNull then .ok false
  else if isValidatorName name then do
    let a ← withoutChurn old
    let b ← withoutChurn new
    return !a.same b
  else .ok true

end MeshOperator
