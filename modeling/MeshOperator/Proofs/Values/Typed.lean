import MeshOperator.Proofs.Data.Entries
import MeshOperator.Reconcile.Readiness

/-!
# Typed look-ups

A typed look-up fails exactly when something other than null and of another type stands at the path.
What it gives decides the name of the control plane's deployment and whether the node agent is wanted.

* `Values.Allows`: nothing of another type stands at a path.
* `Values.getTyped_isOk`: when a typed look-up succeeds.
* `Values.deploymentName_eq_ok`, `Values.isCniEnabled_eq_ok`: what the look-ups give then.
-/

namespace MeshOperator.Values

variable {α : Type} {v : Values} {path : String} {pick : Item → Option α}

/-- Nothing, null or what `pick` takes stands at the path. -/
def Allows (v : Values) (path : String) (pick : Item → Option α) : Prop :=
  ∀ i, v.get? path = some i → i = .scalar .null ∨ (pick i).isSome = true

/-- the text at a path, the empty one if there is none -/
def textAt (v : Values) (path : String) : String := ((v.get? path).bind Item.text?).getD ""

/-- whether the truth value `true` stands at a path -/
def isTrueAt (v : Values) (path : String) : Bool := ((v.get? path).bind Item.bool?).getD false

theorem getTyped_isOk (expected : String) :
    (∃ o, v.getTyped path expected pick = .ok o) ↔ v.Allows path pick := by
  unfold getTyped Allows
  cases v.get? path with
  | none => simp
  | some i =>
    by_cases hnull : i = .scalar .null
    · simp [hnull]
    · cases hpick : pick i <;> simp [hnull, hpick]

theorem getTyped_eq_ok {expected : String} {o : Option α} (hnull : pick (.scalar .null) = none)
    (h : v.getTyped path expected pick = .ok o) : o = (v.get? path).bind pick := by
  unfold getTyped at h
  split at h
  · rename_i hg
    cases h
    simp [hg]
  · rename_i hg
    cases h
    simp [hg, hnull]
  · rename_i i hi hg
    split at h
    · rename_i a ha
      cases h
      simp [hg, ha]
    · cases h

/-- the name of the deployment of the control plane, from the text that names the revision -/
def deploymentFor (label : String) : String := if label = "" then "istiod" else "istiod-" ++ label

theorem deploymentName_isOk :
    (∃ n, v.deploymentName = .ok n) ↔ v.Allows revisionPath Item.text? := by
  rw [← getTyped_isOk "string"]
  unfold deploymentName getText
  cases v.getTyped revisionPath "string" Item.text? <;> simp [bind, Except.bind, pure, Except.pure]

theorem deploymentName_eq_ok {n : String} (h : v.deploymentName = .ok n) :
    n = deploymentFor (v.textAt revisionPath) := by
  obtain ⟨o, ho, h⟩ := bind_eq_ok.1 h
  cases h
  rw [getTyped_eq_ok rfl ho]
  rfl

theorem isCniEnabled_isOk : (∃ b, v.isCniEnabled = .ok b) ↔ v.Allows cniPath Item.bool? := by
  rw [← getTyped_isOk "bool"]
  unfold isCniEnabled getBool
  cases v.getTyped cniPath "bool" Item.bool? <;> simp [bind, Except.bind, pure, Except.pure]

theorem isCniEnabled_eq_ok {b : Bool} (h : v.isCniEnabled = .ok b) : b = v.isTrueAt cniPath := by
  obtain ⟨o, ho, h⟩ := bind_eq_ok.1 h
  cases h
  rw [getTyped_eq_ok rfl ho]
  rfl

end MeshOperator.Values
