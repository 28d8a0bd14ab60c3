import MeshOperator.Proofs.Chart.Install
import MeshOperator.Proofs.Cluster.Deeds
import MeshOperator.Proofs.Yaml.Reading

/-!
# Stamping the objects of a manifest

The documents of a manifest are stamped one after the other. Each object with a kind gets one patch; what
has no kind gets none, and the first document that cannot be stamped ends the work.

* `Chart.stampRequest?`: the patch that an object gets.
* `Chart.IsStamped`, `Chart.FullyStamped`: an object, and a manifest, that is stamped.
* `Chart.outcome_stampManifest_eq_ok`: when the stamping of a manifest goes well.
* `Chart.works_stampManifest`: the patches that are sent for a manifest, in order.
-/

namespace MeshOperator

/-- The patch of an object is taken: it is done, or the object is gone. -/
def Cluster.Takes (c : Cluster) (q : Request) : Prop :=
  match c.patchTrouble? q with
  | none => True
  | some (.answer status _ _) => status.same Api.notFound = true
  | some (.silence _) => False

namespace Chart

open MeshOperator.Action (Quiet)

variable {c : Cluster} {chart : String} {o : Owner}

/-! ### One object -/

/-- The patch that an object gets, if it gets one: it has a kind that the cluster knows, a version and a
name. -/
def stampRequest? (c : Cluster) (o : Owner) (object : Data) : Option Request :=
  match kindOf? object with
  | .ok (some (apiVersion, kind)) =>
    match c.kinds.answer apiVersion kind with
    | .unknown _ | .failed _ => none
    | .known namespaced =>
      match stampOf o object namespaced, (do (← metadataOf object).required "name") with
      | .ok (body, ns), .ok name => some (.patchObject apiVersion kind body name ns)
      | _, _ => none
  | _ => none

/-- An object is stamped: it has no kind, or its patch is taken. -/
def IsStamped (c : Cluster) (o : Owner) (object : Data) : Prop :=
  kindOf? object = .ok none ∨ ∃ q, stampRequest? c o object = some q ∧ c.Takes q

theorem outcome_patchObject (apiVersion kind body name ns : Data) :
    (Api.patchObject apiVersion kind body name ns).outcome c =
      match c.patchTrouble? (.patchObject apiVersion kind body name ns) with
      | none => .ok .done
      | some (.answer status reason body) => .ok (.refused status reason body)
      | some (.silence detail) => .error (.connection detail) := by
  rw [Api.patchObject, (Quiet.write _).outcome_bind, Action.outcome_write, ok_bind,
    Quiet.cluster.outcome_bind, Action.outcome_cluster, ok_bind]
  cases c.patchTrouble? (.patchObject apiVersion kind body name ns) with
  | none => rfl
  | some t => cases t <;> rfl

theorem works_patchObject (apiVersion kind body name ns : Data) :
    (Api.patchObject apiVersion kind body name ns).works c =
      [.call (.patchObject apiVersion kind body name ns)] := by
  rw [Api.patchObject, (Quiet.write _).works_bind, Action.outcome_write]
  have hwrite : (Action.write (.call (.patchObject apiVersion kind body name ns))).works c =
      [.call (.patchObject apiVersion kind body name ns)] := rfl
  rw [hwrite]
  simp only [Quiet.cluster.works_bind, Action.works_cluster, Action.outcome_cluster]
  split <;> rfl

/-- a patch whose refusal is a fault, unless the object is gone: it is sent, and it ends well if it is
taken -/
theorem patchObject_orFault (apiVersion kind body name ns : Data)
    (e : Data → Data → Data → Fault) :
    let patched : Action Unit := do
      match ← Api.patchObject apiVersion kind body name ns with
      | .done => return ()
      | .refused status reason body =>
        if status.same Api.notFound then return () else throw (e status reason body)
    patched.works c = [.call (.patchObject apiVersion kind body name ns)] ∧
      (patched.outcome c = .ok () ↔ c.Takes (.patchObject apiVersion kind body name ns)) := by
  dsimp only
  rw [(Api.quiet_patchObject ..).works_bind, works_patchObject,
    (Api.quiet_patchObject ..).outcome_bind, outcome_patchObject, Cluster.Takes]
  cases c.patchTrouble? (.patchObject apiVersion kind body name ns) with
  | none => simp [ok_bind]
  | some t =>
    cases t with
    | answer status reason body =>
      by_cases hgone : status.same Api.notFound = true <;> simp [ok_bind, hgone]
    | silence detail => simp [error_bind]

/-- An object gets its patch, and is stamped if the patch is taken; or it gets none, and is stamped if it
has no kind. -/
theorem stampObject_cases (c : Cluster) (chart : String) (o : Owner) (object : Data) :
    (∃ q, stampRequest? c o object = some q ∧
        (stampObject chart o object).works c = [.call q] ∧
        ((stampObject chart o object).outcome c = .ok () ↔ c.Takes q)) ∨
      stampRequest? c o object = none ∧ (stampObject chart o object).works c = [] ∧
        ((stampObject chart o object).outcome c = .ok () ↔ kindOf? object = .ok none) := by
  unfold stampObject stampRequest?
  rw [(Quiet.of _).works_bind, (Quiet.of _).outcome_bind, Action.outcome_of, Action.works_of]
  cases hkind : kindOf? object with
  | error f => exact .inr ⟨rfl, rfl, by simp [error_bind]⟩
  | ok kind =>
    cases kind with
    | none => exact .inr ⟨rfl, rfl, by simp [ok_bind]⟩
    | some kind =>
      obtain ⟨apiVersion, kind⟩ := kind
      simp only [ok_bind, Quiet.cluster.works_bind, Quiet.cluster.outcome_bind,
        Action.outcome_cluster, Action.works_cluster, List.nil_append]
      cases hscope : c.kinds.answer apiVersion kind with
      | failed detail => exact .inr ⟨rfl, rfl, by simp⟩
      | unknown detail =>
        refine .inr ⟨rfl, ?_, ?_⟩
        · dsimp only
          split <;> rfl
        · dsimp only
          split <;> simp [Action.outcome_bind]
      | known namespaced =>
        simp only [(Quiet.of _).works_bind, (Quiet.of _).outcome_bind, Action.outcome_of,
          Action.works_of, List.nil_append]
        cases hstamp : stampOf o object namespaced with
        | error f => exact .inr ⟨rfl, rfl, by simp [error_bind]⟩
        | ok stamp =>
          obtain ⟨body, ns⟩ := stamp
          cases hname : (do (← metadataOf object).required "name" : Except Fault Data) with
          | error f => exact .inr ⟨rfl, rfl, by simp [ok_bind, error_bind]⟩
          | ok name =>
            obtain ⟨hworks, houtcome⟩ := @patchObject_orFault c apiVersion kind body name ns _
            exact .inl ⟨_, rfl, hworks, houtcome⟩

theorem works_stampObject (c : Cluster) (chart : String) (o : Owner) (object : Data) :
    (stampObject chart o object).works c = (stampRequest? c o object).toList.map .call := by
  rcases stampObject_cases c chart o object with ⟨q, hq, hworks, -⟩ | ⟨hnone, hworks, -⟩
  · rw [hworks, hq]
    rfl
  · rw [hworks, hnone]
    rfl

theorem stampRequest?_of_noKind {object : Data} (h : kindOf? object = .ok none) :
    stampRequest? c o object = none := by
  rw [stampRequest?, h]

theorem outcome_stampObject_eq_ok {object : Data} :
    (stampObject chart o object).outcome c = .ok () ↔ IsStamped c o object := by
  rcases stampObject_cases c chart o object with ⟨q, hq, -, hiff⟩ | ⟨hnone, -, hiff⟩
  · rw [hiff]
    constructor
    · intro htaken
      exact .inr ⟨q, hq, htaken⟩
    · rintro (hkind | ⟨q', hq', htaken⟩)
      · cases hq.symm.trans (stampRequest?_of_noKind hkind)
      · cases hq.symm.trans hq'
        exact htaken
  · rw [hiff]
    constructor
    · exact .inl
    · rintro (hkind | ⟨q', hq', -⟩)
      · exact hkind
      · cases hnone.symm.trans hq'

/-! ### All objects of a manifest -/

/-- A manifest is stamped: it is read to its end, and each of its documents is stamped. -/
def FullyStamped (c : Cluster) (o : Owner) (manifest : String) : Prop :=
  (Yaml.documentsOf manifest).ending = .ok () ∧
    ∀ d ∈ (Yaml.documentsOf manifest).values, IsStamped c o d

/-- the documents that are worked on: the first that cannot be stamped ends the work -/
def stampTried (c : Cluster) (chart : String) (o : Owner) : List Data → List Data :=
  tried fun d => ((stampObject chart o d).outcome c).isOk

/-- the patches that are sent for a manifest -/
def stampWorks (c : Cluster) (chart : String) (o : Owner) (manifest : String) : List Entry :=
  (stampTried c chart o (Yaml.documentsOf manifest).values).flatMap fun d =>
    (stampRequest? c o d).toList.map .call

theorem outcome_stampAll_eq_ok {fuel : Nat} {first : Bool} {s : Yaml.Stream} :
    (stampAll chart o fuel first s).outcome c = .ok () ↔
      (s.valuesUpTo fuel first).ending = .ok () ∧
        ∀ d ∈ (s.valuesUpTo fuel first).values, IsStamped c o d := by
  induction fuel generalizing first s with
  | zero => simp [stampAll, Yaml.Stream.valuesUpTo]
  | succ fuel ih =>
    rw [stampAll, Yaml.Stream.valuesUpTo, (Quiet.of _).outcome_bind, Action.outcome_of]
    cases hnext : s.nextValue? first with
    | error f => simp [error_bind]
    | ok next =>
      cases next with
      | none => simp [ok_bind]
      | some next =>
        obtain ⟨d, rest⟩ := next
        rw [ok_bind, (quiet_stampObject ..).outcome_bind_eq_ok]
        constructor
        · rintro ⟨⟨⟩, hd, hrest⟩
          obtain ⟨hending, hvalues⟩ := ih.1 hrest
          exact ⟨hending, List.forall_mem_cons.2 ⟨outcome_stampObject_eq_ok.1 hd, hvalues⟩⟩
        · rintro ⟨hending, hvalues⟩
          obtain ⟨hd, hrest⟩ := List.forall_mem_cons.1 hvalues
          exact ⟨(), outcome_stampObject_eq_ok.2 hd, ih.2 ⟨hending, hrest⟩⟩

/-- the bound on the documents of a manifest leaves room for all of them -/
theorem valuesUpTo_manifest (manifest : String) :
    (Yaml.Stream.ofTokens (Yaml.Tokens.ofText manifest.toList)).valuesUpTo
      ((Yaml.Tokens.ofText manifest.toList).list.length + 2) true = Yaml.documentsOf manifest := rfl

theorem outcome_stampManifest_eq_ok {manifest : String} :
    (stampManifest chart o manifest).outcome c = .ok () ↔ FullyStamped c o manifest := by
  rw [stampManifest, outcome_stampAll_eq_ok, valuesUpTo_manifest]
  rfl

theorem works_stampAll {fuel : Nat} {first : Bool} {s : Yaml.Stream} :
    (stampAll chart o fuel first s).works c =
      (stampTried c chart o (s.valuesUpTo fuel first).values).flatMap fun d =>
        (stampRequest? c o d).toList.map .call := by
  induction fuel generalizing first s with
  | zero => rfl
  | succ fuel ih =>
    rw [stampAll, Yaml.Stream.valuesUpTo, (Quiet.of _).works_bind, Action.works_of,
      Action.outcome_of, List.nil_append]
    cases hnext : s.nextValue? first with
    | error f => rfl
    | ok next =>
      cases next with
      | none => rfl
      | some next =>
        obtain ⟨d, rest⟩ := next
        dsimp only
        rw [(quiet_stampObject ..).works_bind, works_stampObject, ih, stampTried, tried,
          List.flatMap_cons]
        cases (stampObject chart o d).outcome c <;> rfl

theorem works_stampManifest (c : Cluster) (chart : String) (o : Owner) (manifest : String) :
    (stampManifest chart o manifest).works c = stampWorks c chart o manifest := by
  rw [stampManifest, works_stampAll, valuesUpTo_manifest]
  rfl

end Chart

end MeshOperator
