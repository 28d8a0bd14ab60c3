import MeshOperator.Proofs.Cluster.Apart
import MeshOperator.Proofs.Reconcile.Matching
import MeshOperator.Proofs.Reconcile.Upkeep
import MeshOperator.Proofs.Text.Cutting

/-!
# Revisions do not meet

A call for one revision changes nothing but the status of this revision, and looks at nothing that a call for
another one changes. So two such calls can be made in either order. No release is one of two revisions, since
the chart can be told from the end of the name of a release, and the owner from what stands before it.

* `Key.releases_apart`: two keys have no release in common.
* `Reconcile.congruence_withStatus?`, `Reconcile.matches_apart`: a call goes the same whether or not the status
  of another revision was written.
* `Action.Commute`: two actions can be made in either order.
* `Reconcile.independent`: calls for two revisions can, and each keeps to its own.
-/

namespace MeshOperator

/-! ### Releases -/

namespace Chart

/-- names of releases are the same only if the charts are, and the owners -/
theorem release_inj {o p : Data} {a b : String} (ha : '-' ∉ a.toList) (hb : '-' ∉ b.toList)
    (h : release o a = release p b) : o.plainText = p.plainText ∧ a = b := by
  have hlist := congrArg (fun s : String => Text.cutLast? '-' s.toList) h
  have hglued (o : Data) (a : String) : (release o a).toList = o.plainText.toList ++ '-' :: a.toList := by
    simp [release]
  simp only [hglued, Text.cutLast?_append ha, Text.cutLast?_append hb, Option.some.injEq,
    Prod.mk.injEq, String.toList_inj] at hlist
  exact hlist

theorem notMem_hyphen {chart : String} (h : chart ∈ Reconcile.cniCharts ++ Reconcile.controlCharts) :
    '-' ∉ chart.toList := by
  revert chart
  decide

end Chart

/-- two keys have no release in common -/
theorem Key.releases_apart {j k : Key} (hj : j.IsText) (hk : k.IsText) (hne : j ≠ k)
    {t : Chart.Release} (h : t ∈ j.releases) : t ∉ k.releases := by
  intro h'
  obtain ⟨chart, hchart, rfl⟩ := List.mem_map.1 h
  obtain ⟨chart', hchart', heq⟩ := List.mem_map.1 h'
  obtain ⟨⟨ns, hns⟩, ⟨name, hname⟩⟩ := hj
  obtain ⟨⟨ns', hns'⟩, ⟨name', hname'⟩⟩ := hk
  injection heq with hsame hrelease
  obtain ⟨howner, -⟩ := Chart.release_inj (Chart.notMem_hyphen hchart') (Chart.notMem_hyphen hchart) hrelease
  rw [hname, hname'] at howner
  obtain ⟨jns, jname⟩ := j
  obtain ⟨kns, kname⟩ := k
  dsimp only at hns hname hns' hname' hsame
  refine hne ?_
  rw [← hsame, hname, hname']
  exact congrArg _ (congrArg Data.text howner.symm)

/-! ### Actions in either order -/

namespace Action

variable {α β : Type} {a : Action α} {b : Action β} {c : Cluster}

/-- Two actions can be made in either order: each ends the same and writes the same into the journal, whether
or not the other one came before, and together they leave the same cluster. -/
structure Commute (a : Action α) (b : Action β) (c : Cluster) : Prop where
  outcome_left : a.outcome (b.after c) = a.outcome c
  outcome_right : b.outcome (a.after c) = b.outcome c
  journal_left : a.journal (b.after c) = a.journal c
  journal_right : b.journal (a.after c) = b.journal c
  after_eq : b.after (a.after c) = a.after (b.after c)

/-- how often an action counts something -/
def counted (a : Action α) (m : Metric) (c : Cluster) : Nat :=
  (a.journal c).countP fun e => match e with
    | .count n => n = m
    | _ => false

/-- in either order the same is counted -/
theorem Commute.counted_eq (h : a.Commute b c) (m : Metric) :
    a.counted m c + b.counted m (a.after c) = b.counted m c + a.counted m (b.after c) := by
  rw [counted, counted, counted, counted, h.journal_left, h.journal_right, Nat.add_comm]

/-- The action keeps to one revision: it writes at most its status, leaves all other revisions, and what it
asks of the chart tool is about the releases of this revision. -/
structure KeepsTo (a : Action α) (k : Key) (c : Cluster) : Prop where
  status : ∃ o, a.after c = c.withStatus? k o
  others : ∀ j, j ≠ k → (a.after c).revision? j = c.revision? j
  releases : ∀ run, Entry.tool run ∈ a.journal c → run.command.target ∈ k.releases

theorem picked_true (a : Action α) (c : Cluster) : a.picked (fun _ => true) c = a.journal c :=
  List.filter_true _

end Action

/-- telling of something looks at nothing but whether events are taken -/
theorem Api.steady_emitEvent {R : Cluster → Cluster → Prop}
    (hevent : ∀ {c d}, R c d → d.answer .createEvent = c.answer .createEvent) (r : Revision)
    (reason message type : String) :
    (emitEvent r reason message type).Steady R fun _ => True :=
  (steady_call trivial hevent).orRefused fun _ _ => .log _ _ _ fun _ => trivial

namespace Reconcile

open MeshOperator.Action (Matches)

variable {cfg : Config} {c : Cluster} {j k : Key} {call : Action Unit} {o : Option Data}

/-! ### The status of another revision -/

/-- a call does not see the status of another revision -/
theorem congruence_withStatus? (hj : j.IsText) (hk : k.IsText) (hne : j ≠ k) (o : Option Data) :
    Congruence (fun c d => d = c.withStatus? j o) (· = k) where
  clock {c d} h := by
    rw [h, c.clock_withStatus? j o]
  tools {c d} h := by
    rw [h]
    exact (c.alike_withStatus? j o).sameTools
  workloads {c d} h := by
    rw [h]
    exact (c.alike_withStatus? j o).sameWorkloads
  getRevision {c d} h := by
    rw [h, (c.alike_withStatus? j o).answer_eq]
  patchStatus {c d} h := by
    rw [h, (c.alike_withStatus? j o).answer_eq]
  revision {c d i} h hi := by
    rw [h, hi, Cluster.revision?_withStatus?_of_ne hj (Ne.symm hne)]
  withStatus {c d i} h hi status := by
    rw [h, hi, Cluster.withStatus?_comm hj hk hne]

section Apart

variable (hj : j.IsText) (hk : k.IsText) (hne : j ≠ k) (hcall : Reconciles cfg k call)
variable (own : ∀ r, (Api.getRevision k).outcome c = .ok (some r) → r.key = k)
include hj hk hne hcall own

/-- whether or not the status of another revision was written, a call goes the same -/
theorem matches_apart (o : Option Data) :
    Matches (fun c d => d = c.withStatus? j o) (fun _ => true) call call c (c.withStatus? j o) := by
  have hR := congruence_withStatus? hj hk hne o
  refine hR.matches_call rfl rfl own ?_ hcall
  intro r f _ _ _ reason message type
  have hevent := @Api.steady_emitEvent (fun c d => d = c.withStatus? j o) ?_ r reason message type
  · exact hevent.matching (hR.clock rfl) rfl
  · intro c d h
    rw [h, (c.alike_withStatus? j o).answer_eq]

theorem journal_apart (o : Option Data) : call.journal (c.withStatus? j o) = call.journal c := by
  have hpicked := (matches_apart hj hk hne hcall own o).picked_eq
  rwa [Action.picked_true, Action.picked_true] at hpicked

end Apart

/-! ### One call -/

/-- a call leaves all as it is but the status of its own revision -/
theorem keepsTo (hk : k.IsText) (hcall : Reconciles cfg k call)
    (own : ∀ r, (Api.getRevision k).outcome c = .ok (some r) → r.key = k) : call.KeepsTo k c := by
  let v : Visit k := ⟨cfg, c, call, hcall, own⟩
  have hstatus : ∃ o, call.after c = c.withStatus? k o := by
    rcases v.after_cases with ⟨-, hafter⟩ | ⟨r, s, failure, values, -, held, -, hafter⟩
    · exact ⟨none, hafter⟩
    · refine ⟨some s.toData, ?_⟩
      rw [held.own] at hafter
      exact hafter
  refine ⟨hstatus, fun i hne => ?_, fun run hrun => ?_⟩
  · obtain ⟨o, ho⟩ := hstatus
    rw [ho, Cluster.revision?_withStatus?_of_ne hk hne]
  · have hexchange : (⟨run.command, c.reply run.command.verb run.command.release⟩ : Chart.Exchange) ∈
        v.exchanges := List.mem_filterMap.2 ⟨_, hrun, rfl⟩
    exact v.target_mem hexchange

/-! ### Two calls -/

/-- **Independence.**  Take two keys of texts, under each of which there is a revision of this key, if any. A
call for the one and a call for the other can be made in either order: each ends the same, makes the same calls
of the API and the same runs of the chart tool, in all the same is counted, and the same is stored. Each keeps
to its own revision, and no run of the one is about a release that a run of the other is about. -/
theorem independent {first second : Action Unit} (hj : j.IsText) (hk : k.IsText) (hne : j ≠ k)
    (hfirst : Reconciles cfg j first) (hsecond : Reconciles cfg k second)
    (ownFirst : ∀ r, (Api.getRevision j).outcome c = .ok (some r) → r.key = j)
    (ownSecond : ∀ r, (Api.getRevision k).outcome c = .ok (some r) → r.key = k) :
    first.Commute second c ∧
    (∀ m, first.counted m c + second.counted m (first.after c) =
      second.counted m c + first.counted m (second.after c)) ∧
    first.KeepsTo j c ∧ second.KeepsTo k c ∧
    ∀ run run', Entry.tool run ∈ first.journal c → Entry.tool run' ∈ second.journal c →
      run.command.target ≠ run'.command.target := by
  have hkeepsFirst := keepsTo hj hfirst ownFirst
  have hkeepsSecond := keepsTo hk hsecond ownSecond
  obtain ⟨o, ho⟩ := hkeepsFirst.status
  obtain ⟨q, hq⟩ := hkeepsSecond.status
  -- each goes the same whether or not the other one wrote its status
  have hmatchFirst := matches_apart hk hj (Ne.symm hne) hfirst ownFirst q
  have hmatchSecond := matches_apart hj hk hne hsecond ownSecond o
  have hcommute : first.Commute second c := by
    refine ⟨?_, ?_, ?_, ?_, ?_⟩
    · rw [hq]
      exact hmatchFirst.outcome_eq
    · rw [ho]
      exact hmatchSecond.outcome_eq
    · rw [hq]
      exact journal_apart hk hj (Ne.symm hne) hfirst ownFirst q
    · rw [ho]
      exact journal_apart hj hk hne hsecond ownSecond o
    · have hthere : second.after (c.withStatus? j o) = (second.after c).withStatus? j o := hmatchSecond.after
      have hback : first.after (c.withStatus? k q) = (first.after c).withStatus? k q := hmatchFirst.after
      rw [ho, hq, hthere, hback, ho, hq]
      cases q with
      | none => rfl
      | some s => exact (Cluster.withStatus?_comm hj hk hne o s).symm
  refine ⟨hcommute, hcommute.counted_eq, hkeepsFirst, hkeepsSecond, fun run run' hrun hrun' heq => ?_⟩
  have hmem := hkeepsSecond.releases run' hrun'
  rw [← heq] at hmem
  exact Key.releases_apart hj hk hne (hkeepsFirst.releases run hrun) hmem

end Reconcile

/-- the key of a revision that is named like a release of another one -/
def Key.namesake : Key := ⟨.text "istio-system", .text "default-base"⟩

namespace Cluster

open Reconcile

/-- the cluster of `Cluster.versioned`, with a second revision that is named like a release of the first -/
def paired : Cluster :=
  { versioned with
    revisions := versioned.revisions ++ [(.namesake, .object [
      ("metadata", .object [("name", Key.namesake.name), ("namespace", Key.namesake.ns),
        ("generation", .int 3)]),
      ("spec", .object [("version", .text "v1.22")])])] }

/-- both revisions are installed and recorded, in either order -/
theorem independent_paired :
    (reconcile .standard .sole).Commute (Handler.revision .standard .namesake 0) paired ∧
    ((reconcile .standard .sole).statusPatches paired).length = 1 ∧
    ((Handler.revision .standard .namesake 0).statusPatches paired).length = 1 := by
  have hsole : Key.sole.IsText := ⟨⟨_, rfl⟩, ⟨_, rfl⟩⟩
  have hnamesake : Key.namesake.IsText := ⟨⟨_, rfl⟩, ⟨_, rfl⟩⟩
  have hne : Key.sole ≠ Key.namesake := fun h =>
    absurd (congrArg (fun k : Key => k.name.plainText) h) (by decide)
  have heldSole : paired.Holds .sole .versioned := ⟨rfl, ⟨_, rfl, rfl⟩, rfl⟩
  have heldNamesake : paired.Holds .namesake
      { Revision.versioned with name := Key.namesake.name, generation := 3 } := ⟨rfl, ⟨_, rfl, rfl⟩, rfl⟩
  refine ⟨(independent hsole hnamesake hne (.inl rfl : Reconciles .standard _ _)
    (.inr ⟨0, rfl⟩ : Reconciles .standard _ _) heldSole.own_of_getRevision
    heldNamesake.own_of_getRevision).1, ?_, ?_⟩
  · decide +kernel
  · decide +kernel

end Cluster

end MeshOperator
