import MeshOperator.Proofs.Chart.Stamping

/-!
# The patches of an installation

Every patch of an object that an installation sends is the stamp of an object in the manifest of one of
its charts.

* `Chart.IsStampOf`: a patch is the stamp of an object of a release.
* `Chart.isStampOf_of_install`: so are all patches of an installation.
-/

namespace MeshOperator

theorem mem_of_mem_tried {α : Type} {ok : α → Bool} {as : List α} {a : α} (h : a ∈ tried ok as) :
    a ∈ as := by
  induction as with
  | nil => cases h
  | cons b as ih =>
    rw [tried, List.mem_cons] at h
    rcases h with rfl | h
    · exact List.mem_cons_self ..
    · split at h
      · exact List.mem_cons_of_mem _ (ih h)
      · cases h

namespace Chart

open MeshOperator.Action (Quiet Makes)

/-- the deeds around the stamping of a release -/
def around : List Deed := [.note, .toolRun]

variable {cfg : Config} {c : Cluster} {o : Owner} {chart : String} {e : Entry}

/-- a patch after an action that patches nothing is one of what follows -/
theorem exists_of_patch_mem_bind {α β : Type} {a : Action α} {f : α → Action β} (hquiet : a.Quiet)
    (hmakes : a.Makes around) (hpatch : e.deed = .objectPatch) (he : e ∈ (a >>= f).journal c) :
    ∃ x, a.outcome c = .ok x ∧ e ∈ (f x).journal c := by
  rw [Action.journal_bind, hquiet.after_eq, List.mem_append] at he
  rcases he with he | he
  · have hdeed := hmakes.deed_mem c e he
    rw [hpatch] at hdeed
    simp [around] at hdeed
  · cases hx : a.outcome c with
    | ok x =>
      rw [hx] at he
      exact ⟨x, rfl, he⟩
    | error f =>
      rw [hx] at he
      cases he

/-- The patch stamps an object in the manifest of the release of a chart. -/
def IsStampOf (c : Cluster) (o : Owner) (chart : String) (object : Data) (e : Entry) : Prop :=
  ∃ manifest, Answers c "get" (release o.name chart) manifest ∧
    object ∈ (Yaml.documentsOf manifest).values ∧
    ∃ q, stampRequest? c o object = some q ∧ e = .call q

theorem isStampOf_of_stampManifest {manifest : String} (hpatch : e.deed = .objectPatch)
    (hmanifest : Answers c "get" (release o.name chart) manifest)
    (he : e ∈ (stampManifest chart o manifest).journal c) : ∃ object, IsStampOf c o chart object e := by
  have hwork : e ∈ (stampManifest chart o manifest).works c :=
    List.mem_filter.2 ⟨he, by simp [Entry.isWork, hpatch]⟩
  rw [works_stampManifest] at hwork
  obtain ⟨object, hobject, hcall⟩ := List.mem_flatMap.1 hwork
  obtain ⟨q, hq, rfl⟩ := List.mem_map.1 hcall
  exact ⟨object, manifest, hmanifest, mem_of_mem_tried hobject, q, Option.mem_toList.1 hq, rfl⟩

variable {values : String} {version : Data}

theorem isStampOf_of_installOne (hpatch : e.deed = .objectPatch)
    (he : e ∈ (installOne cfg values version o chart).journal c) :
    ∃ object, IsStampOf c o chart object e := by
  unfold installOne at he
  -- nothing before the stamping patches an object
  obtain ⟨path, -, he⟩ := exists_of_patch_mem_bind (.of _) (.of _) hpatch he
  obtain ⟨_, -, he⟩ := exists_of_patch_mem_bind .cluster .cluster hpatch he
  obtain ⟨_, -, he⟩ := exists_of_patch_mem_bind (quiet_counted ..)
    ((makes_counted _ _).mono (by decide)) hpatch he
  obtain ⟨limit, -, he⟩ := exists_of_patch_mem_bind (.of _) (.of _) hpatch he
  obtain ⟨answer, -, he⟩ :=
    exists_of_patch_mem_bind (quiet_runInstallTool ..)
      ((makes_runInstallTool ..).mono (by decide)) hpatch he
  obtain ⟨_, -, he⟩ := exists_of_patch_mem_bind (quiet_counted ..)
    ((makes_counted _ _).mono (by decide)) hpatch he
  obtain ⟨_, -, he⟩ := exists_of_patch_mem_bind (.log ..)
    ((Makes.log ..).mono (by decide)) hpatch he
  rw [Action.journal_bind, List.mem_append] at he
  rcases he with he | he
  · obtain ⟨answer, hanswer, he⟩ :=
      exists_of_patch_mem_bind (quiet_runInstallTool ..)
        ((makes_runInstallTool ..).mono (by decide)) hpatch he
    obtain ⟨manifest, rfl, he⟩ := exists_of_patch_mem_bind (.of _) (.of _) hpatch he
    have hmanifest := outcome_runInstallTool_eq_ok.1 hanswer
    exact isStampOf_of_stampManifest hpatch hmanifest he
  · -- what follows it is a count
    cases hx : (stampRelease cfg chart (release o.name chart) o).outcome c with
    | error f =>
      rw [hx] at he
      cases he
    | ok x =>
      rw [hx] at he
      cases List.mem_singleton.1 he
      cases hpatch

theorem isStampOf_of_installEach (hpatch : e.deed = .objectPatch) {charts : List String}
    (he : e ∈ (installEach cfg values version o charts).journal c) :
    ∃ chart ∈ charts, ∃ object, IsStampOf c o chart object e := by
  induction charts with
  | nil => cases he
  | cons chart charts ih =>
    rw [installEach, Action.journal_bind, (quiet_installOne ..).after_eq, List.mem_append] at he
    rcases he with he | he
    · obtain ⟨object, hstamp⟩ := isStampOf_of_installOne hpatch he
      exact ⟨chart, List.mem_cons_self .., object, hstamp⟩
    · cases hx : (installOne cfg values version o chart).outcome c with
      | error f =>
        rw [hx] at he
        cases he
      | ok x =>
        rw [hx] at he
        obtain ⟨chart', hchart', hobject⟩ := ih he
        exact ⟨chart', List.mem_cons_of_mem _ hchart', hobject⟩

theorem isStampOf_of_install (hpatch : e.deed = .objectPatch) {v : Values} {charts : List String}
    (he : e ∈ (install cfg v version o charts).journal c) :
    ∃ chart ∈ charts, ∃ object, IsStampOf c o chart object e := by
  obtain ⟨values, -, he⟩ := exists_of_patch_mem_bind (.of _) (.of _) hpatch he
  exact isStampOf_of_installEach hpatch he

end Chart

end MeshOperator
