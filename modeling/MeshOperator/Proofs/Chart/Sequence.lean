import MeshOperator.Proofs.Chart.Stamping

/-!
# The sequence of an installation

Charts are installed one after the other: for each the chart tool makes the release and then reads its
manifest, whose objects are stamped. The first chart that is not deployed ends the work.

* `Chart.Job`: what charts are installed with.
* `Chart.Job.runs`: the two runs of the chart tool for a chart.
* `Chart.Job.works`: what is done for a chart, up to where it fails.
* `Chart.works_installEach`, `Chart.Job.Sequenced`: what is done for a list of charts.
-/

namespace MeshOperator.Chart

open MeshOperator.Action (Quiet)

/-- What charts are installed with: the configuration, the values as text, the version, the limit in
whole seconds and the owner. -/
structure Job where
  config : Config
  values : String
  version : String
  limit : Int
  owner : Owner

/-- the output of a run of the chart tool that ends well -/
def output? (c : Cluster) (verb release : String) : Option String :=
  match c.reply verb release with
  | .ended code output _ => if code = 0 then some output else none
  | _ => none

theorem output?_eq_some {c : Cluster} {verb release output : String} :
    output? c verb release = some output ↔ Answers c verb release output := by
  unfold output? Answers
  cases c.reply verb release with
  | ended code out errors => by_cases hcode : code = 0 <;> simp [hcode]
  | _ => simp

/-! ### Runs of the chart tool -/

section Tool

variable {cfg : Config} {c : Cluster} {chart : String} {command : ToolCommand} {input : Option String}

theorem works_counted {α : Type} (operation : ChartOperation) (x : Except Fault α) :
    (counted operation x).works c = [] := by
  cases x <;> rfl

theorem works_runTool (operation : ChartOperation) :
    (runTool cfg chart operation command input).works c =
      [.tool ⟨cfg.helmBinary, command, input, cfg.helmTimeout⟩] := by
  have hwrite (e : ToolRun) : (Action.write (.tool e)).works c = [.tool e] := rfl
  rw [runTool, (Quiet.write _).works_bind, hwrite, Action.outcome_write]
  simp only [Quiet.cluster.works_bind, Action.works_cluster, Action.outcome_cluster]
  cases c.reply command.verb command.release <;> rfl

theorem works_runInstallTool :
    (runInstallTool cfg chart command input).works c =
      [.tool ⟨cfg.helmBinary, command, input, cfg.helmTimeout⟩] := by
  rw [runInstallTool, (quiet_runTool ..).works_bind, works_runTool]
  cases (runTool cfg chart .install command input).outcome c <;> rfl

/-- A run whose output is needed next: what follows is done only if the run ends well. `g` says what is
made of a complaint. -/
theorem works_runInstallTool_bind {g : Except Fault String → Action String} {f : String → Action Unit}
    (hquiet : ∀ x, (g x).Quiet) (hworks : ∀ x, (g x).works c = [])
    (houtcome : ∀ x, (g x).outcome c = x) :
    (do f (← g (← runInstallTool cfg chart command input)) : Action Unit).works c =
      .tool ⟨cfg.helmBinary, command, input, cfg.helmTimeout⟩ ::
        match output? c command.verb command.release with
        | none => []
        | some output => (f output).works c := by
  rw [(quiet_runInstallTool ..).works_bind, works_runInstallTool, List.singleton_append]
  congr 1
  cases hout : output? c command.verb command.release with
  | some output =>
    have hrun : (runInstallTool cfg chart command input).outcome c = .ok (.ok output) :=
      outcome_runInstallTool_eq_ok.2 (output?_eq_some.1 hout)
    rw [hrun]
    simp only [(hquiet _).works_bind, hworks, houtcome, List.nil_append]
  | none =>
    cases hrun : (runInstallTool cfg chart command input).outcome c with
    | error f => rfl
    | ok answer =>
      cases answer with
      | ok output =>
        have hsome := output?_eq_some.2 (outcome_runInstallTool_eq_ok.1 hrun)
        cases hout.symm.trans hsome
      | error f => simp only [(hquiet _).works_bind, hworks, houtcome, List.nil_append]

end Tool

namespace Job

variable (j : Job) (c : Cluster) (chart : String)

/-- the run that makes or upgrades the release of a chart -/
def upgradeRun : ToolRun :=
  ⟨j.config.helmBinary,
    .upgrade (release j.owner.name chart) (path j.config.resources j.version chart) j.owner.ns j.limit,
    some j.values, j.config.helmTimeout⟩

/-- the run that reads the manifest of the release of a chart -/
def manifestRun : ToolRun :=
  ⟨j.config.helmBinary, .manifest (release j.owner.name chart) j.owner.ns, none, j.config.helmTimeout⟩

/-- the runs of the chart tool for a chart that is deployed -/
def runs : List ToolRun := [j.upgradeRun chart, j.manifestRun chart]

/-- the chart is deployed -/
def IsDeployed : Prop := Chart.IsDeployed j.config (.text j.version) j.owner c chart

/-- What is done for a chart: nothing if its directory is not there, then its release is made, then the
manifest is read, and then its objects are stamped, each only if what was before went well. -/
def works : List Entry :=
  if c.hasChart (path j.config.resources j.version chart) then
    .tool (j.upgradeRun chart) ::
      match output? c "upgrade" (release j.owner.name chart) with
      | none => []
      | some _ =>
        .tool (j.manifestRun chart) ::
          match output? c "get" (release j.owner.name chart) with
          | none => []
          | some manifest => stampWorks c chart j.owner manifest
  else []

/-- installs one chart -/
def installOne : Action Unit :=
  Chart.installOne j.config j.values (.text j.version) j.owner chart

/-- The limit of the job is that of the configuration. -/
structure IsTimed : Prop where
  limit_eq : orFault .number j.config.helmTimeout.toInteger = .ok j.limit

variable {j}

theorem works_stampRelease :
    (stampRelease j.config chart (release j.owner.name chart) j.owner).works c =
      .tool (j.manifestRun chart) ::
        match output? c "get" (release j.owner.name chart) with
        | none => []
        | some manifest => stampWorks c chart j.owner manifest := by
  have h := @works_runInstallTool_bind j.config c chart
    (.manifest (release j.owner.name chart) j.owner.ns) none Action.of
    (stampManifest chart j.owner) (fun _ => .of _) (fun _ => rfl) (fun _ => rfl)
  simp only [works_stampManifest] at h
  exact h

/-- the end of the work on a chart, once its release is made -/
theorem works_finish (l : Log.Level) (m : String) (fs : List (String × Data)) :
    (do
      Action.log l m fs
      stampRelease j.config chart (release j.owner.name chart) j.owner
      Action.count (.chart .install true) : Action Unit).works c =
      .tool (j.manifestRun chart) ::
        match output? c "get" (release j.owner.name chart) with
        | none => []
        | some manifest => stampWorks c chart j.owner manifest := by
  rw [(Quiet.log ..).works_bind, Action.works_log, Action.outcome_log, List.nil_append]
  dsimp only
  rw [(quiet_stampRelease ..).works_bind, works_stampRelease]
  cases (stampRelease j.config chart (release j.owner.name chart) j.owner).outcome c with
  | ok x => exact List.append_nil _
  | error f => exact List.append_nil _

theorem works_installOne (htimed : j.IsTimed) : (j.installOne chart).works c = j.works c chart := by
  have hpath : pathOf j.config.resources (.text j.version) chart =
      .ok (path j.config.resources j.version chart) := rfl
  rw [installOne, Chart.installOne, hpath, (Quiet.of _).works_bind, Action.works_of,
    Action.outcome_of, List.nil_append, works]
  dsimp only
  rw [Quiet.cluster.works_bind, Action.works_cluster, Action.outcome_cluster, List.nil_append]
  dsimp only
  rw [(quiet_counted ..).works_bind, works_counted, outcome_counted, List.nil_append]
  by_cases hfound : c.hasChart (path j.config.resources j.version chart) = true
  · rw [if_pos hfound, if_pos hfound]
    dsimp only
    rw [(Quiet.of _).works_bind, Action.works_of, Action.outcome_of, htimed.limit_eq,
      List.nil_append]
    dsimp only
    rw [works_runInstallTool_bind (fun _ => quiet_counted ..) (fun _ => works_counted ..)
      fun _ => outcome_counted ..]
    simp only [works_finish]
    rfl
  · rw [if_neg hfound, if_neg hfound]

/-! ### The runs among the works -/

theorem runs_stampWorks (manifest : String) :
    (stampWorks c chart j.owner manifest).filterMap Entry.run? = [] := by
  refine List.filterMap_eq_nil_iff.2 fun e he => ?_
  obtain ⟨d, -, he⟩ := List.mem_flatMap.1 he
  obtain ⟨q, -, rfl⟩ := List.mem_map.1 he
  rfl

/-- the runs for a chart are both, the first only, or none -/
theorem runs_works :
    (j.works c chart).filterMap Entry.run? =
      if c.hasChart (path j.config.resources j.version chart) then
        if (output? c "upgrade" (release j.owner.name chart)).isSome then j.runs chart
        else [j.upgradeRun chart]
      else [] := by
  unfold works runs
  split
  · cases output? c "upgrade" (release j.owner.name chart) with
    | none => rfl
    | some output =>
      cases output? c "get" (release j.owner.name chart) with
      | none => rfl
      | some manifest =>
        have hstamps := @runs_stampWorks j c chart manifest
        simp [Entry.run?, hstamps]
  · rfl

theorem runs_works_begin : (j.works c chart).filterMap Entry.run? <+: j.runs chart := by
  rw [runs_works]
  split
  · split
    · exact List.prefix_refl _
    · exact ⟨[j.manifestRun chart], rfl⟩
  · exact List.nil_prefix

theorem runs_works_eq_runs :
    (j.works c chart).filterMap Entry.run? = j.runs chart ↔
      c.hasChart (path j.config.resources j.version chart) = true ∧
        ∃ output, Answers c "upgrade" (release j.owner.name chart) output := by
  rw [runs_works]
  by_cases hfound : c.hasChart (path j.config.resources j.version chart) = true
  · cases hout : output? c "upgrade" (release j.owner.name chart) with
    | none =>
      have hnot : ¬ ∃ output, Answers c "upgrade" (release j.owner.name chart) output := by
        rintro ⟨output, hanswers⟩
        cases hout.symm.trans (output?_eq_some.2 hanswers)
      simp [hfound, hnot, runs]
    | some output =>
      have hsome : ∃ output, Answers c "upgrade" (release j.owner.name chart) output :=
        ⟨output, output?_eq_some.1 hout⟩
      simp [hfound, hsome]
  · simp [hfound, runs]

/-- a chart is deployed if both runs are made, and its manifest is read and stamped -/
theorem isDeployed_iff (htimed : j.IsTimed) :
    j.IsDeployed c chart ↔
      (j.works c chart).filterMap Entry.run? = j.runs chart ∧
        ∃ manifest, Answers c "get" (release j.owner.name chart) manifest ∧
          FullyStamped c j.owner manifest := by
  rw [runs_works_eq_runs]
  constructor
  · rintro ⟨⟨path, hpath, hfound⟩, -, hupgrade, manifest, hget, hstamp⟩
    cases hpath
    exact ⟨⟨hfound, hupgrade⟩, manifest, hget, outcome_stampManifest_eq_ok.1 hstamp⟩
  · rintro ⟨⟨hfound, hupgrade⟩, manifest, hget, hstamp⟩
    exact ⟨⟨_, rfl, hfound⟩, ⟨j.limit, htimed.limit_eq⟩, hupgrade, manifest, hget,
      outcome_stampManifest_eq_ok.2 hstamp⟩

/-! ### A list of charts -/

/-- installs charts, one after the other -/
def installEach (j : Job) (charts : List String) : Action Unit :=
  Chart.installEach j.config j.values (.text j.version) j.owner charts

theorem outcome_installOne_eq_ok : (j.installOne chart).outcome c = .ok () ↔ j.IsDeployed c chart :=
  Chart.outcome_installOne_eq_ok

theorem outcome_installEach_eq_ok {charts : List String} :
    (j.installEach charts).outcome c = .ok () ↔ ∀ chart ∈ charts, j.IsDeployed c chart :=
  Chart.outcome_installEach_eq_ok

theorem works_installEach (htimed : j.IsTimed) (charts : List String) :
    (j.installEach charts).works c =
      (tried (fun chart => ((j.installOne chart).outcome c).isOk) charts).flatMap (j.works c) := by
  induction charts with
  | nil => rfl
  | cons chart charts ih =>
    have hone := works_installOne c chart htimed
    rw [installEach, Chart.installEach, (quiet_installOne ..).works_bind, tried, List.flatMap_cons,
      ← hone]
    have hrest : (Chart.installEach j.config j.values (.text j.version) j.owner charts).works c = _ := ih
    rw [hrest, installOne]
    cases (Chart.installOne j.config j.values (.text j.version) j.owner chart).outcome c <;> rfl

/-- two lists of charts, one after the other, are installed as one -/
theorem installEach_append (j : Job) (as bs : List String) :
    (do j.installEach as; j.installEach bs) = j.installEach (as ++ bs) := by
  induction as with
  | nil => rfl
  | cons a as ih =>
    have hstep (charts : List String) :
        j.installEach (a :: charts) = (do j.installOne a; j.installEach charts) := rfl
    rw [List.cons_append, hstep, hstep, ← ih]
    exact Action.bind_assoc ..

/-- Works go through charts in order: all up to the first that is not deployed are worked on, and it
too. Their runs are a beginning of the runs for all charts, and are all of them, with every manifest
stamped, exactly if every chart is deployed. -/
structure Sequenced (j : Job) (c : Cluster) (charts : List String) (works : List Entry) : Prop where
  ends : ∃ done rest, charts = done ++ rest ∧ (∀ chart ∈ done, j.IsDeployed c chart) ∧
    (∀ chart ∈ rest.head?, ¬ j.IsDeployed c chart) ∧
    works = (done ++ rest.take 1).flatMap (j.works c)
  runs_begin : works.filterMap Entry.run? <+: charts.flatMap j.runs
  complete : (works.filterMap Entry.run? = charts.flatMap j.runs ∧
    ∀ chart ∈ charts, ∃ manifest, Answers c "get" (release j.owner.name chart) manifest ∧
      FullyStamped c j.owner manifest) ↔ ∀ chart ∈ charts, j.IsDeployed c chart

theorem runs_flatMap (charts : List String) :
    (charts.flatMap (j.works c)).filterMap Entry.run? =
      charts.flatMap fun chart => (j.works c chart).filterMap Entry.run? :=
  List.filterMap_flatMap ..

theorem runs_of_deployed (htimed : j.IsTimed) {charts : List String}
    (h : ∀ chart ∈ charts, j.IsDeployed c chart) :
    (charts.flatMap (j.works c)).filterMap Entry.run? = charts.flatMap j.runs := by
  have hall : ∀ chart ∈ charts, (j.works c chart).filterMap Entry.run? = j.runs chart :=
    fun chart hchart => ((isDeployed_iff c chart htimed).1 (h chart hchart)).1
  rw [runs_flatMap, List.flatMap_def, List.map_congr_left hall, List.flatMap_def]

/-- a list of charts is worked on in order, up to its first failure -/
theorem sequenced_installEach (htimed : j.IsTimed) (charts : List String) :
    j.Sequenced c charts ((j.installEach charts).works c) := by
  obtain ⟨done, rest, rfl, hdone, hrest, htried⟩ :=
    exists_tried_eq (fun chart => ((j.installOne chart).outcome c).isOk) charts
  have hok (chart : String) :
      ((j.installOne chart).outcome c).isOk = true ↔ j.IsDeployed c chart := by
    rw [← outcome_installOne_eq_ok]
    constructor
    · exact eq_ok_of_isOk
    · intro h
      rw [h]
      rfl
  simp only [hok] at hdone hrest
  have hworks := works_installEach c htimed (done ++ rest)
  rw [htried] at hworks
  have hruns := runs_of_deployed c htimed hdone
  refine ⟨⟨done, rest, rfl, hdone, hrest, hworks⟩, ?_, ?_⟩
  · rw [hworks, List.flatMap_append, List.filterMap_append, hruns, List.flatMap_append,
      List.prefix_append_right_inj]
    cases rest with
    | nil => exact List.nil_prefix
    | cons chart rest =>
      rw [List.take_succ_cons, List.take_zero, List.flatMap_singleton, List.flatMap_cons]
      exact (runs_works_begin c chart).trans (List.prefix_append ..)
  · constructor
    · rintro ⟨hall, hmanifests⟩
      cases rest with
      | nil =>
        rw [List.append_nil]
        exact hdone
      | cons chart rest =>
        -- the runs for the first chart that is not deployed would have to be both of them
        rw [hworks, List.flatMap_append, List.filterMap_append, hruns, List.flatMap_append,
          List.append_cancel_left_eq, List.take_succ_cons, List.take_zero, List.flatMap_singleton,
          List.flatMap_cons] at hall
        have hboth : (j.works c chart).filterMap Entry.run? = j.runs chart := by
          refine (runs_works_begin c chart).eq_of_length_le ?_
          rw [hall, List.length_append]
          exact Nat.le_add_right ..
        have hmem : chart ∈ done ++ chart :: rest := by simp
        exact absurd ((isDeployed_iff c chart htimed).2 ⟨hboth, hmanifests chart hmem⟩)
          (hrest chart rfl)
    · intro hdeployed
      refine ⟨?_, fun chart hchart => ((isDeployed_iff c chart htimed).1 (hdeployed chart hchart)).2⟩
      cases rest with
      | nil =>
        rw [hworks, List.take_nil, runs_of_deployed c htimed (by simpa using hdeployed)]
      | cons chart rest => exact absurd (hdeployed chart (by simp)) (hrest chart rfl)

end Job

end MeshOperator.Chart
