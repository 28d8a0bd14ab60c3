import MeshOperator.Proofs.Chart.Quiet

/-!
# When charts are installed

A list of charts is installed if the values can be written and every chart of the list is deployed: its
directory is there, the chart tool ends well, and every object of the release is stamped.

* `Chart.IsDeployed`: all that must go well for one chart.
* `Chart.outcome_installOne_eq_ok`, `Chart.outcome_install_eq_ok`: it is enough, for one and for a list.
-/

namespace MeshOperator.Chart

variable {cfg : Config} {c : Cluster} {chart : String} {o : Owner} {text : String} {version : Data}

/-- The run of the chart tool ends well, with an output. -/
def Answers (c : Cluster) (verb release output : String) : Prop :=
  ∃ errors, c.reply verb release = .ended 0 output errors

/-- All goes well with one chart: its directory is there, the release is made, and its objects are
stamped. -/
structure IsDeployed (cfg : Config) (version : Data) (o : Owner) (c : Cluster) (chart : String) :
    Prop where
  directory : ∃ path, pathOf cfg.resources version chart = .ok path ∧ c.hasChart path = true
  limit : ∃ n, orFault .number cfg.helmTimeout.toInteger = .ok n
  upgrade : ∃ output, Answers c "upgrade" (release o.name chart) output
  stamp : ∃ manifest, Answers c "get" (release o.name chart) manifest ∧
    (stampManifest chart o manifest).outcome c = .ok ()

theorem outcome_counted {α : Type} (operation : ChartOperation) (x : Except Fault α) :
    (counted operation x).outcome c = x := by
  cases x <;> rfl

theorem outcome_runTool (operation : ChartOperation) (command : ToolCommand)
    (input : Option String) :
    (runTool cfg chart operation command input).outcome c =
      match c.reply command.verb command.release with
      | .ended code output errors => .ok (code, output, errors)
      | .missing =>
        .error (fault chart operation ("helm binary not found: [Errno 2] No such file or directory: "
          ++ String.ofList (Text.quoted cfg.helmBinary.toList)))
      | .forbidden => .error (.forbidden cfg.helmBinary)
      | .tooSlow =>
        .error (fault chart operation ("helm timed out after " ++ cfg.helmTimeout.message ++ "s")) := by
  rw [runTool, (Action.Quiet.write _).outcome_bind, Action.outcome_write, ok_bind,
    Action.Quiet.cluster.outcome_bind, Action.outcome_cluster, ok_bind]
  cases c.reply command.verb command.release <;> rfl

/-- the tool gives its output if it ends with the code 0 -/
theorem outcome_runInstallTool_eq_ok {command : ToolCommand} {input : Option String}
    {output : String} :
    (runInstallTool cfg chart command input).outcome c = .ok (.ok output) ↔
      Answers c command.verb command.release output := by
  rw [runInstallTool, (quiet_runTool ..).outcome_bind_eq_ok, outcome_runTool]
  unfold Answers
  cases c.reply command.verb command.release with
  | ended code out errors =>
    by_cases h : code = 0
    · simp [h]
    · simp [h]
  | missing => simp
  | forbidden => simp
  | tooSlow => simp

theorem outcome_stampRelease_eq_ok :
    (stampRelease cfg chart (release o.name chart) o).outcome c = .ok () ↔
      ∃ manifest, Answers c "get" (release o.name chart) manifest ∧
        (stampManifest chart o manifest).outcome c = .ok () := by
  rw [stampRelease, (quiet_runInstallTool ..).outcome_bind_eq_ok]
  constructor
  · rintro ⟨answer, hanswer, h⟩
    obtain ⟨manifest, rfl, h⟩ := (Action.Quiet.of _).outcome_bind_eq_ok.1 h
    have hended := outcome_runInstallTool_eq_ok.1 hanswer
    exact ⟨manifest, hended, h⟩
  · rintro ⟨manifest, hanswer, h⟩
    exact ⟨.ok manifest, outcome_runInstallTool_eq_ok.2 hanswer, h⟩

theorem outcome_installOne_eq_ok :
    (installOne cfg text version o chart).outcome c = .ok () ↔ IsDeployed cfg version o c chart := by
  unfold installOne
  constructor
  · intro h
    obtain ⟨path, hpath, h⟩ := (Action.Quiet.of _).outcome_bind_eq_ok.1 h
    obtain ⟨c', hc', h⟩ := Action.Quiet.cluster.outcome_bind_eq_ok.1 h
    cases hc'
    obtain ⟨⟨⟩, hfound, h⟩ := (quiet_counted ..).outcome_bind_eq_ok.1 h
    obtain ⟨limit, hlimit, h⟩ := (Action.Quiet.of _).outcome_bind_eq_ok.1 h
    obtain ⟨answer, hanswer, h⟩ := (quiet_runInstallTool ..).outcome_bind_eq_ok.1 h
    obtain ⟨output, houtput, h⟩ := (quiet_counted ..).outcome_bind_eq_ok.1 h
    obtain ⟨⟨⟩, -, h⟩ := (Action.Quiet.log ..).outcome_bind_eq_ok.1 h
    obtain ⟨⟨⟩, hstamp, -⟩ := (quiet_stampRelease ..).outcome_bind_eq_ok.1 h
    rw [outcome_counted] at hfound houtput
    subst houtput
    have hended := outcome_runInstallTool_eq_ok.1 hanswer
    have hstamped := outcome_stampRelease_eq_ok.1 hstamp
    refine ⟨⟨path, hpath, ?_⟩, ⟨limit, hlimit⟩, ⟨output, hended⟩, hstamped⟩
    cases hhas : c.hasChart path with
    | true => rfl
    | false => simp [hhas] at hfound
  · rintro ⟨⟨path, hpath, hfound⟩, ⟨limit, hlimit⟩, ⟨output, houtput⟩, hstamp⟩
    refine (Action.Quiet.of _).outcome_bind_eq_ok.2 ⟨path, hpath, ?_⟩
    refine Action.Quiet.cluster.outcome_bind_eq_ok.2 ⟨c, rfl, ?_⟩
    refine (quiet_counted ..).outcome_bind_eq_ok.2 ⟨(), by rw [outcome_counted, if_pos hfound], ?_⟩
    refine (Action.Quiet.of _).outcome_bind_eq_ok.2 ⟨limit, hlimit, ?_⟩
    have hrun : (runInstallTool cfg chart (.upgrade (release o.name chart) path o.ns limit)
        (some text)).outcome c = .ok (.ok output) := outcome_runInstallTool_eq_ok.2 houtput
    refine (quiet_runInstallTool ..).outcome_bind_eq_ok.2 ⟨.ok output, hrun, ?_⟩
    refine (quiet_counted ..).outcome_bind_eq_ok.2 ⟨output, outcome_counted .., ?_⟩
    refine (Action.Quiet.log ..).outcome_bind_eq_ok.2 ⟨(), rfl, ?_⟩
    have hlast : (stampRelease cfg chart (release o.name chart) o).outcome c = .ok () :=
      outcome_stampRelease_eq_ok.2 hstamp
    exact (quiet_stampRelease ..).outcome_bind_eq_ok.2 ⟨(), hlast, rfl⟩

theorem outcome_installEach_eq_ok {charts : List String} :
    (installEach cfg text version o charts).outcome c = .ok () ↔
      ∀ chart ∈ charts, IsDeployed cfg version o c chart := by
  induction charts with
  | nil => simp [installEach]
  | cons chart charts ih =>
    rw [installEach, (quiet_installOne ..).outcome_bind_eq_ok, List.forall_mem_cons, ← ih]
    constructor
    · rintro ⟨⟨⟩, hone, hrest⟩
      exact ⟨outcome_installOne_eq_ok.1 hone, hrest⟩
    · rintro ⟨hone, hrest⟩
      exact ⟨(), outcome_installOne_eq_ok.2 hone, hrest⟩

/-- a list of charts is installed if the values can be written and each chart is deployed -/
theorem outcome_install_eq_ok {v : Values} {charts : List String} :
    (install cfg v version o charts).outcome c = .ok () ↔
      (∃ text, v.yaml = .ok text) ∧ ∀ chart ∈ charts, IsDeployed cfg version o c chart := by
  rw [install, (Action.Quiet.of _).outcome_bind_eq_ok]
  constructor
  · rintro ⟨text, htext, h⟩
    exact ⟨⟨text, htext⟩, outcome_installEach_eq_ok.1 h⟩
  · rintro ⟨⟨text, htext⟩, h⟩
    exact ⟨text, htext, outcome_installEach_eq_ok.2 h⟩

end MeshOperator.Chart
