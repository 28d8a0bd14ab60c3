import MeshOperator.Proofs.Chart.Uninstall

/-!
# What is counted of charts

Work on a list of charts begins with them in order, up to the first that it fails at. Each chart that goes
well is counted as a success. A failure is counted only if the directory of the chart is not there or the
chart tool complains about its release; where the tool does not end, or the objects of a release cannot be
stamped, the work fails and nothing is counted.

* `Chart.Task`: installing or uninstalling charts, and what both have in common.
* `Chart.Task.started`: the charts that are begun with.
* `Chart.Task.Complains`: the failures that are counted.
* `Chart.Task.Course`: how the work on a list of charts ends, and what is counted of it.
* `Chart.Task.tallied_once`: each chart that is begun with is counted once, exactly if no failure passes
  uncounted.
-/

namespace MeshOperator

/-- whether an entry counts an operation on a chart -/
def Entry.isTally : Entry → Bool
  | .count (.chart ..) => true
  | _ => false

/-- whether an entry counts an operation that failed -/
def Entry.isFailure : Entry → Bool
  | .count (.chart _ success) => !success
  | _ => false

namespace Action

variable {α β : Type} {a : Action α} {f : α → Action β} (c : Cluster)

/-- the operations on charts that an action counts, in order -/
def tallies (a : Action α) (c : Cluster) : List Entry := a.picked Entry.isTally c

theorem not_isTally_of_outside (e : Entry) (h : e.deed ∈ [Deed.toolRun, .objectPatch]) : e.isTally = false := by
  cases e with
  | count m => exact absurd h (by simp [Entry.deed])
  | _ => rfl

theorem Quiet.tallies_bind (ha : a.Quiet) : (a >>= f).tallies c = a.tallies c ++
    match a.outcome c with
    | .ok x => (f x).tallies c
    | .error _ => [] :=
  ha.picked_bind c

/-- after an action that changes nothing and counts nothing, what follows it counts, if it does -/
theorem tallies_bind_of_silent (ha : a.Quiet) (hsilent : a.tallies c = []) (f : α → Action β) :
    (a >>= f).tallies c =
      match a.outcome c with
      | .ok x => (f x).tallies c
      | .error _ => [] := by
  rw [ha.tallies_bind, hsilent, List.nil_append]

end Action

namespace Chart

open MeshOperator.Action (Quiet)

variable {cfg : Config} {c : Cluster} {chart text : String} {version : Data} {o : Owner} {k : Key}

/-- the count of an operation on a chart -/
def tally (operation : ChartOperation) (success : Bool) : Entry := .count (.chart operation success)

/-! ### Parts of the work -/

theorem tallies_counted {α : Type} (operation : ChartOperation) (x : Except Fault α) :
    (counted operation x).tallies c =
      match x with
      | .ok _ => []
      | .error _ => [tally operation false] := by
  cases x <;> rfl

theorem tallies_runTool (operation : ChartOperation) (command : ToolCommand) (input : Option String) :
    (runTool cfg chart operation command input).tallies c = [] :=
  (steady_runTool (p := (·.deed ∈ [Deed.toolRun, .objectPatch])) cfg chart id operation
    (List.mem_cons_self ..)).makes.picked_eq_nil c Action.not_isTally_of_outside

theorem tallies_runInstallTool (command : ToolCommand) (input : Option String) :
    (runInstallTool cfg chart command input).tallies c = [] := by
  rw [runInstallTool, Action.tallies_bind_of_silent c (quiet_runTool ..) (tallies_runTool ..)]
  cases (runTool cfg chart .install command input).outcome c <;> rfl

theorem tallies_stampRelease :
    (stampRelease cfg chart (release o.name chart) o).tallies c = [] := by
  have hmakes : (stampRelease cfg chart (release o.name chart) o).Makes [.toolRun, .objectPatch] :=
    (steady_stampRelease cfg chart o id (fun e he => by simp [he]) fun _ _ => List.mem_cons_self ..).makes
  exact hmakes.picked_eq_nil c Action.not_isTally_of_outside

/-! ### Installing and uninstalling -/

/-- The tool ends, but not well. -/
def IsComplaint : ToolReply → Prop
  | .ended code _ _ => code ≠ 0
  | _ => False

theorem isComplaint_iff {reply : ToolReply} :
    IsComplaint reply ↔ ∃ code output errors, reply = .ended code output errors ∧ code ≠ 0 := by
  cases reply <;> simp [IsComplaint]

theorem outcome_runTool_eq_ok {operation : ChartOperation} {command : ToolCommand} {input : Option String}
    {code : Int} {output errors : String} :
    (runTool cfg chart operation command input).outcome c = .ok (code, output, errors) ↔
      c.reply command.verb command.release = .ended code output errors := by
  rw [outcome_runTool]
  cases c.reply command.verb command.release <;> simp

theorem outcome_runInstallTool_eq_complaint {command : ToolCommand} {input : Option String} :
    (∃ f, (runInstallTool cfg chart command input).outcome c = .ok (.error f)) ↔
      IsComplaint (c.reply command.verb command.release) := by
  rw [runInstallTool, (quiet_runTool ..).outcome_bind, outcome_runTool]
  cases c.reply command.verb command.release with
  | ended code output errors => by_cases h : code = 0 <;> simp [IsComplaint, h, ok_bind]
  | _ => simp [IsComplaint, error_bind]

/-- What is done with a list of charts. -/
inductive Task where
  | install (values : Values) (version : Data) (owner : Owner)
  | uninstall (owner : Key)

namespace Task

/-- the work on a list of charts -/
def run (cfg : Config) (charts : List String) : Task → Action Unit
  | install values version owner => Chart.install cfg values version owner charts
  | uninstall owner => Chart.uninstall cfg owner charts

/-- what is counted of it -/
def operation : Task → ChartOperation
  | install .. => .install
  | uninstall _ => .uninstall

/-- the work on one chart, if the values can be written -/
def one (cfg : Config) : Task → Except Fault (String → Action Unit)
  | install values version owner => values.yaml.map fun text => installOne cfg text version owner
  | uninstall owner => .ok (uninstallOne cfg owner)

/-- the work on one chart ends well -/
def goesPast (cfg : Config) (c : Cluster) (w : Task) (chart : String) : Bool :=
  match w.one cfg with
  | .ok one => ((one chart).outcome c).isOk
  | .error _ => false

/-- the charts that are begun with: all up to the first that the work fails at, and that one too -/
def started (cfg : Config) (c : Cluster) (charts : List String) (w : Task) : List String :=
  match w.one cfg with
  | .ok _ => tried (w.goesPast cfg c) charts
  | .error _ => []

/-- A failure that is counted: the directory of the chart is not there, or the chart tool ends with a
complaint. -/
def Complains (cfg : Config) (c : Cluster) (chart : String) : Task → Prop
  | install _ version owner =>
    ∃ path, pathOf cfg.resources version chart = .ok path ∧
      (c.hasChart path = false ∨ (∃ n, orFault .number cfg.helmTimeout.toInteger = .ok n) ∧
        IsComplaint (c.reply "upgrade" (release owner.name chart)))
  | uninstall owner => IsComplaint (uninstallReply c owner chart) ∧ ¬ Passes (uninstallReply c owner chart)

end Task

/-! ### One chart -/

/-- What is counted of one chart: a success, and a failure if the tool or the directory complains. -/
inductive Tallied (operation : ChartOperation) (complains : Prop) : Except Fault Unit → List Entry → Prop
  | success : Tallied operation complains (.ok ()) [tally operation true]
  | failure (h : complains) (f : Fault) : Tallied operation complains (.error f) [tally operation false]
  | uncounted (h : ¬ complains) (f : Fault) : Tallied operation complains (.error f) []

namespace Tallied

variable {α : Type} {operation : ChartOperation} {complains : Prop} {a : Action α} {f : α → Action Unit}

theorem eq_of_ok {tallies : List Entry} (h : Tallied operation complains (.ok ()) tallies) :
    tallies = [tally operation true] := by
  cases h
  rfl

/-- what follows a part that counts nothing is counted; where this part fails nothing is -/
theorem bind (ha : a.Quiet) (hsilent : a.tallies c = [])
    (hfails : ∀ fault, a.outcome c = .error fault → ¬ complains)
    (hgoes : ∀ x, a.outcome c = .ok x → Tallied operation complains ((f x).outcome c) ((f x).tallies c)) :
    Tallied operation complains ((a >>= f).outcome c) ((a >>= f).tallies c) := by
  rw [ha.outcome_bind, Action.tallies_bind_of_silent c ha hsilent]
  cases h : a.outcome c with
  | ok x => exact hgoes x h
  | error fault => exact .uncounted (hfails fault h) fault

/-- a failure that is counted ends the work -/
theorem counted_bind {x : Except Fault α} (hfails : ∀ fault, x = .error fault → complains)
    (hgoes : ∀ y, x = .ok y → Tallied operation complains ((f y).outcome c) ((f y).tallies c)) :
    Tallied operation complains ((counted operation x >>= f).outcome c)
      ((counted operation x >>= f).tallies c) := by
  rw [(quiet_counted ..).outcome_bind, (quiet_counted ..).tallies_bind, outcome_counted, tallies_counted]
  cases x with
  | ok y => exact hgoes y rfl
  | error fault => exact .failure (hfails fault rfl) fault

end Tallied

/-- once the release is made, no failure is counted any more -/
theorem tallied_installOne (v : Values) :
    Tallied .install (Task.Complains cfg c chart (.install v version o))
      ((installOne cfg text version o chart).outcome c) ((installOne cfg text version o chart).tallies c) := by
  refine .bind (.of _) rfl (fun f hf => ?_) fun path hpath => ?_
  · rintro ⟨path, hpath, -⟩
    cases hf.symm.trans hpath
  have hcomplains : Task.Complains cfg c chart (.install v version o) ↔
      c.hasChart path = false ∨ (∃ n, orFault .number cfg.helmTimeout.toInteger = .ok n) ∧
        IsComplaint (c.reply "upgrade" (release o.name chart)) := by
    constructor
    · rintro ⟨path', hpath', h⟩
      cases hpath'.symm.trans hpath
      exact h
    · intro h
      exact ⟨path, hpath, h⟩
  rw [hcomplains]
  refine .bind .cluster rfl (fun f hf => by cases hf) fun _ hcluster => ?_
  cases hcluster
  cases hdirectory : c.hasChart path with
  | false => exact .counted_bind (fun _ _ => .inl rfl) fun _ h => by cases h
  | true =>
    simp only [Bool.true_eq_false, false_or]
    refine .counted_bind (fun f hf => by cases hf) fun _ _ => ?_
    refine .bind (.of _) rfl (fun f hf => ?_) fun limit hlimit => ?_
    · rintro ⟨⟨n, hn⟩, -⟩
      cases hf.symm.trans hn
    have hupgrade : (∃ f, (runInstallTool cfg chart (.upgrade (release o.name chart) path o.ns limit)
        (some text)).outcome c = .ok (.error f)) ↔ IsComplaint (c.reply "upgrade" (release o.name chart)) :=
      outcome_runInstallTool_eq_complaint
    refine .bind (quiet_runInstallTool ..) (tallies_runInstallTool ..) (fun f hf => ?_) fun answer hanswer => ?_
    · rintro ⟨-, hcomplaint⟩
      obtain ⟨g, hg⟩ := hupgrade.2 hcomplaint
      cases hf.symm.trans hg
    refine .counted_bind (fun f hf => ⟨⟨limit, hlimit⟩, hupgrade.1 ⟨f, hf ▸ hanswer⟩⟩) fun output houtput => ?_
    -- from here on no failure is counted
    refine .bind (.log ..) rfl (fun f hf => by cases hf) fun _ _ => ?_
    refine .bind (quiet_stampRelease ..) tallies_stampRelease (fun _ _ => ?_) fun _ _ => .success
    rintro ⟨-, hcomplaint⟩
    obtain ⟨g, hg⟩ := hupgrade.2 hcomplaint
    rw [houtput] at hanswer
    cases hanswer.symm.trans hg

theorem tallied_uninstallOne :
    Tallied .uninstall (Task.Complains cfg c chart (.uninstall k))
      ((uninstallOne cfg k chart).outcome c) ((uninstallOne cfg k chart).tallies c) := by
  refine .bind (quiet_runTool ..) (tallies_runTool ..) (fun f hf => ?_) fun answer hanswer => ?_
  · rintro ⟨hcomplaint, -⟩
    obtain ⟨code, output, errors, hreply, -⟩ := isComplaint_iff.1 hcomplaint
    cases hf.symm.trans (outcome_runTool_eq_ok.2 hreply)
  obtain ⟨code, output, errors⟩ := answer
  have hended := outcome_runTool_eq_ok.1 hanswer
  have hreply : uninstallReply c k chart = .ended code output errors := hended
  rw [Task.Complains, hreply]
  dsimp only
  by_cases hcode : code = 0
  · rw [if_neg (not_not_intro hcode)]
    exact .success
  · rw [if_pos hcode, passOver, Action.bind_assoc]
    have hpasses : Passes (.ended code output errors) ↔
        Text.occurs notFoundWords (Text.strip errors).toList = true := by
      rw [Passes, occurs_notFoundWords_strip]
      exact or_iff_right hcode
    cases hfound : Text.occurs notFoundWords (Text.strip errors).toList with
    | true =>
      refine .counted_bind (fun f hf => by cases hf) fun _ _ => ?_
      exact .bind (.log ..) rfl (fun f hf => by cases hf) fun _ _ => .success
    | false =>
      refine .counted_bind (fun _ _ => ⟨hcode, ?_⟩) fun _ h => by cases h
      rw [hpasses, hfound]
      exact Bool.false_ne_true

/-! ### A list of charts -/

/-- work on charts, one after the other -/
def each (one : String → Action Unit) : List String → Action Unit
  | [] => return ()
  | chart :: rest => do
    one chart
    each one rest

theorem installEach_eq (charts : List String) :
    installEach cfg text version o charts = each (installOne cfg text version o) charts := by
  induction charts with
  | nil => rfl
  | cons chart charts ih => rw [installEach, each, ih]

theorem uninstall_eq (charts : List String) : uninstall cfg k charts = each (uninstallOne cfg k) charts := by
  induction charts with
  | nil => rfl
  | cons chart charts ih => rw [uninstall, each, ih]

namespace Task

variable {w : Task} {charts : List String} {one : String → Action Unit}

/-- what the work on one chart is -/
theorem one_cases (h : w.one cfg = .ok one) :
    (∃ v version o text, w = install v version o ∧ v.yaml = .ok text ∧ one = installOne cfg text version o) ∨
      ∃ k, w = uninstall k ∧ one = uninstallOne cfg k := by
  cases w with
  | install v version o =>
    cases hyaml : v.yaml with
    | error f => simp [Task.one, hyaml, Except.map] at h
    | ok text =>
      simp only [Task.one, hyaml, Except.map, Except.ok.injEq] at h
      exact .inl ⟨v, version, o, text, rfl, hyaml, h.symm⟩
  | uninstall k =>
    cases h
    exact .inr ⟨k, rfl, rfl⟩

theorem run_of_one (h : w.one cfg = .ok one) : w.run cfg charts = each one charts := by
  obtain ⟨v, version, o, text, rfl, hyaml, rfl⟩ | ⟨k, rfl, rfl⟩ := one_cases h
  · rw [run, Chart.install, hyaml, ← installEach_eq]
    rfl
  · exact uninstall_eq charts

theorem run_of_unwritten {f : Fault} (h : w.one cfg = .error f) : w.run cfg charts = throw f := by
  cases w with
  | uninstall o => cases h
  | install v version o =>
    have hyaml : v.yaml = .error f := by
      cases hyaml : v.yaml <;> simp_all [Task.one, Except.map]
    rw [run, Chart.install, hyaml]
    rfl

theorem quiet_one (h : w.one cfg = .ok one) (chart : String) : (one chart).Quiet := by
  obtain ⟨v, version, o, text, rfl, -, rfl⟩ | ⟨k, rfl, rfl⟩ := one_cases h
  · exact quiet_installOne ..
  · exact quiet_uninstallOne ..

theorem tallied_one (h : w.one cfg = .ok one) (c : Cluster) (chart : String) :
    Tallied w.operation (w.Complains cfg c chart) ((one chart).outcome c) ((one chart).tallies c) := by
  obtain ⟨v, version, o, text, rfl, -, rfl⟩ | ⟨k, rfl, rfl⟩ := one_cases h
  · exact tallied_installOne v
  · exact tallied_uninstallOne

/-- How work on charts ends, and what is counted of it. -/
inductive Course (cfg : Config) (c : Cluster) (w : Task) (charts : List String) :
    Except Fault Unit → List Entry → Prop
  /-- the values cannot be written, and no chart is begun with -/
  | unwritten {f : Fault} (h : w.one cfg = .error f) : Course cfg c w charts (.error f) []
  /-- the work goes past all charts, each counted as a success -/
  | past {one : String → Action Unit} (h : w.one cfg = .ok one)
      (hall : ∀ chart ∈ charts, (one chart).outcome c = .ok ()) :
      Course cfg c w charts (.ok ()) (charts.map fun _ => tally w.operation true)
  /-- the work fails at a chart, which is counted if its failure is -/
  | stopped {one : String → Action Unit} {done rest : List String} {chart : String} {f : Fault}
      {last : List Entry} (h : w.one cfg = .ok one) (hcharts : charts = done ++ chart :: rest)
      (hdone : ∀ chart ∈ done, (one chart).outcome c = .ok ()) (hchart : (one chart).outcome c = .error f)
      (hlast : Tallied w.operation (w.Complains cfg c chart) (.error f) last) :
      Course cfg c w charts (.error f) ((done.map fun _ => tally w.operation true) ++ last)

/-- a chart that goes well is counted, and the work goes on -/
theorem course_each (h : w.one cfg = .ok one) (charts : List String) :
    Course cfg c w charts ((each one charts).outcome c) ((each one charts).tallies c) := by
  induction charts with
  | nil => exact .past h fun _ hnil => by cases hnil
  | cons chart charts ih =>
    rw [each, (quiet_one h chart).outcome_bind, (quiet_one h chart).tallies_bind]
    have hone := tallied_one h c chart
    cases houtcome : (one chart).outcome c with
    | error f =>
      rw [houtcome] at hone
      rw [error_bind]
      dsimp only
      rw [List.append_nil]
      exact @Course.stopped cfg c w _ one [] charts chart f _ h rfl (fun _ hnil => by cases hnil) houtcome hone
    | ok u =>
      rw [houtcome] at hone
      rw [ok_bind, Tallied.eq_of_ok hone]
      dsimp only
      generalize (each one charts).outcome c = outcome at ih ⊢
      generalize (each one charts).tallies c = tallies at ih ⊢
      cases ih with
      | unwritten hf => cases h.symm.trans hf
      | past hone' hall =>
        cases h.symm.trans hone'
        exact .past h (List.forall_mem_cons.2 ⟨houtcome, hall⟩)
      | stopped hone' hcharts hdone hchart hlast =>
        cases h.symm.trans hone'
        subst hcharts
        exact .stopped h rfl (List.forall_mem_cons.2 ⟨houtcome, hdone⟩) hchart hlast

theorem course_run (cfg : Config) (c : Cluster) (w : Task) (charts : List String) :
    Course cfg c w charts ((w.run cfg charts).outcome c) ((w.run cfg charts).tallies c) := by
  cases h : w.one cfg with
  | error f =>
    rw [run_of_unwritten h]
    exact .unwritten h
  | ok one =>
    rw [run_of_one h]
    exact course_each h charts

/-! ### Counted once -/

/-- Each chart that is begun with is counted once, as a success if the work goes past it and as a failure
if not, and nothing else is; so the failures counted are the calls that fail once their values are
written. -/
structure CountsOnce (cfg : Config) (c : Cluster) (w : Task) (charts : List String) : Prop where
  tallies_eq : (w.run cfg charts).tallies c =
    (w.started cfg c charts).map fun chart => tally w.operation (w.goesPast cfg c chart)
  failures_eq : (w.one cfg).isOk = true → ((w.run cfg charts).tallies c).countP Entry.isFailure =
    if ((w.run cfg charts).outcome c).isOk then 0 else 1

theorem goesPast_eq_true (h : w.one cfg = .ok one) {chart : String} :
    w.goesPast cfg c chart = true ↔ (one chart).outcome c = .ok () := by
  rw [goesPast, h]
  dsimp only
  constructor
  · exact eq_ok_of_isOk
  · intro hone
    rw [hone]
    rfl

theorem map_tally (h : w.one cfg = .ok one) {done : List String}
    (hdone : ∀ chart ∈ done, (one chart).outcome c = .ok ()) :
    (done.map fun chart => tally w.operation (w.goesPast cfg c chart)) =
      done.map fun _ => tally w.operation true :=
  List.map_congr_left fun chart hchart => by rw [(goesPast_eq_true h).2 (hdone chart hchart)]

theorem countP_successes (operation : ChartOperation) (done : List String) :
    (done.map fun _ => tally operation true).countP Entry.isFailure = 0 := by
  rw [List.countP_eq_zero]
  intro e he
  obtain ⟨_, -, rfl⟩ := List.mem_map.1 he
  exact Bool.false_ne_true

theorem started_of_unwritten {f : Fault} (h : w.one cfg = .error f) : w.started cfg c charts = [] := by
  rw [started, h]

theorem started_of_past (h : w.one cfg = .ok one) (hall : ∀ chart ∈ charts, (one chart).outcome c = .ok ()) :
    w.started cfg c charts = charts := by
  rw [started, h]
  exact tried_of_all _ fun chart hchart => (goesPast_eq_true h).2 (hall chart hchart)

theorem countsOnce_of_unwritten {f : Fault} (h : w.one cfg = .error f) : w.CountsOnce cfg c charts := by
  refine ⟨?_, fun hwritten => ?_⟩
  · rw [started_of_unwritten h, run_of_unwritten h]
    rfl
  · rw [h] at hwritten
    cases hwritten

theorem countsOnce_of_past (h : w.one cfg = .ok one)
    (hall : ∀ chart ∈ charts, (one chart).outcome c = .ok ())
    (houtcome : (w.run cfg charts).outcome c = .ok ())
    (htallies : (w.run cfg charts).tallies c = charts.map fun _ => tally w.operation true) :
    w.CountsOnce cfg c charts := by
  refine ⟨?_, fun _ => ?_⟩
  · rw [htallies, started_of_past h hall, map_tally h hall]
  · rw [htallies, houtcome, countP_successes]
    rfl

section Stopped

variable {done rest : List String} {f : Fault} {last : List Entry} (h : w.one cfg = .ok one)
variable (hdone : ∀ d ∈ done, (one d).outcome c = .ok ()) (hchart : (one chart).outcome c = .error f)
include h hchart

theorem goesPast_of_error : w.goesPast cfg c chart = false := by
  rw [goesPast, h]
  dsimp only
  rw [hchart]
  rfl

include hdone

theorem started_of_stopped : w.started cfg c (done ++ chart :: rest) = done ++ [chart] := by
  rw [started, h]
  refine tried_stops _ (fun d hd => (goesPast_eq_true h).2 (hdone d hd)) ?_
  rw [goesPast_of_error h hchart]
  exact Bool.false_ne_true

/-- only the chart that the work fails at can be one that is not counted -/
theorem complains_of_stopped :
    (∀ d ∈ w.started cfg c (done ++ chart :: rest), w.goesPast cfg c d = true ∨ w.Complains cfg c d) ↔
      w.Complains cfg c chart := by
  rw [started_of_stopped h hdone hchart, List.forall_mem_append, List.forall_mem_singleton,
    goesPast_of_error h hchart]
  constructor
  · rintro ⟨-, hlast⟩
    exact hlast.resolve_left Bool.false_ne_true
  · intro hcomplains
    exact ⟨fun d hd => .inl ((goesPast_eq_true h).2 (hdone d hd)), .inr hcomplains⟩

theorem countsOnce_of_stopped (houtcome : (w.run cfg (done ++ chart :: rest)).outcome c = .error f)
    (htallies : (w.run cfg (done ++ chart :: rest)).tallies c =
      (done.map fun _ => tally w.operation true) ++ last)
    (hlast : Tallied w.operation (w.Complains cfg c chart) (.error f) last) :
    w.CountsOnce cfg c (done ++ chart :: rest) ↔ w.Complains cfg c chart := by
  have hdue : ((w.started cfg c (done ++ chart :: rest)).map
      fun d => tally w.operation (w.goesPast cfg c d)) =
      (done.map fun _ => tally w.operation true) ++ [tally w.operation false] := by
    rw [started_of_stopped h hdone hchart, List.map_append, map_tally h hdone, List.map_singleton,
      goesPast_of_error h hchart]
  cases hlast with
  | failure hcomplains =>
    refine iff_of_true ⟨?_, fun _ => ?_⟩ hcomplains
    · rw [htallies, hdue]
    · rw [htallies, houtcome, List.countP_append, countP_successes]
      rfl
  | uncounted hcomplains =>
    refine iff_of_false (fun honce => ?_) hcomplains
    have hsame := honce.tallies_eq
    rw [htallies, hdue, List.append_cancel_left_eq] at hsame
    cases hsame

end Stopped

/-- **What is counted of charts.**  Work on charts counts each chart that it goes past as a success, up to the
first that it fails at; the failure is counted if the directory of the chart is not there or the tool
complains, and not otherwise. So each chart that is begun with is counted once exactly if this holds of all
that the work fails at. -/
theorem tallied_once (cfg : Config) (c : Cluster) (w : Task) (charts : List String) :
    w.Course cfg c charts ((w.run cfg charts).outcome c) ((w.run cfg charts).tallies c) ∧
    (w.CountsOnce cfg c charts ↔
      ∀ chart ∈ w.started cfg c charts, w.goesPast cfg c chart = true ∨ w.Complains cfg c chart) := by
  refine ⟨course_run cfg c w charts, ?_⟩
  have hcourse := course_run cfg c w charts
  generalize houtcome : (w.run cfg charts).outcome c = outcome at hcourse
  generalize htallies : (w.run cfg charts).tallies c = tallies at hcourse
  cases hcourse with
  | unwritten h =>
    refine iff_of_true (countsOnce_of_unwritten h) ?_
    rw [started_of_unwritten h]
    exact fun _ hnil => by cases hnil
  | past h hall =>
    refine iff_of_true (countsOnce_of_past h hall houtcome htallies) ?_
    rw [started_of_past h hall]
    exact fun chart hchart => .inl ((goesPast_eq_true h).2 (hall chart hchart))
  | stopped h hcharts hdone hchart hlast =>
    subst hcharts
    rw [countsOnce_of_stopped h hdone hchart houtcome htallies hlast]
    exact (complains_of_stopped h hdone hchart).symm

end Task

end Chart

/-- a cluster without the chart tool -/
def Cluster.toolless : Cluster := { bare (.zero false) with replies := [("upgrade", .missing)] }

open Chart in
/-- installing a chart there fails, and no operation is counted -/
theorem Cluster.not_countsOnce_toolless :
    let w := Task.install .empty (.text "v1")
      ⟨.text "default", .text "istio-system", .object [("name", .text "default")]⟩
    w.started .standard toolless ["base"] = ["base"] ∧
      ((w.run .standard ["base"]).outcome toolless).isOk = false ∧
      (w.run .standard ["base"]).tallies toolless = [] ∧ ¬ w.CountsOnce .standard toolless ["base"] := by
  intro w
  have hstarted : w.started .standard toolless ["base"] = ["base"] := by decide +kernel
  have htallies : (w.run .standard ["base"]).tallies toolless = [] :=
    List.eq_nil_of_length_eq_zero (by decide +kernel)
  refine ⟨hstarted, by decide +kernel, htallies, fun honce => ?_⟩
  have hsame := honce.tallies_eq
  rw [htallies, hstarted] at hsame
  cases hsame

end MeshOperator
