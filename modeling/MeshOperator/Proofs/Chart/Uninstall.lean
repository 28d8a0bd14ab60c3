import MeshOperator.Proofs.Chart.Install
import MeshOperator.Proofs.Text.Occurrence

/-!
# When charts are uninstalled

The release of a chart that was never installed is not there, and the chart tool complains about it. Such
a complaint is passed over; it is known by its words, and so are complaints about other things that are
not found.

* `Chart.Passes`: the replies that an uninstall passes over.
* `Chart.Fails`, `Chart.IsMisread`: a release that is there was not removed, and this is not noticed.
* `Chart.outcome_uninstall_eq_ok`: a list of charts is uninstalled if every reply is passed over.
* `Chart.outcome_uninstall_append`: otherwise the first other reply ends the work.
-/

namespace MeshOperator.Chart

variable {cfg : Config} {c : Cluster} {o : Key} {chart : String} {reply : ToolReply}

/-- the complaint that a release is not there -/
def noReleaseWords : List Char := "release: not found".toList

/-- how the chart tool replies when the release of a chart is to be removed -/
def uninstallReply (c : Cluster) (o : Key) (chart : String) : ToolReply :=
  c.reply "uninstall" (release o.name chart)

/-- The tool ends well, or complains that something is not found. -/
def Passes : ToolReply → Prop
  | .ended code _ errors => code = 0 ∨ Text.occurs notFoundWords errors.toList = true
  | _ => False

/-- The tool does not remove a release that is there: it does not end, or complains of anything but that
the release is not there. -/
def Fails : ToolReply → Prop
  | .ended code _ errors => code ≠ 0 ∧ ¬ Text.occurs noReleaseWords errors.toList = true
  | _ => True

/-- The tool complains that something is not found, which is not the release. -/
def IsMisread : ToolReply → Prop
  | .ended code _ errors => code ≠ 0 ∧ Text.occurs notFoundWords errors.toList = true ∧
      ¬ Text.occurs noReleaseWords errors.toList = true
  | _ => False

instance : DecidablePred Passes
  | .ended code _ errors =>
    inferInstanceAs (Decidable (code = 0 ∨ Text.occurs notFoundWords errors.toList = true))
  | .missing | .forbidden | .tooSlow => inferInstanceAs (Decidable False)

instance : DecidablePred Fails
  | .ended code _ errors =>
    inferInstanceAs (Decidable (code ≠ 0 ∧ ¬ Text.occurs noReleaseWords errors.toList = true))
  | .missing | .forbidden | .tooSlow => inferInstanceAs (Decidable True)

theorem notFoundWords_within : notFoundWords <:+: noReleaseWords :=
  ⟨"release: ".toList, [], by decide⟩

/-- what is passed over is no failure, or is misread -/
theorem passes_iff : Passes reply ↔ ¬ Fails reply ∨ IsMisread reply := by
  cases reply with
  | ended code output errors =>
    have hwords : Text.occurs noReleaseWords errors.toList = true →
        Text.occurs notFoundWords errors.toList = true :=
      Text.occurs_of_infix notFoundWords_within
    simp only [Passes, Fails, IsMisread]
    by_cases hcode : code = 0
    · simp [hcode]
    · by_cases hrelease : Text.occurs noReleaseWords errors.toList = true
      · simp [hcode, hrelease, hwords hrelease]
      · simp [hcode, hrelease]
  | missing => simp [Passes, Fails, IsMisread]
  | forbidden => simp [Passes, Fails, IsMisread]
  | tooSlow => simp [Passes, Fails, IsMisread]

/-! ### One chart -/

theorem outcome_passOver (complaint : String) :
    (passOver o chart complaint).outcome c =
      if Text.occurs notFoundWords complaint.toList then .ok ()
      else .error (fault chart .uninstall complaint) := by
  rw [passOver, (quiet_counted ..).outcome_bind, outcome_counted]
  split <;> rfl

theorem occurs_notFoundWords_strip (s : String) :
    Text.occurs notFoundWords (Text.strip s).toList = Text.occurs notFoundWords s.toList :=
  Text.occurs_strip (by decide) (by decide)

/-- a run that ends is passed over, or its complaint is the fault -/
theorem outcome_uninstallOne_of_ended {code : Int} {output errors : String}
    (h : uninstallReply c o chart = .ended code output errors) :
    (uninstallOne cfg o chart).outcome c =
      if code = 0 ∨ Text.occurs notFoundWords errors.toList = true then .ok ()
      else .error (fault chart .uninstall (Text.strip errors)) := by
  have hrun : (runTool cfg chart .uninstall (.uninstall (release o.name chart) o.ns) none).outcome c =
      .ok (code, output, errors) := by
    rw [uninstallReply] at h
    rw [outcome_runTool, ToolCommand.verb, ToolCommand.release, h]
  rw [uninstallOne, (quiet_runTool ..).outcome_bind, hrun, ok_bind]
  by_cases hcode : code = 0
  · simp [hcode]
  · simp only [hcode, ne_eq, not_false_eq_true, if_true, false_or,
      (quiet_passOver _ _ _).outcome_bind, outcome_passOver, occurs_notFoundWords_strip]
    split <;> rfl

theorem outcome_uninstallOne_eq_ok :
    (uninstallOne cfg o chart).outcome c = .ok () ↔
      Passes (uninstallReply c o chart) := by
  cases h : uninstallReply c o chart with
  | ended code output errors =>
    rw [outcome_uninstallOne_of_ended h, Passes]
    split
    · simp_all
    · simp_all
  | _ =>
    rw [uninstallReply] at h
    rw [uninstallOne, (quiet_runTool ..).outcome_bind, outcome_runTool, ToolCommand.verb,
      ToolCommand.release, h]
    simp [Passes, error_bind]

/-! ### A list of charts -/

theorem outcome_uninstall_eq_ok {charts : List String} :
    (uninstall cfg o charts).outcome c = .ok () ↔
      ∀ chart ∈ charts, Passes (uninstallReply c o chart) := by
  induction charts with
  | nil => simp [uninstall]
  | cons chart charts ih =>
    rw [uninstall, (quiet_uninstallOne ..).outcome_bind_eq_ok, List.forall_mem_cons, ← ih]
    constructor
    · rintro ⟨⟨⟩, hone, hrest⟩
      exact ⟨outcome_uninstallOne_eq_ok.1 hone, hrest⟩
    · rintro ⟨hone, hrest⟩
      exact ⟨(), outcome_uninstallOne_eq_ok.2 hone, hrest⟩

/-- charts whose replies are passed over do not matter for how the work on a list ends -/
theorem outcome_uninstall_append {done charts : List String}
    (h : ∀ chart ∈ done, Passes (uninstallReply c o chart)) :
    (uninstall cfg o (done ++ charts)).outcome c = (uninstall cfg o charts).outcome c := by
  induction done with
  | nil => rfl
  | cons chart done ih =>
    rw [List.forall_mem_cons] at h
    rw [List.cons_append, uninstall, (quiet_uninstallOne ..).outcome_bind,
      outcome_uninstallOne_eq_ok.2 h.1, ok_bind, ih h.2]

/-- a complaint that is not passed over ends the work at its chart -/
theorem outcome_uninstall_of_failed {charts : List String} {code : Int} {output errors : String}
    (h : uninstallReply c o chart = .ended code output errors)
    (hfailed : ¬ Passes (.ended code output errors)) :
    (uninstall cfg o (chart :: charts)).outcome c =
      .error (fault chart .uninstall (Text.strip errors)) := by
  have hnot : ¬ (code = 0 ∨ Text.occurs notFoundWords errors.toList = true) := hfailed
  rw [uninstall, (quiet_uninstallOne ..).outcome_bind, outcome_uninstallOne_of_ended h,
    if_neg hnot, error_bind]

end MeshOperator.Chart
