import Mathlib.Tactic.ByContra
import MeshOperator.Chart.Path
import MeshOperator.Proofs.Text.Cutting

/-!
# Where the directories of charts are

The parts of a path lead from one place to the next, and `..` leads out again. So a chart is within the
resources, wherever these are, exactly if its version is a path of its own that never leads out of where it
begins.

* `Chart.placeOf`: the place that a path leads to.
* `Chart.LiesBelow`: a path leads to a place within a directory.
* `Chart.StaysInside`: a version does not begin at the root, and leads out of no directory.
* `Chart.placeOf_path`: where the directory of a chart is.
* `Chart.liesBelow_path_iff`: it is within the resources, wherever these are, exactly for such versions.
-/

namespace MeshOperator.Chart

/-! ### Resolving a path -/

/-- A path begins at the root. -/
def isRooted (path : String) : Bool := path.toList.head? = some '/'

/-- Where a part of a path leads from a place, which is told by its names, the innermost first. `..` leads
out of the innermost name; where there is none left it leads further out, but not out of the root. -/
def enter (rooted : Bool) (place : List String) (part : String) : List String :=
  if part = "" ∨ part = "." then place
  else if part = ".." then
    match place with
    | [] => if rooted then [] else [".."]
    | name :: outer => if name = ".." then ".." :: place else outer
  else part :: place

/-- the place that the parts of a path lead to -/
def enterAll (rooted : Bool) (place : List String) (path : String) : List String :=
  (Text.pieces '/' path).foldl (enter rooted) place

/-- The place that a path leads to, with `.` and `..` resolved. -/
def placeOf (path : String) : List String := enterAll (isRooted path) [] path

/-- A path leads to a place within a directory. -/
def LiesBelow (directory path : String) : Prop :=
  isRooted path = isRooted directory ∧
    ∃ names, names ≠ [] ∧ ".." ∉ names ∧ placeOf path = names ++ placeOf directory

/-- A path does not begin at the root, and does not lead out of where it begins. -/
def StaysInside (path : String) : Prop := isRooted path = false ∧ ".." ∉ placeOf path

instance (path : String) : Decidable (StaysInside path) :=
  inferInstanceAs (Decidable (isRooted path = false ∧ ".." ∉ placeOf path))

/-- what lies below a directory has the same outermost name -/
theorem LiesBelow.getLast?_eq {directory path : String} (h : LiesBelow directory path)
    (hplace : placeOf directory ≠ []) : (placeOf path).getLast? = (placeOf directory).getLast? := by
  obtain ⟨-, names, -, -, hnames⟩ := h
  obtain ⟨outer, name, hname⟩ := (List.eq_nil_or_concat _).resolve_left hplace
  rw [hnames, hname]
  simp

/-- A single name, as those of charts are. -/
structure IsName (part : String) : Prop where
  no_slash : '/' ∉ part.toList
  ne_empty : part ≠ ""
  ne_here : part ≠ "."
  ne_out : part ≠ ".."

/-! ### Parts one after the other -/

section Enter

variable {rooted : Bool} {place base names : List String} {part path : String}

theorem enter_of_stays (h : part = "" ∨ part = ".") : enter rooted place part = place := if_pos h

theorem enter_out : enter rooted (part :: place) ".." = if part = ".." then ".." :: part :: place else place := by
  simp [enter]

theorem enter_of_name (hstays : ¬ (part = "" ∨ part = ".")) (hout : part ≠ "..") :
    enter rooted place part = part :: place := by
  unfold enter
  rw [if_neg hstays, if_neg hout]

/-- what leads out of the beginning of a path is not taken back -/
theorem mem_enter (h : ".." ∈ place) (part : String) : ".." ∈ enter false place part := by
  by_cases hstays : part = "" ∨ part = "."
  · rwa [enter_of_stays hstays]
  · by_cases hout : part = ".."
    · subst hout
      cases place with
      | nil => cases h
      | cons name outer =>
        rw [enter_out]
        split
        · exact List.mem_cons_self ..
        · rename_i hname
          exact (List.mem_cons.1 h).resolve_left (Ne.symm hname)
    · rw [enter_of_name hstays hout]
      exact List.mem_cons_of_mem _ h

theorem mem_foldl_enter (h : ".." ∈ place) (parts : List String) : ".." ∈ parts.foldl (enter false) place := by
  induction parts generalizing place with
  | nil => exact h
  | cons part parts ih => exact ih (mem_enter h part)

/-- parts that never lead out of where they begin lead to the same names from any other place -/
theorem foldl_enter_append {parts : List String} (h : ".." ∉ parts.foldl (enter false) names) :
    parts.foldl (enter rooted) (names ++ base) = parts.foldl (enter false) names ++ base := by
  induction parts generalizing names with
  | nil => rfl
  | cons part parts ih =>
    rw [List.foldl_cons] at h ⊢
    have hnames : ".." ∉ names := fun hmem => h (mem_foldl_enter (mem_enter hmem part) parts)
    rw [List.foldl_cons, ← ih h]
    congr 1
    by_cases hstays : part = "" ∨ part = "."
    · rw [enter_of_stays hstays, enter_of_stays hstays]
    · by_cases hout : part = ".."
      · subst hout
        cases names with
        | nil => exact absurd (mem_foldl_enter (List.mem_singleton_self "..") parts) h
        | cons name outer =>
          have hname : name ≠ ".." := fun he => hnames (he ▸ List.mem_cons_self ..)
          rw [List.cons_append, enter_out, enter_out, if_neg hname, if_neg hname]
      · rw [enter_of_name hstays hout, enter_of_name hstays hout, List.cons_append]

/-- Parts that lead out of a directory end in a place that does not depend on its name. -/
theorem exists_foldl_enter {parts : List String} (hnames : ".." ∉ names)
    (h : ".." ∈ parts.foldl (enter false) names) :
    ∃ place, ∀ directory, directory ≠ ".." → parts.foldl (enter true) (names ++ [directory]) = place := by
  induction parts generalizing names with
  | nil => exact absurd h hnames
  | cons part parts ih =>
    rw [List.foldl_cons] at h
    by_cases hstays : part = "" ∨ part = "."
    · rw [enter_of_stays hstays] at h
      obtain ⟨place, hplace⟩ := ih hnames h
      exact ⟨place, fun d hd => by rw [List.foldl_cons, enter_of_stays hstays, hplace d hd]⟩
    · by_cases hout : part = ".."
      · subst hout
        cases names with
        | nil =>
          -- here the directory is left
          refine ⟨parts.foldl (enter true) [], fun d hd => ?_⟩
          rw [List.nil_append, List.foldl_cons, enter_out, if_neg hd]
        | cons name outer =>
          rw [List.mem_cons, not_or] at hnames
          rw [enter_out, if_neg (Ne.symm hnames.1)] at h
          obtain ⟨place, hplace⟩ := ih hnames.2 h
          refine ⟨place, fun d hd => ?_⟩
          rw [List.cons_append, List.foldl_cons, enter_out, if_neg (Ne.symm hnames.1), hplace d hd]
      · rw [enter_of_name hstays hout] at h
        have hnames' : ".." ∉ part :: names := by
          rw [List.mem_cons, not_or]
          exact ⟨Ne.symm hout, hnames⟩
        obtain ⟨place, hplace⟩ := ih hnames' h
        refine ⟨place, fun d hd => ?_⟩
        rw [List.foldl_cons, enter_of_name hstays hout]
        exact hplace d hd

end Enter

/-! ### Paths made of parts -/

section Join

variable {path part : String}

theorem pieces_append (path part : String) :
    Text.pieces '/' (path ++ "/" ++ part) = Text.pieces '/' path ++ Text.pieces '/' part := by
  simp [Text.pieces, Text.cut_append]

theorem enterAll_append (rooted : Bool) (place : List String) (path part : String) :
    enterAll rooted place (path ++ "/" ++ part) = enterAll rooted (enterAll rooted place path) part := by
  rw [enterAll, pieces_append, List.foldl_append]
  rfl

theorem enterAll_empty (rooted : Bool) (place : List String) : enterAll rooted place "" = place := by
  rfl

/-- a part behind a slash leads on from where the path leads -/
theorem enterAll_of_slash (h : path.toList.getLast? = some '/') (rooted : Bool) (place : List String)
    (part : String) : enterAll rooted place (path ++ part) = enterAll rooted (enterAll rooted place path) part := by
  obtain ⟨front, hfront⟩ := List.getLast?_eq_some_iff.1 h
  have hpath : path = String.ofList front ++ "/" ++ "" := by
    rw [← String.toList_inj, hfront]
    simp
  have hlonger : path ++ part = String.ofList front ++ "/" ++ part := by
    rw [hpath, String.append_empty]
  rw [hlonger, enterAll_append]
  congr 1
  rw [hpath, enterAll_append, enterAll_empty]

theorem isRooted_append (h : path ≠ "") (part : String) : isRooted (path ++ part) = isRooted path := by
  have hne : path.toList ≠ [] := by simpa using h
  obtain ⟨c, cs, hcs⟩ := List.exists_cons_of_ne_nil hne
  simp [isRooted, hcs]

/-- the slash behind a path, where it does not end with one -/
def slashAfter (path : String) : String :=
  if path = "" ∨ path.toList.getLast? = some '/' then "" else "/"

/-- a part that begins at the root starts the path anew -/
theorem join_of_rooted (h : isRooted part = true) (path : String) : join path part = part := by
  have hpart : part.toList.head? = some '/' := by simpa [isRooted] using h
  rw [join, if_pos hpart]

theorem join_of_not_rooted (h : isRooted part = false) (path : String) :
    join path part = path ++ slashAfter path ++ part := by
  have hpart : ¬ part.toList.head? = some '/' := by simpa [isRooted] using h
  rw [join, if_neg hpart, slashAfter]
  simp only [Bool.or_eq_true, decide_eq_true_eq]
  split <;> simp

theorem isRooted_join (h : isRooted part = false) (path : String) : isRooted (join path part) = isRooted path := by
  rw [join_of_not_rooted h, String.append_assoc]
  by_cases hpath : path = ""
  · subst hpath
    exact h
  · exact isRooted_append hpath _

/-- a part that does not begin at the root leads on from where the path leads -/
theorem placeOf_join (h : isRooted part = false) (path : String) :
    placeOf (join path part) = enterAll (isRooted path) (placeOf path) part := by
  rw [placeOf, isRooted_join h, join_of_not_rooted h, slashAfter]
  split
  · rename_i hends
    rw [String.append_empty]
    rcases hends with hempty | hslash
    · subst hempty
      rw [String.empty_append]
      rfl
    · exact enterAll_of_slash hslash ..
  · exact enterAll_append ..

end Join

/-! ### The directory of a chart -/

section Path

variable {resources version chart part : String}

/-- a name leads into a directory -/
theorem IsName.enterAll_eq (h : IsName chart) (rooted : Bool) (place : List String) :
    enterAll rooted place chart = chart :: place := by
  rw [enterAll, Text.pieces, Text.cut_of_notMem h.no_slash]
  simpa using enter_of_name (not_or.2 ⟨h.ne_empty, h.ne_here⟩) h.ne_out

theorem IsName.isRooted_eq (h : IsName chart) : isRooted chart = false :=
  decide_eq_false fun hrooted => h.no_slash (List.mem_of_mem_head? hrooted)

theorem isName_charts : IsName "charts" := ⟨by decide, by decide, by decide, by decide⟩

/-- what a part ends with is what the path ends with -/
theorem slashAfter_join (hpart : part ≠ "") (hrooted : isRooted part = false) (path : String) :
    slashAfter (join path part) = slashAfter part := by
  have hlast : (join path part).toList.getLast? = part.toList.getLast? := by
    obtain ⟨front, c, hc⟩ := List.eq_nil_or_concat part.toList |>.resolve_left (by simpa using hpart)
    rw [join_of_not_rooted hrooted, String.toList_append, hc, List.getLast?_append]
    simp
  have hjoin : join path part ≠ "" := by
    rw [join_of_not_rooted hrooted]
    simp [hpart]
  simp only [slashAfter, hlast, hpart, hjoin]

/-- the directory of a chart is written as the resources, the version, and `charts` with the chart -/
theorem path_eq (hchart : IsName chart) (hversion : version ≠ "") (hrooted : isRooted version = false)
    (resources : String) :
    path resources version chart =
      resources ++ slashAfter resources ++ version ++ slashAfter version ++ "charts/" ++ chart := by
  have hcharts : isRooted "charts" = false := isName_charts.isRooted_eq
  have hslash : slashAfter "charts" = "/" := by decide
  have hpath : path resources version chart = join (join (join resources version) "charts") chart := rfl
  rw [hpath, join_of_not_rooted hchart.isRooted_eq, slashAfter_join (by decide) hcharts, hslash,
    join_of_not_rooted hcharts, slashAfter_join hversion hrooted, join_of_not_rooted hrooted]
  simp [String.append_assoc]

/-- Below the directory of the version there is one with the charts, and in it one for each chart. -/
theorem placeOf_path (hchart : IsName chart) (resources version : String) :
    placeOf (path resources version chart) = chart :: "charts" :: placeOf (join resources version) ∧
      isRooted (path resources version chart) = isRooted (join resources version) := by
  have hcharts : isRooted "charts" = false := isName_charts.isRooted_eq
  have hpath : path resources version chart = join (join (join resources version) "charts") chart := rfl
  rw [hpath]
  constructor
  · rw [placeOf_join hchart.isRooted_eq, placeOf_join hcharts, hchart.enterAll_eq, isName_charts.enterAll_eq]
  · rw [isRooted_join hchart.isRooted_eq, isRooted_join hcharts]

/-- the charts of a version that stays inside are within the resources -/
theorem liesBelow_path (hchart : IsName chart) (hversion : StaysInside version) (resources : String) :
    LiesBelow resources (path resources version chart) := by
  obtain ⟨hplace, hrooted⟩ := placeOf_path hchart resources version
  obtain ⟨hfree, hstays⟩ := hversion
  rw [placeOf, hfree] at hstays
  have hnames : placeOf (join resources version) = enterAll false [] version ++ placeOf resources := by
    rw [placeOf_join hfree]
    exact foldl_enter_append hstays
  refine ⟨hrooted.trans (isRooted_join hfree resources), chart :: "charts" :: enterAll false [] version, ?_, ?_, ?_⟩
  · exact List.cons_ne_nil _ _
  · simp [hstays, Ne.symm hchart.ne_out]
  · rw [hplace, hnames]
    rfl

/-- the place of a directory at the root -/
theorem placeOf_atRoot {directory : String} (h : IsName directory) : placeOf ("/" ++ directory) = [directory] := by
  have hrooted : isRooted ("/" ++ directory) = true := by simp [isRooted]
  have hpath : "/" ++ directory = "" ++ "/" ++ directory := by rw [String.empty_append]
  rw [placeOf, hrooted, hpath, enterAll_append, enterAll_empty, h.enterAll_eq]

/-- if the place of a path is the same for all resources at the root, it is within some of them only -/
theorem exists_not_liesBelow {p : String → String} {place : List String}
    (h : ∀ directory, IsName directory → placeOf (p ("/" ++ directory)) = place) :
    ∃ resources, ¬ LiesBelow resources (p resources) := by
  have hname : IsName "a" ∧ IsName "b" := by
    exact ⟨⟨by decide, by decide, by decide, by decide⟩, ⟨by decide, by decide, by decide, by decide⟩⟩
  have hlast {directory : String} (hdirectory : IsName directory)
      (hbelow : LiesBelow ("/" ++ directory) (p ("/" ++ directory))) : place.getLast? = some directory := by
    have hroot : placeOf ("/" ++ directory) = [directory] := placeOf_atRoot hdirectory
    rw [← h directory hdirectory, hbelow.getLast?_eq (by simp [hroot]), hroot, List.getLast?_singleton]
  by_contra hall
  rw [not_exists] at hall
  have ha := hlast hname.1 (Classical.not_not.1 (hall ("/" ++ "a")))
  have hb := hlast hname.2 (Classical.not_not.1 (hall ("/" ++ "b")))
  exact absurd (ha.symm.trans hb) (by decide)

/-- The charts of a version are within the resources, wherever these are, exactly if the version stays
inside. -/
theorem liesBelow_path_iff (hchart : IsName chart) :
    (∀ resources, LiesBelow resources (path resources version chart)) ↔ StaysInside version := by
  refine ⟨fun hall => ?_, liesBelow_path hchart⟩
  by_contra hversion
  suffices ∃ place, ∀ directory, IsName directory → placeOf (path ("/" ++ directory) version chart) = place by
    obtain ⟨place, hplace⟩ := this
    obtain ⟨resources, hout⟩ := exists_not_liesBelow (p := fun resources => path resources version chart) hplace
    exact hout (hall resources)
  cases hrooted : isRooted version with
  | true =>
    refine ⟨chart :: "charts" :: placeOf version, fun directory _ => ?_⟩
    rw [(placeOf_path hchart _ _).1, join_of_rooted hrooted]
  | false =>
    have hleaves : ".." ∈ (Text.pieces '/' version).foldl (enter false) [] := by
      by_contra hstays
      refine hversion ⟨hrooted, ?_⟩
      rwa [placeOf, hrooted]
    obtain ⟨place, hplace⟩ := exists_foldl_enter (List.not_mem_nil) hleaves
    refine ⟨chart :: "charts" :: place, fun directory hdirectory => ?_⟩
    have hroot : isRooted ("/" ++ directory) = true := by simp [isRooted]
    rw [(placeOf_path hchart _ _).1, placeOf_join hrooted, hroot, placeOf_atRoot hdirectory]
    exact congrArg _ (congrArg _ (hplace directory hdirectory.ne_out))

end Path

end MeshOperator.Chart
