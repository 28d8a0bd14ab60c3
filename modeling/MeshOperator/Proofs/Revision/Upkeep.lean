import MeshOperator.Proofs.Revision.Recompute

/-!
# What stands in a status that is kept

Computing a status puts the two conditions of the operator in their places, or adds them in order, and leaves
all others where they are. So a status that began without conditions has these two only, and one that began
with conditions of other writers keeps those.

* `Condition.IsVerdict`, `Condition.IsTimed`: how the operator's conditions look.
* `Status.IsTidy`: a status with these two conditions, and with the state that follows from them.
* `Status.types_replaceOrAdd_of_mem`, `Status.getElem?_replaceOrAdd`: what putting a condition does to the
  others.
* `Status.isTidy_compute`, `Status.HasDistinctTypes.compute`, `Status.KeepsOthers.compute`: what computing
  a status preserves.
-/

namespace MeshOperator

namespace Condition

/-- The condition holds, and has neither a reason nor a message, or it does not, and has both. -/
def IsVerdict (c : Condition) : Prop :=
  (c.status = statusTrue ∧ c.reason = .text "" ∧ c.message = .text "") ∨
  (c.status = statusFalse ∧ ∃ reason message, c.reason = .text reason ∧ reason ≠ "" ∧
    c.message = .text message ∧ message ≠ "")

/-- The condition has a time. -/
def IsTimed (c : Condition) : Prop := ∃ time, c.since = .text time ∧ time ≠ ""

theorem isVerdict_reconciled (why : Option String) : (reconciled why).IsVerdict := by
  cases why with
  | none => exact .inl ⟨rfl, rfl, rfl⟩
  | some why =>
    refine .inr ⟨rfl, _, _, rfl, by decide, rfl, fun hempty => ?_⟩
    have hlength := congrArg String.length hempty
    have hlong : "error reconciling resource: ".length = 28 := by decide
    have hnone : "".length = 0 := rfl
    rw [String.length_append] at hlength
    omega

theorem isVerdict_ready : ready.IsVerdict := .inl ⟨rfl, rfl, rfl⟩

theorem isVerdict_notReady {reason message : String} (hreason : reason ≠ "") (hmessage : message ≠ "") :
    (notReady reason message).IsVerdict :=
  .inr ⟨rfl, reason, message, rfl, hreason, rfl, hmessage⟩

end Condition

theorem readyType_ne_reconciledType : readyType ≠ reconciledType := by
  intro h
  injection h with hscalar
  injection hscalar with htext
  exact absurd htext (by decide)

namespace Status

variable {s : Status} {c d : Condition} {cs : List Condition} {now : Data} {T : String}

/-! ### Putting a condition beside others -/

section Types

variable (hc : c.type = .text T)
include hc

theorem same_type_iff (d : Condition) : d.type.same c.type = true ↔ d.type = c.type := by
  rw [hc]
  exact Data.same_text

/-- a condition is put in the place of those of its type -/
theorem types_replaceOrAdd_of_mem (h : c.type ∈ cs.map Condition.type) :
    (replaceOrAdd c cs).map Condition.type = cs.map Condition.type := by
  have hany : cs.any (fun d => d.type.same c.type) = true := by
    obtain ⟨d, hd, hdc⟩ := List.mem_map.1 h
    exact List.any_eq_true.2 ⟨d, hd, (same_type_iff hc d).2 hdc⟩
  rw [replaceOrAdd, if_pos hany, List.map_map]
  refine List.map_congr_left fun d _ => ?_
  rw [Function.comp_apply]
  by_cases hdc : d.type.same c.type = true
  · rw [if_pos hdc, (same_type_iff hc d).1 hdc]
  · rw [if_neg hdc]

/-- if there are none of its type it is put at the end -/
theorem types_replaceOrAdd_of_notMem (h : c.type ∉ cs.map Condition.type) :
    (replaceOrAdd c cs).map Condition.type = cs.map Condition.type ++ [c.type] := by
  have hany : ¬ cs.any (fun d => d.type.same c.type) = true := by
    intro hany
    obtain ⟨d, hd, hdc⟩ := List.any_eq_true.1 hany
    exact h (List.mem_map.2 ⟨d, hd, (same_type_iff hc d).1 hdc⟩)
  rw [replaceOrAdd, if_neg hany, List.map_append, List.map_singleton]

/-- conditions of other types stay in their places, and none come to be -/
theorem getElem?_replaceOrAdd (hd : d.type ≠ c.type) (i : Nat) :
    (replaceOrAdd c cs)[i]? = some d ↔ cs[i]? = some d := by
  unfold replaceOrAdd
  split
  · rw [List.getElem?_map, Option.map_eq_some_iff]
    constructor
    · rintro ⟨e, he, hed⟩
      by_cases hec : e.type.same c.type = true
      · rw [if_pos hec] at hed
        exact absurd (congrArg Condition.type hed).symm hd
      · rw [if_neg hec] at hed
        rw [he, hed]
    · intro h
      exact ⟨d, h, if_neg fun hdc => hd ((same_type_iff hc d).1 hdc)⟩
  · by_cases hi : i < cs.length
    · rw [List.getElem?_append_left hi]
    · rw [List.getElem?_append_right (Nat.le_of_not_lt hi), List.getElem?_eq_none (Nat.le_of_not_lt hi)]
      refine iff_of_false (fun h => ?_) (by simp)
      have hmem := List.mem_of_getElem? h
      exact hd (congrArg Condition.type (List.mem_singleton.1 hmem))

/-- the types of conditions are as distinct as before -/
theorem pairwise_types_replaceOrAdd
    (h : (cs.map Condition.type).Pairwise fun a b => ¬ a.same b = true) :
    ((replaceOrAdd c cs).map Condition.type).Pairwise fun a b => ¬ a.same b = true := by
  by_cases hmem : c.type ∈ cs.map Condition.type
  · rw [types_replaceOrAdd_of_mem hc hmem]
    exact h
  · rw [types_replaceOrAdd_of_notMem hc hmem, List.pairwise_append]
    refine ⟨h, List.pairwise_singleton _ _, fun a ha b hb => ?_⟩
    rw [List.mem_singleton.1 hb, hc, Data.same_text, ← hc]
    rintro rfl
    exact hmem ha

end Types

/-! ### What computing a status preserves -/

/-- The types of the conditions are pairwise distinct. -/
def HasDistinctTypes (s : Status) : Prop :=
  (s.conditions.map Condition.type).Pairwise fun a b => ¬ a.same b = true

/-- Both conditions of the operator are there. -/
def HasBoth (s : Status) : Prop :=
  reconciledType ∈ s.conditions.map Condition.type ∧ readyType ∈ s.conditions.map Condition.type

/-- The conditions are the two of the operator, in order, and the state follows from them. -/
structure IsTidy (s : Status) : Prop where
  types : s.conditions.map Condition.type = [reconciledType, readyType]
  verdict : ∀ c ∈ s.conditions, c.IsVerdict
  timed : ∀ c ∈ s.conditions, c.IsTimed
  state : s.state = stateOf (s.condition reconciledType) (s.condition readyType)

/-- Every condition that is not one of the two stands in both statuses in the same place, or in neither. -/
def KeepsOthers (s t : Status) : Prop :=
  ∀ (i : Nat) (d : Condition), d.type ≠ reconciledType → d.type ≠ readyType →
    (t.conditions[i]? = some d ↔ s.conditions[i]? = some d)

theorem KeepsOthers.refl (s : Status) : s.KeepsOthers s := fun _ _ _ _ => Iff.rfl

theorem isVerdict_of_mem (h : s.conditions = [] ∨ s.IsTidy) : ∀ d ∈ s.conditions, d.IsVerdict := by
  rcases h with h | h
  · rw [h]
    exact List.forall_mem_nil _
  · exact h.verdict

theorem isTimed_of_mem (h : s.conditions = [] ∨ s.IsTidy) : ∀ d ∈ s.conditions, d.IsTimed := by
  rcases h with h | h
  · rw [h]
    exact List.forall_mem_nil _
  · exact h.timed

/-- a condition keeps the time of the one in its place, or gets that of the clock -/
theorem isTimed_changeTime (h : ∀ d ∈ s.conditions, d.IsTimed)
    (hnow : s.flips c = true → ∃ time, now = .text time ∧ time ≠ "") :
    ({ c with since := s.changeTime c now } : Condition).IsTimed := by
  unfold flips at hnow
  unfold Condition.IsTimed changeTime
  cases hfind : s.find? c.type with
  | none =>
    rw [hfind] at hnow
    exact hnow rfl
  | some d =>
    rw [hfind] at hnow
    by_cases hsame : d.status.same c.status = true
    · obtain ⟨time, htime⟩ := h d (List.mem_of_find?_eq_some hfind)
      refine ⟨time, ?_⟩
      dsimp only
      rw [if_pos hsame]
      exact htime
    · dsimp only
      rw [if_neg hsame]
      exact hnow (by simp [hsame])

section Compute

variable {g : Int} {reconciled ready : Condition}
variable (hreconciled : reconciled.type = reconciledType) (hready : ready.type = readyType)
include hreconciled hready

theorem HasDistinctTypes.compute (h : s.HasDistinctTypes) :
    (s.compute g reconciled ready now).HasDistinctTypes := by
  rw [HasDistinctTypes, compute_eq hreconciled hready]
  exact pairwise_types_replaceOrAdd hready (pairwise_types_replaceOrAdd hreconciled h)

theorem KeepsOthers.compute {t : Status} (h : t.KeepsOthers s) :
    t.KeepsOthers (s.compute g reconciled ready now) := by
  intro i d hr hy
  have hr' : ({ reconciled with since := s.changeTime reconciled now } : Condition).type =
      reconciledType := hreconciled
  have hy' : ({ ready with since := s.changeTime ready now } : Condition).type = readyType := hready
  rw [compute_eq hreconciled hready]
  dsimp only
  rw [getElem?_replaceOrAdd hy' (hy'.symm ▸ hy), getElem?_replaceOrAdd hr' (hr'.symm ▸ hr)]
  exact h i d hr hy

theorem hasBoth_compute : (s.compute g reconciled ready now).HasBoth := by
  have hr := (standsAlone_compute_reconciled s now g hreconciled hready).mem
  have hy := (standsAlone_compute_ready s now g hreconciled hready).mem
  exact ⟨List.mem_map.2 ⟨_, hr, hreconciled⟩, List.mem_map.2 ⟨_, hy, hready⟩⟩

/-- where there was no condition but the two, there are these two afterwards -/
theorem types_compute (h : s.conditions = [] ∨ s.IsTidy) :
    (s.compute g reconciled ready now).conditions.map Condition.type = [reconciledType, readyType] := by
  have hr : ({ reconciled with since := s.changeTime reconciled now } : Condition).type =
      reconciledType := hreconciled
  have hy : ({ ready with since := s.changeTime ready now } : Condition).type = readyType := hready
  rw [compute_eq hreconciled hready]
  dsimp only
  generalize { reconciled with since := s.changeTime reconciled now } = r at hr ⊢
  generalize { ready with since := s.changeTime ready now } = y at hy ⊢
  rcases h with h | h
  · have hfirst : (replaceOrAdd r s.conditions).map Condition.type = [reconciledType] := by
      rw [h, types_replaceOrAdd_of_notMem hr (List.not_mem_nil), hr]
      rfl
    have hnew : y.type ∉ (replaceOrAdd r s.conditions).map Condition.type := by
      rw [hfirst, hy, List.mem_singleton]
      exact readyType_ne_reconciledType
    rw [types_replaceOrAdd_of_notMem hy hnew, hfirst, hy]
    rfl
  · have hfirst : (replaceOrAdd r s.conditions).map Condition.type = [reconciledType, readyType] := by
      rw [types_replaceOrAdd_of_mem hr, h.types]
      rw [h.types, hr]
      exact List.mem_cons_self ..
    rw [types_replaceOrAdd_of_mem hy, hfirst]
    rw [hfirst, hy]
    exact List.mem_cons_of_mem _ (List.mem_singleton_self _)

/-- **Tidiness.**  Computed for two verdicts, at the time of a clock where a condition flips, a status that
had no condition, or was tidy, is tidy. -/
theorem isTidy_compute (h : s.conditions = [] ∨ s.IsTidy) (hr : reconciled.IsVerdict)
    (hy : ready.IsVerdict)
    (hnow : s.flips reconciled = true ∨ s.flips ready = true → ∃ time, now = .text time ∧ time ≠ "") :
    (s.compute g reconciled ready now).IsTidy := by
  have htimed := isTimed_of_mem h
  refine ⟨types_compute hreconciled hready h, fun d hd => ?_, fun d hd => ?_, ?_⟩
  · rw [compute_eq hreconciled hready] at hd
    rcases mem_replaceOrAdd hd with rfl | hd
    · exact hy
    · rcases mem_replaceOrAdd hd with rfl | hd
      · exact hr
      · exact isVerdict_of_mem h d hd
  · rw [compute_eq hreconciled hready] at hd
    rcases mem_replaceOrAdd hd with rfl | hd
    · exact isTimed_changeTime htimed fun hflips => hnow (.inr hflips)
    · rcases mem_replaceOrAdd hd with rfl | hd
      · exact isTimed_changeTime htimed fun hflips => hnow (.inl hflips)
      · exact htimed d hd
  · rw [condition_compute_reconciled s g now hreconciled hready,
      condition_compute_ready s g now hreconciled hready]
    rfl

end Compute

end Status

end MeshOperator
