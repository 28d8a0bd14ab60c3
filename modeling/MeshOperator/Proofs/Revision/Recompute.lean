import MeshOperator.Proofs.Data.Sameness
import MeshOperator.Proofs.Revision.StatusUpdate

/-!
# Computing a status again

A status that tells the outcome of an installation and the verdict on readiness is not changed by
computing it for the same outcome and the same verdict: no condition flips, so both keep their times, and
what already stands under a type is put there again.

* `Status.computeTimed_compute`: a computed status is computed again.
* `Status.computeTimed_of_same`: what is computed when nothing was to be changed.
* `Status.same_self_of_ofData`: a status that was read equals itself.
-/

namespace MeshOperator

namespace Condition

variable {c : Condition}

theorem same_self_of_ofData {d : Data} (hd : d.isDefinite = true) (h : Condition.ofData d = .ok c) :
    c.same c = true := by
  cases d with
  | dict es =>
    rw [ofData_dict] at h
    cases h
    have hor (key : String) : (((Data.lookup? key es).getD .null).orElse (.text "")).isDefinite = true :=
      Data.isDefinite_orElse (Data.isDefinite_lookup?_getD hd rfl) rfl
    have htype : ((Data.lookup? "type" es).getD (.text "")).isDefinite = true :=
      Data.isDefinite_lookup?_getD hd rfl
    have hstatus : ((Data.lookup? "status" es).getD (.text "Unknown")).isDefinite = true :=
      Data.isDefinite_lookup?_getD hd rfl
    simp [same, Data.same_self, hor, htype, hstatus]
  | _ => cases h

theorem same_self_of_isStated {since : Data} (hc : c.IsStated) (hsince : since.same since = true) :
    ({ c with since } : Condition).same { c with since } = true := by
  obtain ⟨⟨t, ht⟩, ⟨s, hs⟩, ⟨r, hr⟩, ⟨m, hm⟩⟩ := hc
  have htext (x : String) : (Data.text x).same (.text x) = true := Data.same_text.2 rfl
  simp [same, ht, hs, hr, hm, htext, hsince]

theorem IsStated.same_status (hc : c.IsStated) : c.status.same c.status = true := by
  obtain ⟨x, hx⟩ := hc.status
  exact Data.same_self_of_eq_text hx

end Condition

namespace Status

variable {s : Status} {c d : Condition} {cs : List Condition} {now now' : Data} {T U : String}

/-! ### Putting a condition where it stands -/

/-- The condition stands in the list, and it alone under its type. -/
structure StandsAlone (c : Condition) (cs : List Condition) : Prop where
  mem : c ∈ cs
  eq_of_same : ∀ d ∈ cs, d.type.same c.type = true → d = c

theorem standsAlone_replaceOrAdd : StandsAlone c (replaceOrAdd c cs) := by
  unfold replaceOrAdd
  split
  · rename_i hany
    obtain ⟨d, hd, hdc⟩ := List.any_eq_true.1 hany
    refine ⟨List.mem_map.2 ⟨d, hd, if_pos hdc⟩, fun e he hec => ?_⟩
    obtain ⟨e', -, rfl⟩ := List.mem_map.1 he
    by_cases h : e'.type.same c.type = true
    · exact if_pos h
    · rw [if_neg h] at hec
      exact absurd hec h
  · rename_i hany
    refine ⟨by simp, fun e he hec => ?_⟩
    rcases List.mem_append.1 he with he | he
    · exact absurd (List.any_eq_true.2 ⟨e, he, hec⟩) hany
    · exact List.mem_singleton.1 he

theorem StandsAlone.replaceOrAdd_eq (h : StandsAlone c cs) (hc : c.type = .text T) :
    replaceOrAdd c cs = cs := by
  have hself : c.type.same c.type = true := Data.same_self_of_eq_text hc
  have hany : cs.any (fun d => d.type.same c.type) = true := List.any_eq_true.2 ⟨c, h.mem, hself⟩
  rw [replaceOrAdd, if_pos hany]
  conv => rhs; rw [← List.map_id cs]
  refine List.map_congr_left fun d hd => ?_
  by_cases hdc : d.type.same c.type = true
  · rw [if_pos hdc, h.eq_of_same d hd hdc, id]
  · rw [if_neg hdc, id]

/-- a condition of another type does not take its place -/
theorem StandsAlone.replaceOrAdd_other (h : StandsAlone c cs) (hc : c.type = .text T)
    (hd : d.type = .text U) (hne : T ≠ U) : StandsAlone c (replaceOrAdd d cs) := by
  have hcd : ¬ c.type.same d.type = true := by
    rw [hc, hd, Data.same_text]
    simpa using hne
  refine ⟨?_, fun e he hec => ?_⟩
  · unfold replaceOrAdd
    split
    · exact List.mem_map.2 ⟨c, h.mem, if_neg hcd⟩
    · exact List.mem_append_left _ h.mem
  · rcases mem_replaceOrAdd he with rfl | he
    · rw [hc, hd, Data.same_text] at hec
      exact absurd (by simpa using hec.symm) hne
    · exact h.eq_of_same e he hec

/-! ### A status in which no condition flips -/

/-- without a flip the time does not matter -/
theorem changeTime_of_not_flips (h : s.flips c = false) : s.changeTime c now = s.changeTime c now' := by
  unfold flips at h
  unfold changeTime
  cases hfind : s.find? c.type with
  | none => simp [hfind] at h
  | some d =>
    have hstatus : d.status.same c.status = true := by simpa [hfind] using h
    simp [hstatus]

section Found

variable (hc : c.IsStated) (hfind : s.find? c.type = some d) (hstatus : d.status = c.status)
include hc hfind hstatus

theorem flips_of_find? : s.flips c = false := by
  rw [flips, hfind]
  simp [hstatus, hc.same_status]

theorem changeTime_of_find? : s.changeTime c now = d.since := by
  rw [changeTime, hfind]
  simp [hstatus, hc.same_status]

end Found

section Compute

variable {g : Int} {reconciled ready : Condition} {clock : Except Fault Data}
variable (hreconciled : reconciled.type = reconciledType) (hready : ready.type = readyType)
include hreconciled hready

theorem compute_eq : s.compute g reconciled ready now =
    { generation := g
      conditions := replaceOrAdd { ready with since := s.changeTime ready now }
        (replaceOrAdd { reconciled with since := s.changeTime reconciled now } s.conditions)
      state := stateOf reconciled ready } := by
  rw [← changeTime_put s g now hreconciled hready]
  rfl

theorem computeTimed_of_not_flips (hr : s.flips reconciled = false) (hy : s.flips ready = false) :
    s.computeTimed g reconciled ready clock = .ok (s.compute g reconciled ready now) := by
  have htime : s.compute g reconciled ready .null = s.compute g reconciled ready now := by
    have hr' : s.changeTime reconciled .null = s.changeTime reconciled now :=
      changeTime_of_not_flips hr
    have hy' : s.changeTime ready .null = s.changeTime ready now := changeTime_of_not_flips hy
    rw [compute_eq hreconciled hready, compute_eq hreconciled hready, hr', hy']
  rw [computeTimed, timed, flips_put hreconciled hready, hr, hy, ← htime]
  rfl

variable (s now g) in
theorem standsAlone_compute_reconciled :
    StandsAlone { reconciled with since := s.changeTime reconciled now }
      (s.compute g reconciled ready now).conditions := by
  have hr : ({ reconciled with since := s.changeTime reconciled now } : Condition).type =
      reconciledType := hreconciled
  have hy : ({ ready with since := s.changeTime ready now } : Condition).type = readyType := hready
  rw [compute_eq hreconciled hready]
  exact standsAlone_replaceOrAdd.replaceOrAdd_other hr hy (by decide)

variable (s now g) in
theorem standsAlone_compute_ready : StandsAlone { ready with since := s.changeTime ready now }
    (s.compute g reconciled ready now).conditions := by
  rw [compute_eq hreconciled hready]
  exact standsAlone_replaceOrAdd

/-- a status in which both conditions stand is computed to be what it is -/
theorem compute_eq_self {t : Status} (hgeneration : t.generation = g)
    (hstate : t.state = stateOf reconciled ready)
    (hr : StandsAlone { reconciled with since := t.changeTime reconciled now } t.conditions)
    (hy : StandsAlone { ready with since := t.changeTime ready now } t.conditions) :
    t.compute g reconciled ready now = t := by
  rw [compute_eq hreconciled hready, hr.replaceOrAdd_eq hreconciled, hy.replaceOrAdd_eq hready,
    ← hgeneration, ← hstate]

/-! ### The computed status -/

variable (hsr : reconciled.IsStated) (hsy : ready.IsStated)
include hsr hsy

/-- **Again.**  A computed status is computed again for the same conditions, whatever the clock shows. -/
theorem computeTimed_compute :
    (s.compute g reconciled ready now).computeTimed g reconciled ready clock =
      .ok (s.compute g reconciled ready now) := by
  have hfr := find?_compute_reconciled s g now hreconciled hready
  have hfy := find?_compute_ready s g now hreconciled hready
  have hr := standsAlone_compute_reconciled s now g hreconciled hready
  have hy := standsAlone_compute_ready s now g hreconciled hready
  have hstate : (s.compute g reconciled ready now).state = stateOf reconciled ready := rfl
  have hgeneration : (s.compute g reconciled ready now).generation = g := rfl
  -- from here on it only matters where the conditions stand in it
  generalize s.compute g reconciled ready now = t at *
  rw [← hreconciled] at hfr
  rw [← hready] at hfy
  have htimed : t.computeTimed g reconciled ready clock = .ok (t.compute g reconciled ready now) :=
    computeTimed_of_not_flips hreconciled hready (flips_of_find? hsr hfr rfl)
      (flips_of_find? hsy hfy rfl)
  rw [htimed, compute_eq_self hreconciled hready hgeneration hstate]
  · rwa [changeTime_of_find? hsr hfr rfl]
  · rwa [changeTime_of_find? hsy hfy rfl]

/-- If what is computed is the same as what stood there, then no condition flips, and the same is
computed whatever the clock shows. -/
theorem computeTimed_of_same (h : (s.compute g reconciled ready now).same s = true) :
    s.computeTimed g reconciled ready clock = .ok (s.compute g reconciled ready now) := by
  obtain ⟨hr, hy⟩ := find?_of_same hreconciled hready hsr hsy h
  rw [← hreconciled] at hr
  rw [← hready] at hy
  exact computeTimed_of_not_flips hreconciled hready (flips_of_find? hsr hr rfl)
    (flips_of_find? hsy hy rfl)

end Compute

/-! ### Statuses that equal themselves -/

theorem same_self_iff : s.same s = true ↔
    (∀ c ∈ s.conditions, c.same c = true) ∧ s.state.same s.state = true := by
  simp [same, Data.testsHold_self_iff]

theorem same_self_of_ofData {d : Data} (hd : d.isDefinite = true) (h : Status.ofData d = .ok s) :
    s.same s = true := by
  simp only [Status.ofData, bind_eq_ok] at h
  obtain ⟨_, -, _, -, x, hx, ds, hds, cs, hcs, _, hstate, h⟩ := h
  cases h
  have hdict : (d.orElse (.dict [])).isDefinite = true := Data.isDefinite_orElse hd rfl
  obtain ⟨es, hes⟩ := Data.eq_dict_of_entryOrElse_ok hx
  rw [hes] at hdict hx hstate
  rw [Data.entryOrElse_dict] at hx hstate
  cases hx
  cases hstate
  refine same_self_iff.2 ⟨fun c hc => ?_, ?_⟩
  · obtain ⟨d', hd', hof⟩ := exists_of_mem_mapM_ofData hcs c hc
    refine Condition.same_self_of_ofData (Data.isDefinite_of_mem_members ?_ hds d' hd') hof
    exact Data.isDefinite_orElse (Data.isDefinite_lookup?_getD hdict rfl) rfl
  · refine Data.same_self _ ?_
    exact Data.isDefinite_orElse (Data.isDefinite_lookup?_getD hdict rfl) rfl

theorem same_self_put (hs : s.same s = true) (hc : c.IsStated) (hnow : now.same now = true) :
    (s.put c now).same (s.put c now) = true := by
  obtain ⟨hconditions, hstate⟩ := same_self_iff.1 hs
  have hsince : (s.changeTime c now).same (s.changeTime c now) = true := by
    unfold changeTime
    cases hfind : s.find? c.type with
    | none => exact hnow
    | some d =>
      have hd := hconditions d (List.mem_of_find?_eq_some hfind)
      simp only [Condition.same, Bool.and_eq_true] at hd
      dsimp only
      split
      · exact hd.2
      · exact hnow
  refine same_self_iff.2 ⟨fun d hd => ?_, hstate⟩
  rcases mem_replaceOrAdd hd with rfl | hd
  · exact Condition.same_self_of_isStated hc hsince
  · exact hconditions d hd

theorem same_self_compute {g : Int} {reconciled ready : Condition} (hs : s.same s = true)
    (hr : reconciled.IsStated) (hy : ready.IsStated) (hnow : now.same now = true) :
    (s.compute g reconciled ready now).same (s.compute g reconciled ready now) = true := by
  obtain ⟨hconditions, hstate⟩ := same_self_iff.1 hs
  have hgeneration : ({ s with generation := g } : Status).same { s with generation := g } = true :=
    same_self_iff.2 ⟨hconditions, hstate⟩
  have hput := same_self_put (same_self_put hgeneration hr hnow) hy hnow
  obtain ⟨hconditions, -⟩ := same_self_iff.1 hput
  obtain ⟨x, hx⟩ := stateOf_eq_text hr hy
  refine same_self_iff.2 ⟨hconditions, ?_⟩
  exact Data.same_self_of_eq_text hx

theorem same_self_of_computeTimed {g : Int} {reconciled ready : Condition}
    {clock : Except Fault Data} {t : Status} (hs : s.same s = true) (hr : reconciled.IsStated)
    (hy : ready.IsStated) (hclock : ∀ now, clock = .ok now → now.same now = true)
    (h : s.computeTimed g reconciled ready clock = .ok t) : t.same t = true := by
  unfold computeTimed timed at h
  split at h
  · cases hnow : clock with
    | error f =>
      rw [hnow] at h
      cases h
    | ok now =>
      rw [hnow] at h
      cases h
      exact same_self_compute hs hr hy (hclock now hnow)
  · cases h
    exact same_self_compute hs hr hy rfl

end Status

end MeshOperator
