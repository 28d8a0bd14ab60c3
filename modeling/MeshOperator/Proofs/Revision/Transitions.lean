import Mathlib.Data.List.Induction
import MeshOperator.Proofs.Revision.Upkeep

/-!
# The times of changes

A status is computed again and again, each time from the last one. The time of a condition is then that of the
last step in which its status was another than before, and the time it started with if there was no such step.

* `Status.Update`, `Status.updates`: steps, and what they come to.
* `Status.FlipsAt`, `Status.StaysIn`: the steps in which a condition has another status than before.
* `Status.Dated.update`: what one step does to the time of a condition.
* `Status.updates_exact`: the conditions after any number of steps.
-/

namespace MeshOperator

/-- The two conditions that the operator keeps. -/
inductive Kept where
  | reconciled
  | ready

/-- the type of a condition that is kept -/
def Kept.type : Kept → Data
  | .reconciled => reconciledType
  | .ready => readyType

theorem Kept.exists_type (k : Kept) : ∃ T, k.type = .text T := by
  cases k <;> exact ⟨_, rfl⟩

namespace Status

/-! ### Steps -/

/-- A step: the generation, both conditions and the time at which they are put into a status. -/
structure Update where
  generation : Int
  reconciled : Condition
  ready : Condition
  now : String
  reconciled_type : reconciled.type = reconciledType
  ready_type : ready.type = readyType
  now_ne : now ≠ ""

/-- the condition that a step gives -/
def Update.given (u : Update) : Kept → Condition
  | .reconciled => u.reconciled
  | .ready => u.ready

theorem Update.type_given (u : Update) (k : Kept) : (u.given k).type = k.type := by
  cases k with
  | reconciled => exact u.reconciled_type
  | ready => exact u.ready_type

/-- the status after a step -/
def update (s : Status) (u : Update) : Except Fault Status :=
  s.computeTimed u.generation u.reconciled u.ready (.ok (.text u.now))

/-- the status after steps, each from the one before -/
def updates (s : Status) (us : List Update) : Except Fault Status := us.foldlM update s

/-- The condition has another status than the one of its type, or there is none of its type. -/
def Differs (s : Status) (c : Condition) : Prop :=
  ∀ d ∈ s.conditions, d.type = c.type → ¬ d.status.same c.status = true

/-- In the step `u` after the steps `before`, a condition has another status than before it. -/
def FlipsAt (s : Status) (k : Kept) (before : List Update) (u : Update) : Prop :=
  ∃ t, s.updates before = .ok t ∧ t.Differs (u.given k)

/-- In none of the steps `after` the steps `before`, a condition has another status than before it. -/
def StaysIn (s : Status) (k : Kept) (before after : List Update) : Prop :=
  ∀ between u rest, after = between ++ u :: rest → ¬ s.FlipsAt k (before ++ between) u

variable {s t : Status} {c d : Condition} {u : Update} {us : List Update} {k : Kept} {T : String} {now : Data}

theorem updates_concat : s.updates (us ++ [u]) = s.updates us >>= fun t => t.update u := by
  rw [updates, List.foldlM_append]
  simp only [List.foldlM_cons, List.foldlM_nil, bind_pure]
  rfl

/-! ### One step -/

theorem update_eq : s.update u = .ok (s.compute u.generation u.reconciled u.ready (.text u.now)) := by
  by_cases hflips : s.flips u.reconciled = true ∨ s.flips u.ready = true
  · rw [update, computeTimed, timed, flips_put u.reconciled_type u.ready_type, if_pos (by simpa using hflips)]
    rfl
  · simp only [not_or, Bool.not_eq_true] at hflips
    exact computeTimed_of_not_flips u.reconciled_type u.ready_type hflips.1 hflips.2

theorem find?_compute_given (k : Kept) :
    (s.compute u.generation u.reconciled u.ready (.text u.now)).find? k.type =
      some { u.given k with since := s.changeTime (u.given k) (.text u.now) } := by
  cases k with
  | reconciled => exact find?_compute_reconciled s _ _ u.reconciled_type u.ready_type
  | ready => exact find?_compute_ready s _ _ u.reconciled_type u.ready_type

/-- of conditions with distinct types each is found under its own -/
theorem find?_of_mem (hs : s.HasDistinctTypes) (hd : d ∈ s.conditions) (hT : d.type = .text T) :
    s.find? (.text T) = some d := by
  obtain ⟨g, cs, state⟩ := s
  change (cs.map Condition.type).Pairwise _ at hs
  change cs.find? _ = _
  induction cs with
  | nil => cases hd
  | cons c cs ih =>
    rw [List.map_cons, List.pairwise_cons] at hs
    rcases List.mem_cons.1 hd with rfl | hmem
    · rw [List.find?_cons, Data.same_text.2 hT]
    · have hc : ¬ c.type.same (.text T) = true := hT ▸ hs.1 _ (List.mem_map_of_mem hmem)
      rw [List.find?_cons, (Bool.not_eq_true _).mp hc]
      exact ih hmem hs.2

theorem mem_of_find? (h : s.find? (.text T) = some d) : d ∈ s.conditions ∧ d.type = .text T := by
  unfold find? at h
  have hsame := List.find?_some h
  exact ⟨List.mem_of_find?_eq_some h, Data.same_text.1 hsame⟩

theorem changeTime_of_differs (hT : c.type = .text T) (h : s.Differs c) : s.changeTime c now = now := by
  rw [changeTime, hT]
  cases hfind : s.find? (.text T) with
  | none => rfl
  | some d =>
    obtain ⟨hd, htype⟩ := mem_of_find? hfind
    exact if_neg (h d hd (htype.trans hT.symm))

theorem exists_since_of_not_differs (hs : s.HasDistinctTypes) (hT : c.type = .text T) (h : ¬ s.Differs c)
    (now : Data) : ∃ d ∈ s.conditions, d.type = c.type ∧ s.changeTime c now = d.since := by
  simp only [Differs, not_forall, not_not] at h
  obtain ⟨d, hd, htype, hstatus⟩ := h
  refine ⟨d, hd, htype, ?_⟩
  rw [changeTime, hT, find?_of_mem hs hd (htype.trans hT)]
  exact if_pos hstatus

/-! ### Many steps -/

/-- The condition has the time of the last step in which its status was another than before, and the time of the
one that was there at the start if there was no such step. -/
structure Dated (s : Status) (k : Kept) (us : List Update) (c : Condition) : Prop where
  flip : ∀ before u after, us = before ++ u :: after → s.FlipsAt k before u →
    s.StaysIn k (before ++ [u]) after → c.since = .text u.now
  still : s.StaysIn k [] us → ∃ d ∈ s.conditions, d.type = k.type ∧ c.since = d.since

theorem StaysIn.not_flipsAt {before after : List Update} (h : s.StaysIn k before (after ++ [u])) :
    ¬ s.FlipsAt k (before ++ after) u := h after u [] rfl

theorem StaysIn.of_concat {before after : List Update} (h : s.StaysIn k before (after ++ [u])) :
    s.StaysIn k before after := fun between v rest hsplit =>
  h between v (rest ++ [u]) (by rw [hsplit]; simp)

/-- the last of the steps, or a step before it -/
theorem split_concat {before after : List Update} {v : Update} (h : us ++ [u] = before ++ v :: after) :
    (before = us ∧ v = u ∧ after = []) ∨ ∃ rest, after = rest ++ [u] ∧ us = before ++ v :: rest := by
  rcases List.eq_nil_or_concat after with rfl | ⟨rest, w, rfl⟩
  · obtain ⟨hus, hu⟩ := List.append_inj' h rfl
    cases hu
    exact .inl ⟨hus.symm, rfl, rfl⟩
  · rw [List.concat_eq_append, ← List.cons_append, ← List.append_assoc] at h
    obtain ⟨hus, hu⟩ := List.append_inj' h rfl
    cases hu
    exact .inr ⟨rest, List.concat_eq_append .., hus⟩

theorem Dated.update (hrun : s.updates us = .ok t) (ht : t.HasDistinctTypes) (hT : k.type = .text T)
    (h : ∀ d ∈ t.conditions, d.type = k.type → s.Dated k us d) :
    s.Dated k (us ++ [u]) { u.given k with since := t.changeTime (u.given k) (.text u.now) } := by
  have htype : (u.given k).type = .text T := (u.type_given k).trans hT
  by_cases hdiffers : t.Differs (u.given k)
  · have hflips : s.FlipsAt k us u := ⟨t, hrun, hdiffers⟩
    refine ⟨fun before v after hsplit _ hstays => ?_, fun hstays => absurd hflips hstays.not_flipsAt⟩
    rcases split_concat hsplit with ⟨-, rfl, -⟩ | ⟨rest, rfl, rfl⟩
    · exact changeTime_of_differs htype hdiffers
    · -- an earlier step is not the last with another status
      have hnot := hstays.not_flipsAt
      rw [List.append_assoc] at hnot
      exact absurd hflips hnot
  · have hflips : ¬ s.FlipsAt k us u := by
      rintro ⟨t', hrun', hdiffers'⟩
      cases hrun.symm.trans hrun'
      exact hdiffers hdiffers'
    obtain ⟨d, hd, hdtype, hsince⟩ := exists_since_of_not_differs ht htype hdiffers (.text u.now)
    obtain ⟨hflip, hstill⟩ := h d hd (hdtype.trans (u.type_given k))
    rw [hsince]
    refine ⟨fun before v after hsplit hv hstays => ?_, fun hstays => hstill hstays.of_concat⟩
    rcases split_concat hsplit with ⟨rfl, rfl, -⟩ | ⟨rest, rfl, hus⟩
    · exact absurd hv hflips
    · exact hflip before v rest hus hv hstays.of_concat

/-- whatever the steps, all conditions that are kept have their times -/
theorem exists_updates (hs : s.HasDistinctTypes) (us : List Update) :
    ∃ t, s.updates us = .ok t ∧ t.HasDistinctTypes ∧
      ∀ k, ∀ d ∈ t.conditions, d.type = Kept.type k → s.Dated k us d := by
  induction us using List.reverseRecOn with
  | nil =>
    refine ⟨s, rfl, hs, fun k d hd htype => ⟨fun before u after hsplit => ?_, fun _ => ⟨d, hd, htype, rfl⟩⟩⟩
    exact absurd hsplit.symm (by simp)
  | append_singleton us u ih =>
    obtain ⟨t, hrun, ht, hdated⟩ := ih
    have hdistinct : (t.compute u.generation u.reconciled u.ready (.text u.now)).HasDistinctTypes :=
      ht.compute u.reconciled_type u.ready_type
    refine ⟨_, by rw [updates_concat, hrun, ok_bind, update_eq], hdistinct, fun k d hd htype => ?_⟩
    obtain ⟨T, hT⟩ := Kept.exists_type k
    have hfind := find?_compute_given (s := t) (u := u) k
    rw [hT] at hfind htype
    cases (find?_of_mem hdistinct hd htype).symm.trans hfind
    exact Dated.update hrun ht hT (hdated k)

/-- **Exactness.**  After any number of steps the conditions that are kept are those of the last step, each with
the time of the last step in which its status was another than before, or with the time it started with. -/
theorem updates_exact (s : Status) (hs : s.HasDistinctTypes) (us : List Update) (u : Update) :
    ∃ t, s.updates (us ++ [u]) = .ok t ∧ t.HasDistinctTypes ∧ ∀ k, ∃ c ∈ t.conditions,
      c.type = Kept.type k ∧ c.status = (u.given k).status ∧ c.reason = (u.given k).reason ∧
      c.message = (u.given k).message ∧
      (∀ before v after, us ++ [u] = before ++ v :: after → s.FlipsAt k before v →
        s.StaysIn k (before ++ [v]) after → c.since = .text v.now) ∧
      (s.StaysIn k [] (us ++ [u]) → ∃ d ∈ s.conditions, d.type = Kept.type k ∧ c.since = d.since) := by
  obtain ⟨t, hrun, ht, hdated⟩ := exists_updates hs us
  have hnext : s.updates (us ++ [u]) =
      .ok (t.compute u.generation u.reconciled u.ready (.text u.now)) := by
    rw [updates_concat, hrun, ok_bind, update_eq]
  refine ⟨_, hnext, ht.compute u.reconciled_type u.ready_type, fun k => ?_⟩
  obtain ⟨T, hT⟩ := Kept.exists_type k
  have hfind := find?_compute_given (s := t) (u := u) k
  rw [hT] at hfind
  obtain ⟨hflip, hstill⟩ := Dated.update (u := u) hrun ht hT (hdated k)
  exact ⟨_, (mem_of_find? hfind).1, u.type_given k, rfl, rfl, rfl, hflip, hstill⟩

/-- a status that tells of readiness that nothing is known about it -/
def unknownReady : Status := { conditions := [{ type := readyType, since := .text "2024-05-01T08:00:00Z" }] }

/-- a step at a time of one day, in which the workloads are not ready -/
def notReadyAt (hour : String) : Update where
  generation := 1
  reconciled := .reconciled none
  ready := .notReady "NotReady" "no replicas"
  now := "2024-05-01T" ++ hour ++ ":00:00Z"
  reconciled_type := rfl
  ready_type := rfl
  now_ne := by simp [← String.toList_inj]

/-- what was unknown at eight and is not so at nine is still not so at ten -/
theorem since_notReady : unknownReady.HasDistinctTypes ∧
    ∃ t, unknownReady.updates [notReadyAt "09", notReadyAt "10"] = .ok t ∧
      ∃ c ∈ t.conditions, c.type = readyType ∧ c.since = .text "2024-05-01T09:00:00Z" := by
  have hdistinct : unknownReady.HasDistinctTypes := List.pairwise_singleton ..
  obtain ⟨t, hrun, -, hkept⟩ := updates_exact unknownReady hdistinct [notReadyAt "09"] (notReadyAt "10")
  obtain ⟨c, hc, htype, -, -, -, hflip, -⟩ := hkept .ready
  refine ⟨hdistinct, t, hrun, c, hc, htype, hflip [] (notReadyAt "09") [notReadyAt "10"] rfl ?_ ?_⟩
  · refine ⟨unknownReady, rfl, fun d hd _ => ?_⟩
    cases List.mem_singleton.1 hd
    decide
  · rintro between u rest hsplit ⟨s, hs, hdiffers⟩
    obtain ⟨rfl, hu⟩ : between = [] ∧ notReadyAt "10" = u := by
      cases between with
      | nil => exact ⟨rfl, (List.cons.inj hsplit).1⟩
      | cons v between => simp at hsplit
    subst hu
    cases hs
    exact hdiffers _ (List.mem_cons_self ..) rfl rfl

end Status

end MeshOperator
