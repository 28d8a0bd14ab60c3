import MeshOperator.Proofs.Cluster.Calls
import MeshOperator.Proofs.Revision.StatusForm

/-!
# What a cluster stores of a revision

* `Cluster.Holds`: a revision stands under its key and is read without a fault.
* `Cluster.storedStatus`: the status under a key, as it is read back.
* `Cluster.storedState?`: the state in it, as it stands there.
* `Cluster.Holds.storedStatus_withStatus`: a plain status that was written is read back.
* `Cluster.sole`: a cluster with one revision, where the theorems are tried.
-/

namespace MeshOperator

/-- The cluster gives the revision `r` when it is asked for `k`, and `r` names this key itself. -/
structure Cluster.Holds (c : Cluster) (k : Key) (r : Revision) : Prop where
  answers : c.answer .getRevision = .ok ()
  stored : ∃ d, c.revision? k = some d ∧ Revision.ofData d = .ok r
  own : r.key = k

/-- the status stored under a key, as it is read back -/
def Cluster.storedStatus (c : Cluster) (k : Key) : Except Fault Status :=
  Status.ofData ((c.statusOf? k).getD .null)

theorem Cluster.exists_storedStatus {c : Cluster} {k : Key} {g : Int}
    (h : (c.storedStatus k).toOption.map Status.generation = some g) :
    ∃ s, c.storedStatus k = .ok s ∧ s.generation = g := by
  cases hs : c.storedStatus k with
  | error f => simp [hs, Except.toOption] at h
  | ok s => exact ⟨s, rfl, by simpa [hs, Except.toOption] using h⟩

/-- the state stored under a key -/
def Cluster.storedState? (c : Cluster) (k : Key) : Option Data :=
  (c.statusOf? k).bind fun d => match d with
    | .dict es => Data.lookup? "state" es
    | _ => none

/-- a state that is read back is the one that is stored -/
theorem Cluster.storedState?_of_storedStatus {c : Cluster} {k : Key} {s : Status} {x : String}
    (h : c.storedStatus k = .ok s) (hstate : s.state = .text x) (hx : x ≠ "") :
    c.storedState? k = some (.text x) := by
  obtain ⟨es, hes, hfound⟩ := Status.eq_state_of_ofData h hstate hx
  cases hstatus : c.statusOf? k with
  | none => simp [hstatus, Data.null] at hes
  | some d =>
    simp only [hstatus, Option.getD_some] at hes
    simp [storedState?, hstatus, hes, hfound]

/-- a revision is made from a mapping, and its status from what stands there -/
theorem Revision.status_of_ofData {d : Data} {r : Revision} (h : Revision.ofData d = .ok r) :
    ∃ es, d = .dict es ∧ Status.ofData ((Data.lookup? "status" es).getD .null) = .ok r.status := by
  simp only [Revision.ofData, bind_eq_ok] at h
  -- all parts before the status do not matter
  obtain ⟨_, -, _, -, _, -, _, -, _, -, _, -, _, -, _, -, _, -, _, -, _, -, _, -, _, -, h⟩ := h
  obtain ⟨x, hx, s, hs, h⟩ := h
  cases h
  obtain ⟨es, rfl⟩ := Data.eq_dict_of_entry_ok hx
  rw [Data.entry_dict] at hx
  cases hx
  exact ⟨es, rfl, hs⟩

/-- with another status an object is read as the same revision, with that status -/
theorem Revision.ofData_withEntry_status {es : List (Data × Data)} {r : Revision} {s : Status}
    (h : Revision.ofData (.dict es) = .ok r) (hs : s.IsPlain) :
    Revision.ofData (.dict (Data.withEntry "status" s.toData es)) = .ok { r with status := s } := by
  have hmetadata := Data.lookup?_withEntry_of_ne (show "metadata" ≠ "status" by decide) s.toData es
  have hspec := Data.lookup?_withEntry_of_ne (show "spec" ≠ "status" by decide) s.toData es
  have hstatus := Data.lookup?_withEntry "status" s.toData es
  simp only [Revision.ofData, Data.entryOrElse_dict, Data.entry_dict, ok_bind, bind_eq_ok] at h
  obtain ⟨name, hname, ns, hns, uid, huid, x, hx, generation, hgeneration, version, hversion, y, hy,
    finalizers, hfinalizers, deleted, hdeleted, version', hversion', values, hvalues, old, hold, h⟩ := h
  cases h
  simp only [Revision.ofData, Data.entryOrElse_dict, Data.entry_dict, ok_bind, bind_eq_ok, hmetadata,
    hspec, hstatus, Option.getD_some]
  exact ⟨name, hname, ns, hns, uid, huid, x, hx, generation, hgeneration, version, hversion, y, hy,
    finalizers, hfinalizers, deleted, hdeleted, version', hversion', values, hvalues, s,
    Status.ofData_toData hs, rfl⟩

namespace Cluster

variable {c : Cluster} {k : Key} {r : Revision}

theorem find?_put {α : Type} {es : List (Key × α)} {a b : α} (h : find? k es = some a) :
    find? k (put k b es) = some b := by
  induction es with
  | nil => cases h
  | cons e es ih =>
    by_cases he : e.1.same k = true
    · simp [put, find?, he]
    · simp only [put, find?, he] at h ⊢
      simpa [find?, he] using ih h

theorem statusOf?_withStatus {es : List (Data × Data)} (h : c.revision? k = some (.dict es))
    (status : Data) : (c.withStatus k status).statusOf? k = some status := by
  have hfound : (c.withStatus k status).revision? k =
      some (.dict (Data.withEntry "status" status es)) := by
    simp only [withStatus, h]
    exact find?_put h
  simp [statusOf?, hfound, Data.lookup?_withEntry]

namespace Holds

variable (h : c.Holds k r)
include h

theorem outcome_getRevision : (Api.getRevision k).outcome c = .ok (some r) := by
  obtain ⟨d, hd, hr⟩ := h.stored
  have hseen : c.seen .getRevision (c.revision? k) = .ok (some d) := by
    rw [seen, h.answers, hd]
  rw [Api.outcome_getRevision, hseen]
  simp [hr, Except.map]

/-- what is read under the key is of that key -/
theorem own_of_getRevision (r' : Revision) (hread : (Api.getRevision k).outcome c = .ok (some r')) :
    r'.key = k := by
  cases h.outcome_getRevision.symm.trans hread
  exact h.own

theorem isSome_revision? : (c.revision? r.key).isSome = true := by
  obtain ⟨d, hd, -⟩ := h.stored
  rw [h.own, hd]
  rfl

theorem storedStatus : c.storedStatus k = .ok r.status := by
  obtain ⟨d, hd, hr⟩ := h.stored
  obtain ⟨es, rfl, hs⟩ := Revision.status_of_ofData hr
  simpa [Cluster.storedStatus, statusOf?, hd] using hs

theorem isPlain_status : r.status.IsPlain :=
  Status.isPlain_of_ofData h.storedStatus

theorem statusOf?_withStatus (status : Data) :
    (c.withStatus r.key status).statusOf? k = some status := by
  obtain ⟨d, hd, hr⟩ := h.stored
  obtain ⟨es, rfl, -⟩ := Revision.status_of_ofData hr
  rw [h.own]
  exact Cluster.statusOf?_withStatus hd status

theorem storedStatus_withStatus {s : Status} (hs : s.IsPlain) :
    (c.withStatus r.key s.toData).storedStatus k = .ok s := by
  rw [Cluster.storedStatus, h.statusOf?_withStatus]
  exact Status.ofData_toData hs

theorem withStatus {s : Status} (hs : s.IsPlain) :
    (c.withStatus r.key s.toData).Holds k { r with status := s } := by
  obtain ⟨d, hd, hr⟩ := h.stored
  obtain ⟨es, rfl, -⟩ := Revision.status_of_ofData hr
  have hwith : c.withStatus r.key s.toData =
      { c with revisions := put k (.dict (Data.withEntry "status" s.toData es)) c.revisions } := by
    rw [h.own, Cluster.withStatus, hd]
  rw [hwith]
  exact ⟨h.answers, ⟨_, find?_put hd, Revision.ofData_withEntry_status hr hs⟩, h.own⟩

end Holds

end Cluster

/-! ### A revision alone -/

/-- the key of a revision that is alone in its cluster -/
def Key.sole : Key := ⟨.text "istio-system", .text "default"⟩

/-- the object that it is, with what else its metadata say and with its spec -/
def soleObject (metadata spec : List (String × Data)) : Data :=
  .object [
    ("metadata", .object ([("name", Key.sole.name), ("namespace", Key.sole.ns),
      ("generation", .int 1)] ++ metadata)),
    ("spec", .object spec)]

/-- a cluster with this revision, at the beginning of 1970 -/
def Cluster.sole (metadata spec : List (String × Data)) : Cluster :=
  { bare (.zero false) with revisions := [(.sole, soleObject metadata spec)] }

/-- the revision that is read there if nothing is said but its key -/
def Revision.sole : Revision where
  name := Key.sole.name
  ns := Key.sole.ns
  uid := .text ""
  generation := 1
  resourceVersion := .text ""
  finalizers := []
  deletedAt := .null
  version := .text ""
  values := .null
  status := {}

/-- a cluster with one revision, which names a version and no values -/
def Cluster.versioned : Cluster := .sole [] [("version", .text "v1.22")]

/-- this revision -/
def Revision.versioned : Revision := { sole with version := .text "v1.22" }

theorem Cluster.holds_versioned : versioned.Holds .sole .versioned := ⟨rfl, ⟨_, rfl, rfl⟩, rfl⟩

/-- the same cluster, where the chart tool does not see its first chart to the end -/
def Cluster.halfInstalled : Cluster :=
  { versioned with replies := [("upgrade default-base", .ended 1 "" "Error: timed out")] }

theorem Cluster.holds_halfInstalled : halfInstalled.Holds .sole .versioned :=
  ⟨rfl, ⟨_, rfl, rfl⟩, rfl⟩

end MeshOperator
