import MeshOperator.Proofs.Cluster.Deeds

/-!
# An object that others write too

While an action of the operator is on its way, other clients may write the object under a key, or remove it.
The server gives every object that is written a version that none had before, and takes a status that is meant
for another version as little as one for an object that is gone.

* `Data.version`: the version of an object, as a revision reads it.
* `Record`: what stands under a key, with all versions that stood there.
* `Record.Turns`, `Record.Runs`: what may become of it when something happens, and while many things happen.
* `Record.Runs.untouched_or_fresh`: nothing was written, or what stands there has a version of its own.
* `Record.Runs.object_of_read`: where the version still stands that a call found, nobody else wrote since.
-/

namespace MeshOperator

/-! ### Objects -/

/-- the version of an object, the empty text if it has none -/
def Data.version (d : Data) : Data :=
  (do (← d.entryOrElse "metadata" (.dict [])).entryOr "resourceVersion" (.text "")
    : Except Fault Data).toOption.getD (.text "")

/-- the status that stands in an object -/
def Data.status? : Data → Option Data
  | .dict es => Data.lookup? "status" es
  | _ => none

/-- a revision has the version of the object that it was read from -/
theorem Revision.resourceVersion_of_ofData {d : Data} {r : Revision} (h : Revision.ofData d = .ok r) :
    r.resourceVersion = d.version := by
  simp only [Revision.ofData, bind_eq_ok] at h
  obtain ⟨about, habout, _, -, _, -, _, -, _, -, _, -, _, -, version, hversion, h⟩ := h
  obtain ⟨_, -, _, -, _, -, _, -, _, -, _, -, _, -, h⟩ := h
  cases h
  rw [Data.version, habout, ok_bind, hversion]
  rfl

/-- whether the API refuses an operation -/
def Cluster.Refuses (c : Cluster) (o : Operation) : Prop :=
  ∃ code reason, c.answer o = .error (.api code reason)

namespace Entry

/-- the call that reads the revision under a key -/
def read (k : Key) : Entry := .call (.getRevision k.ns k.name)

/-- the call that writes a status for a version of the revision under a key -/
def patch (k : Key) (version status : Data) : Entry :=
  .call (.patchStatus k.ns k.name
    (.object [("metadata", .object [("resourceVersion", version)]), ("status", status)]))

theorem patch_inj {k : Key} {version version' status status' : Data} :
    patch k version status = patch k version' status' ↔ version = version' ∧ status = status' := by
  simp [patch, Data.object]

end Entry

/-! ### One thing after the other -/

/-- What happens: the operator does something, or another client writes. -/
inductive Happening where
  | own (e : Entry)
  | foreign

namespace Happening

/-- what the operator does -/
def own? : Happening → Option Entry
  | .own e => some e
  | .foreign => none

/-- Whether the object under a key may be written or removed, its status aside. The operator writes other objects,
which it does not tell from this one. -/
def MayWrite : Happening → Prop
  | .own e => e.deed = .touch ∨ e.deed = .objectPatch
  | .foreign => True

theorem own?_eq_some {x : Happening} {e : Entry} : x.own? = some e ↔ x = .own e := by
  cases x <;> simp [own?]

end Happening

/-- what the operator does, in order -/
def entriesOf (xs : List Happening) : List Entry := xs.filterMap Happening.own?

@[simp] theorem entriesOf_append (xs ys : List Happening) :
    entriesOf (xs ++ ys) = entriesOf xs ++ entriesOf ys := List.filterMap_append

@[simp] theorem entriesOf_cons_own (e : Entry) (xs : List Happening) :
    entriesOf (.own e :: xs) = e :: entriesOf xs := rfl

@[simp] theorem entriesOf_cons_foreign (xs : List Happening) :
    entriesOf (.foreign :: xs) = entriesOf xs := rfl

@[simp] theorem entriesOf_map_own (es : List Entry) : entriesOf (es.map .own) = es := by
  rw [entriesOf, List.filterMap_map]
  exact List.filterMap_some

/-- What stands under a key, and the versions of all that stood there. -/
structure Record where
  object : Option Data
  past : List Data
  known : ∀ d ∈ object, d.version ∈ past

namespace Record

/-- the status that stands there -/
def status? (s : Record) : Option Data := s.object.bind Data.status?

/-- with something else, or nothing, in place of what stands there -/
def next (s : Record) (o : Option Data) : Record where
  object := o
  past := (o.map Data.version).toList ++ s.past
  known d hd := by
    cases hd
    exact List.mem_append_left _ (List.mem_singleton.2 rfl)

/-- nothing stands there, nor ever did -/
def blank : Record := ⟨none, [], fun _ hd => nomatch hd⟩

/-- an object stands there, and it has the version if one is asked for -/
def Meets (s : Record) (version : Data) : Prop :=
  ∃ d ∈ s.object, version.truthy = true → d.version = version

/-- What may become of what stands under a key, when something happens while the calls of the operator are
answered as in a cluster. -/
inductive Turns (c : Cluster) (k : Key) : Happening → Record → Record → Prop
  /-- a write has a version that none had before -/
  | writes {x : Happening} {s : Record} (o : Option Data) (may : x.MayWrite)
      (fresh : ∀ d ∈ o, d.version ∉ s.past) : Turns c k x s (s.next o)
  /-- a call that finds the revision finds what stands there -/
  | passes {e : Entry} {s : Record} (aside : ∀ version status, e ≠ .patch k version status)
      (seen : e = .read k → c.answer .getRevision = .ok () → c.revision? k = s.object) :
      Turns c k (.own e) s s
  /-- a status is taken for the version that stands there; the answer may be lost -/
  | takes {version status : Data} {s : Record} {d : Data} (meets : s.Meets version)
      (answered : ¬ c.Refuses .patchStatus) (stored : d.status? = some status)
      (fresh : d.version ∉ s.past) : Turns c k (.own (.patch k version status)) s (s.next (some d))
  /-- a status is not taken, and for another version it is refused -/
  | keeps {version status : Data} {s : Record} (answered : c.answer .patchStatus ≠ .ok ())
      (refused : ¬ s.Meets version → c.Refuses .patchStatus) :
      Turns c k (.own (.patch k version status)) s s

/-- What may become of what stands under a key, while one thing happens after the other. -/
inductive Runs (c : Cluster) (k : Key) : List Happening → Record → Record → Prop
  | nil (s : Record) : Runs c k [] s s
  | cons {x : Happening} {xs : List Happening} {s t u : Record} (turn : Turns c k x s t)
      (rest : Runs c k xs t u) : Runs c k (x :: xs) s u

variable {c : Cluster} {k : Key} {s t u : Record} {x : Happening} {xs ys : List Happening}

theorem next_ne (s : Record) (d : Data) : s.next (some d) ≠ s := by
  intro h
  have hpast : d.version :: s.past = s.past := congrArg Record.past h
  exact List.cons_ne_self _ _ hpast

/-! ### What one thing preserves -/

theorem Turns.past_subset (h : Turns c k x s t) : s.past ⊆ t.past := by
  cases h with
  | writes o may fresh => exact List.subset_append_right _ _
  | passes aside seen => exact List.Subset.refl _
  | takes meets answered stored fresh => exact List.subset_append_right _ _
  | keeps answered refused => exact List.Subset.refl _

/-- nothing was written, or what stands there has a version that none had before -/
theorem Turns.untouched_or_fresh (h : Turns c k x s t) :
    (t = s ∧ x ≠ .foreign) ∨ ∀ d ∈ t.object, d.version ∉ s.past := by
  cases h with
  | writes o may fresh => exact .inr fresh
  | passes aside seen => exact .inl ⟨rfl, Happening.noConfusion⟩
  | takes meets answered stored fresh =>
    refine .inr fun d hd => ?_
    cases hd
    exact fresh
  | keeps answered refused => exact .inl ⟨rfl, Happening.noConfusion⟩

/-- reading changes nothing, and finds what stands there -/
theorem Turns.of_read (h : Turns c k (.own (.read k)) s t) :
    t = s ∧ (c.answer .getRevision = .ok () → c.revision? k = s.object) := by
  generalize hx : Happening.own (.read k) = x at h
  cases h with
  | writes o may fresh =>
    rw [← hx] at may
    rcases may with may | may
    · cases may
    · cases may
  | passes aside seen =>
    injection hx with he
    exact ⟨rfl, seen he.symm⟩
  | takes meets answered stored fresh =>
    injection hx with he
    cases congrArg Entry.deed he
  | keeps answered refused =>
    injection hx with he
    cases congrArg Entry.deed he

/-- a status is stored for the version that stands there, or nothing changes -/
theorem Turns.of_patch {version status : Data} (h : Turns c k (.own (.patch k version status)) s t) :
    (s.Meets version ∧ t.status? = some status ∧ ¬ c.Refuses .patchStatus) ∨
    (t = s ∧ c.answer .patchStatus ≠ .ok ()) := by
  generalize hx : Happening.own (.patch k version status) = x at h
  cases h with
  | writes o may fresh =>
    rw [← hx] at may
    rcases may with may | may
    · cases may
    · cases may
  | passes aside seen =>
    injection hx with he
    exact absurd he.symm (aside _ _)
  | takes meets answered stored fresh =>
    injection hx with he
    obtain ⟨rfl, rfl⟩ := Entry.patch_inj.1 he
    exact .inl ⟨meets, stored, answered⟩
  | keeps answered refused => exact .inr ⟨rfl, answered⟩

/-! ### What many things preserve -/

namespace Runs

theorem append_iff : Runs c k (xs ++ ys) s u ↔ ∃ t, Runs c k xs s t ∧ Runs c k ys t u := by
  induction xs generalizing s with
  | nil =>
    constructor
    · intro h
      exact ⟨s, .nil _, h⟩
    · rintro ⟨_, ⟨⟩, h⟩
      exact h
  | cons x xs ih =>
    constructor
    · rintro (_ | ⟨turn, rest⟩)
      obtain ⟨t, hxs, hys⟩ := ih.1 rest
      exact ⟨t, .cons turn hxs, hys⟩
    · rintro ⟨t, _ | ⟨turn, hxs⟩, hys⟩
      exact .cons turn (ih.2 ⟨t, hxs, hys⟩)

/-- Nothing was written, or what stands there has a version that none had before. -/
theorem untouched_or_fresh (h : Runs c k xs s t) :
    (t = s ∧ Happening.foreign ∉ xs) ∨ ∀ d ∈ t.object, d.version ∉ s.past := by
  induction h with
  | nil s => exact .inl ⟨rfl, List.not_mem_nil⟩
  | cons turn rest ih =>
    rcases turn.untouched_or_fresh with ⟨rfl, hown⟩ | hfresh
    · rcases ih with ⟨rfl, hrest⟩ | hfresh
      · refine .inl ⟨rfl, fun hmem => ?_⟩
        rcases List.mem_cons.1 hmem with heq | hmem
        · exact hown heq.symm
        · exact hrest hmem
      · exact .inr hfresh
    · refine .inr ?_
      rcases ih with ⟨rfl, -⟩ | hlater
      · exact hfresh
      · -- the versions of the past stay in the past
        exact fun d hd hpast => hlater d hd (turn.past_subset hpast)

/-- where the version of an object still stands, nothing was written since the object stood there -/
theorem untouched_of_meets {d : Data} (h : Runs c k xs s t) (hd : d ∈ s.object)
    (versioned : d.version.truthy = true) (meets : t.Meets d.version) :
    t = s ∧ Happening.foreign ∉ xs := by
  rcases h.untouched_or_fresh with huntouched | hfresh
  · exact huntouched
  · obtain ⟨d', hd', hversion⟩ := meets
    refine absurd (s.known d hd) ?_
    rw [← hversion versioned]
    exact hfresh d' hd'

/-- What has the version of the object that a call found is this object, and nobody else wrote since the call. -/
theorem object_of_read {earlier since : List Happening} {d : Data}
    (h : Runs c k (earlier ++ .own (.read k) :: since) s t) (answers : c.answer .getRevision = .ok ())
    (found : c.revision? k = some d) (versioned : d.version.truthy = true) (meets : t.Meets d.version) :
    t.object = some d ∧ Happening.foreign ∉ since := by
  obtain ⟨there, -, hread⟩ := append_iff.1 h
  obtain _ | ⟨hturn, hsince⟩ := hread
  obtain ⟨rfl, hseen⟩ := hturn.of_read
  have hthere := (hseen answers).symm.trans found
  obtain ⟨rfl, hnone⟩ := hsince.untouched_of_meets hthere versioned meets
  exact ⟨hthere, hnone⟩

/-- while the operator writes no status and what stands there is what its calls find, nothing changes -/
theorem passes {es : List Entry} (haside : ∀ e ∈ es, e.deed ≠ .statusPatch)
    (hfound : c.revision? k = s.object) : Runs c k (es.map .own) s s := by
  induction es with
  | nil => exact .nil s
  | cons e es ih =>
    rw [List.forall_mem_cons] at haside
    refine .cons (.passes ?_ fun _ _ => hfound) (ih haside.2)
    rintro version status rfl
    exact haside.1 rfl

end Runs

end Record

end MeshOperator
