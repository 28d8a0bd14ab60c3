import MeshOperator.Proofs.Cluster.Calls

/-!
# What actions do to the outside

Every entry of a journal is a deed of one sort: a note that stays with the operator, a call of the API or
a run of the chart tool. `Action.Makes` bounds the sorts that an action may make; the works of an action
are the runs of the chart tool and the patches of objects, in order.

* `Action.Writes`: everything that an action writes into the journal is of some kind.
* `Action.Makes`: an action makes no deeds but those of some sorts.
* `Action.picked`, `Action.picked_bind`: what an action does of some sorts, in order.
* `Action.works`: what an action does to the charts and their objects.
* `tried`: the members of a list that are worked on if the first failure ends the work.
* `Api.journal_reading`: a reading call writes that it was made.
-/

namespace MeshOperator

/-- The sorts of deeds. -/
inductive Deed where
  /-- a log record or a count -/
  | note
  | reading
  | event
  | statusPatch
  | touch
  | toolRun
  | objectPatch
deriving DecidableEq, Repr

namespace Entry

/-- the deed that an entry tells of -/
def deed : Entry → Deed
  | .log _ | .count _ => .note
  | .tool _ => .toolRun
  | .call (.getRevision ..) | .call (.readDeployment ..) | .call (.readDaemonSet ..) => .reading
  | .call (.patchStatus ..) => .statusPatch
  | .call (.patchRevision ..) => .touch
  | .call (.createEvent ..) => .event
  | .call (.patchObject ..) => .objectPatch

/-- a run of the chart tool or a patch of an object -/
def isWork (e : Entry) : Bool := e.deed = .toolRun || e.deed = .objectPatch

/-- the run of the chart tool that an entry tells of -/
def run? : Entry → Option ToolRun
  | .tool run => some run
  | _ => none

end Entry

namespace Action

variable {α β : Type} {a : Action α} {f : α → Action β} {ks ls : List Deed}

/-- Everything that the action writes into the journal satisfies `p`. -/
structure Writes (p : Entry → Prop) (a : Action α) : Prop where
  holds : ∀ c, ∀ e ∈ a.journal c, p e

namespace Writes

variable {p q : Entry → Prop}

theorem mono (h : a.Writes p) (hpq : ∀ e, p e → q e) : a.Writes q :=
  ⟨fun c e he => hpq e (h.holds c e he)⟩

theorem pure (x : α) : (Pure.pure x : Action α).Writes p := ⟨fun _ _ he => nomatch he⟩
theorem throw (e : Fault) : (MonadExcept.throw e : Action α).Writes p := ⟨fun _ _ he => nomatch he⟩
theorem of (r : Except Fault α) : (Action.of r).Writes p := ⟨fun _ _ he => nomatch he⟩
theorem cluster : Action.cluster.Writes p := ⟨fun _ _ he => nomatch he⟩
theorem change (g : Cluster → Cluster) : (Action.change g).Writes p := ⟨fun _ _ he => nomatch he⟩

theorem write {e : Entry} (h : p e) : (Action.write e).Writes p := by
  refine ⟨fun c e' he => ?_⟩
  rw [journal_write, List.mem_singleton] at he
  rw [he]
  exact h

theorem bind (ha : a.Writes p) (hf : ∀ x, (f x).Writes p) : (a >>= f).Writes p := by
  refine ⟨fun c e he => ?_⟩
  rw [journal_bind, List.mem_append] at he
  rcases he with he | he
  · exact ha.holds c e he
  · cases hx : a.outcome c with
    | ok x =>
      rw [hx] at he
      exact (hf x).holds _ e he
    | error g =>
      rw [hx] at he
      cases he

/-- what follows an answer that needs nothing from the outside follows that answer only -/
theorem of_bind {r : Except Fault α} (hf : ∀ x, r = .ok x → (f x).Writes p) : (Action.of r >>= f).Writes p := by
  refine ⟨fun c e he => ?_⟩
  rw [journal_bind, journal_of, outcome_of, after_of, List.nil_append] at he
  cases r with
  | ok x => exact (hf x rfl).holds c e he
  | error g => cases he

theorem tryCatch {h : Fault → Action α} (ha : a.Writes p) (hh : ∀ e, (h e).Writes p) :
    (MonadExcept.tryCatch a h).Writes p := by
  refine ⟨fun c e he => ?_⟩
  have hjournal : (MonadExcept.tryCatch a h).journal c = _ := journal_tryCatch c a h
  rw [hjournal, List.mem_append] at he
  rcases he with he | he
  · exact ha.holds c e he
  · cases hx : a.outcome c with
    | ok x =>
      rw [hx] at he
      cases he
    | error g =>
      rw [hx] at he
      exact (hh g).holds _ e he

theorem log (l : Log.Level) (m : String) (fs : List (String × Data)) (h : ∀ record, p (.log record)) :
    (Action.log l m fs).Writes p :=
  cluster.bind fun _ => write (h _)

theorem orRefused {h : Data → Data → Action α} (ha : a.Writes p) (hh : ∀ s r, (h s r).Writes p) :
    (a.orRefused h).Writes p := by
  refine ha.tryCatch fun e => ?_
  split
  · exact hh _ _
  · exact throw _

end Writes

/-- The action makes no deeds but of the sorts `ks`. -/
structure Makes (ks : List Deed) (a : Action α) : Prop where
  deed_mem : ∀ c, ∀ e ∈ a.journal c, e.deed ∈ ks

theorem Makes.writes (h : a.Makes ks) : a.Writes (·.deed ∈ ks) := ⟨h.deed_mem⟩

theorem Writes.makes (h : a.Writes (·.deed ∈ ks)) : a.Makes ks := ⟨h.holds⟩

namespace Makes

theorem mono (h : a.Makes ks) (hsub : ks ⊆ ls) : a.Makes ls :=
  (h.writes.mono fun _ he => hsub he).makes

theorem pure (x : α) : (Pure.pure x : Action α).Makes ks := (Writes.pure x).makes
theorem throw (e : Fault) : (MonadExcept.throw e : Action α).Makes ks := (Writes.throw e).makes
theorem of (r : Except Fault α) : (Action.of r).Makes ks := (Writes.of r).makes
theorem cluster : Action.cluster.Makes ks := Writes.cluster.makes
theorem change (g : Cluster → Cluster) : (Action.change g).Makes ks := (Writes.change g).makes

theorem write {e : Entry} (h : e.deed ∈ ks) : (Action.write e).Makes ks := (Writes.write h).makes

theorem bind (ha : a.Makes ks) (hf : ∀ x, (f x).Makes ks) : (a >>= f).Makes ks :=
  (ha.writes.bind fun x => (hf x).writes).makes

theorem tryCatch {h : Fault → Action α} (ha : a.Makes ks) (hh : ∀ e, (h e).Makes ks) :
    (MonadExcept.tryCatch a h).Makes ks :=
  (ha.writes.tryCatch fun e => (hh e).writes).makes

theorem count (m : Metric) : (Action.count m).Makes [.note] := write (by simp [Entry.deed])

theorem log (l : Log.Level) (m : String) (fs : List (String × Data)) :
    (Action.log l m fs).Makes [.note] :=
  Writes.makes (Writes.log l m fs fun _ => by simp [Entry.deed])

theorem orRefused {h : Data → Data → Action α} (ha : a.Makes ks) (hh : ∀ s r, (h s r).Makes ks) :
    (a.orRefused h).Makes ks :=
  (ha.writes.orRefused fun s r => (hh s r).writes).makes

end Makes

/-- three actions in a row, whichever two are taken together -/
theorem bind_assoc {γ : Type} (a : Action α) (f : α → Action β) (g : β → Action γ) :
    a >>= f >>= g = a >>= fun x => f x >>= g := by
  funext c
  simp only [bind, follow]
  cases (a c).outcome with
  | error e => rfl
  | ok x =>
    dsimp only
    cases (f x (a c).cluster).outcome <;> simp

/-! ### The deeds of some sorts, in order -/

section Picked

/-- the entries of the journal of an action for which `p` holds -/
def picked (p : Entry → Bool) (a : Action α) (c : Cluster) : List Entry := (a.journal c).filter p

variable {p : Entry → Bool} (c : Cluster)

theorem Makes.picked_eq_nil (h : a.Makes ks) (hks : ∀ e : Entry, e.deed ∈ ks → p e = false) :
    a.picked p c = [] := by
  refine List.filter_eq_nil_iff.2 fun e he => ?_
  simp [hks e (h.deed_mem c e he)]

theorem picked_bind : (a >>= f).picked p c = a.picked p c ++
    match a.outcome c with
    | .ok x => (f x).picked p (a.after c)
    | .error _ => [] := by
  unfold picked
  rw [journal_bind, List.filter_append]
  cases a.outcome c <;> rfl

theorem picked_tryCatch (h : Fault → Action α) : (tryCatch a h).picked p c = a.picked p c ++
    match a.outcome c with
    | .ok _ => []
    | .error e => (h e).picked p (a.after c) := by
  unfold picked
  rw [journal_tryCatch, List.filter_append]
  cases a.outcome c <;> rfl

/-- after an action that changes nothing, the next one meets the same cluster -/
theorem Quiet.picked_bind (ha : a.Quiet) : (a >>= f).picked p c = a.picked p c ++
    match a.outcome c with
    | .ok x => (f x).picked p c
    | .error _ => [] := by
  rw [Action.picked_bind, ha.after_eq]

/-- only what follows counts if what comes first changes nothing and does deeds of other sorts -/
theorem Quiet.picked_bind_of_makes (ha : a.Quiet) (hmakes : a.Makes ks)
    (hks : ∀ e : Entry, e.deed ∈ ks → p e = false) : (a >>= f).picked p c =
      match a.outcome c with
      | .ok x => (f x).picked p c
      | .error _ => [] := by
  rw [ha.picked_bind, hmakes.picked_eq_nil c hks, List.nil_append]

/-- only what comes first counts if the deeds of what follows are of other sorts -/
theorem picked_bind_of_makes (hf : ∀ x, (f x).Makes ks)
    (hks : ∀ e : Entry, e.deed ∈ ks → p e = false) : (a >>= f).picked p c = a.picked p c := by
  rw [picked_bind]
  cases a.outcome c with
  | ok x =>
    dsimp only
    rw [(hf x).picked_eq_nil _ hks, List.append_nil]
  | error e => exact List.append_nil _

theorem picked_tryCatch_of_makes {h : Fault → Action α} (hh : ∀ e, (h e).Makes ks)
    (hks : ∀ e : Entry, e.deed ∈ ks → p e = false) :
    (tryCatch a h).picked p c = a.picked p c := by
  rw [picked_tryCatch]
  cases a.outcome c with
  | ok x => exact List.append_nil _
  | error e =>
    dsimp only
    rw [(hh e).picked_eq_nil _ hks, List.append_nil]

end Picked

/-! ### Works -/

/-- the runs of the chart tool and the patches of objects that an action makes -/
def works (a : Action α) (c : Cluster) : List Entry := (a.journal c).filter Entry.isWork

variable (c : Cluster)

theorem works_bind : (a >>= f).works c = a.works c ++
    match a.outcome c with
    | .ok x => (f x).works (a.after c)
    | .error _ => [] :=
  picked_bind c

theorem Quiet.works_bind (ha : a.Quiet) : (a >>= f).works c = a.works c ++
    match a.outcome c with
    | .ok x => (f x).works c
    | .error _ => [] :=
  ha.picked_bind c

@[simp] theorem works_pure (x : α) : (pure x : Action α).works c = [] := rfl
@[simp] theorem works_throw (e : Fault) : (throw e : Action α).works c = [] := rfl
@[simp] theorem works_of (r : Except Fault α) : (of r).works c = [] := rfl
@[simp] theorem works_cluster : cluster.works c = [] := rfl
@[simp] theorem works_count (m : Metric) : (count m).works c = [] := rfl

@[simp] theorem works_log (l : Log.Level) (m : String) (fs : List (String × Data)) :
    (log l m fs).works c = [] := rfl

end Action

/-! ### Work that ends with the first failure -/

section Tried

variable {α : Type} (ok : α → Bool)

/-- the members of a list that are worked on: all up to the first for which `ok` does not hold, and that
one too -/
def tried : List α → List α
  | [] => []
  | a :: as => a :: if ok a then tried as else []

theorem tried_begin (as : List α) : tried ok as <+: as := by
  induction as with
  | nil => exact List.prefix_refl _
  | cons a as ih =>
    rw [tried, List.prefix_cons_inj]
    split
    · exact ih
    · exact List.nil_prefix

theorem tried_append {done : List α} (h : ∀ a ∈ done, ok a = true) (rest : List α) :
    tried ok (done ++ rest) = done ++ tried ok rest := by
  induction done with
  | nil => rfl
  | cons a done ih =>
    rw [List.forall_mem_cons] at h
    rw [List.cons_append, tried, if_pos h.1, ih h.2, List.cons_append]

theorem tried_of_all {as : List α} (h : ∀ a ∈ as, ok a = true) : tried ok as = as := by
  have hall : tried ok (as ++ []) = as ++ tried ok [] := tried_append ok h []
  rwa [List.append_nil, tried, List.append_nil] at hall

theorem tried_stops {done rest : List α} {a : α} (h : ∀ a ∈ done, ok a = true)
    (ha : ¬ ok a = true) : tried ok (done ++ a :: rest) = done ++ [a] := by
  rw [tried_append ok h, tried, if_neg ha]

/-- the members that are worked on: those that go well, and the first that does not, if there is one -/
theorem exists_tried_eq (as : List α) :
    ∃ done rest, as = done ++ rest ∧ (∀ a ∈ done, ok a = true) ∧
      (∀ a ∈ rest.head?, ¬ ok a = true) ∧ tried ok as = done ++ rest.take 1 := by
  induction as with
  | nil => exact ⟨[], [], rfl, by simp, by simp, rfl⟩
  | cons a as ih =>
    by_cases ha : ok a = true
    · obtain ⟨done, rest, has, hdone, hrest, htried⟩ := ih
      refine ⟨a :: done, rest, by rw [has, List.cons_append], ?_, hrest, ?_⟩
      · rw [List.forall_mem_cons]
        exact ⟨ha, hdone⟩
      · rw [tried, if_pos ha, htried, List.cons_append]
    · refine ⟨[], a :: as, rfl, by simp, ?_, ?_⟩
      · intro b hb
        cases hb
        exact ha
      · rw [tried, if_neg ha]
        rfl

end Tried

/-! ### Deeds of the calls -/

namespace Api

variable {α : Type} {ks : List Deed}

theorem makes_call (o : Operation) {q : Request} (h : (Entry.call q).deed ∈ ks) :
    (call o q).Makes ks :=
  (Action.Makes.write h).bind fun _ => Action.Makes.cluster.bind fun _ => .of _

theorem makes_found (x : Option α) : (found x).Makes ks := by
  cases x with
  | none => exact .throw _
  | some a => exact .pure a

/-! ### What reading calls write -/

section Reading

variable (c : Cluster)

theorem journal_call (o : Operation) (q : Request) : (call o q).journal c = [.call q] := rfl

theorem journal_found (x : Option α) : (found x).journal c = [] := by
  cases x <;> rfl

/-- that something is not there is not written -/
theorem journal_ifFound (a : Action α) : (ifFound a).journal c = a.journal c := by
  have htry : (ifFound a).journal c = _ := Action.journal_tryCatch c _ _
  rw [htry, Action.journal_bind, Action.outcome_bind]
  cases a.outcome c with
  | ok x => simp
  | error e =>
    cases e with
    | api s r =>
      simp only [List.append_nil]
      split <;> simp
    | _ => simp

/-- a reading call writes that it was made, and nothing else -/
theorem journal_reading (o : Operation) (q : Request) (x : Cluster → Option α) :
    (ifFound do call o q; found (x (← Action.cluster))).journal c = [.call q] := by
  rw [journal_ifFound, Action.journal_bind, journal_call]
  cases (call o q).outcome c with
  | ok u =>
    dsimp only
    rw [Action.journal_bind, Action.journal_cluster, Action.outcome_cluster]
    dsimp only
    rw [journal_found]
    rfl
  | error f => rfl

theorem journal_getRevision (k : Key) :
    (getRevision k).journal c = [.call (.getRevision k.ns k.name)] := by
  rw [getRevision, Action.journal_bind, journal_reading c _ _ fun c => c.revision? k]
  cases (ifFound _).outcome c with
  | ok object? =>
    cases object? with
    | none => rfl
    | some d =>
      simp only [Action.journal_bind, Action.outcome_of, Action.journal_of, List.nil_append]
      cases Revision.ofData d <;> rfl
  | error f => rfl

theorem journal_readDeployment (k : Key) :
    (readDeployment k).journal c = [.call (.readDeployment k.ns k.name)] :=
  journal_reading c _ _ fun c => Cluster.find? k c.deployments

theorem journal_readDaemonSet (k : Key) :
    (readDaemonSet k).journal c = [.call (.readDaemonSet k.ns k.name)] :=
  journal_reading c _ _ fun c => Cluster.find? k c.daemonSets

end Reading

theorem writes_emitEvent {p : Entry → Prop} (hlog : ∀ record, p (.log record))
    (hevent : ∀ e : Entry, e.deed = .event → p e) (r : Revision) (reason message type : String) :
    (emitEvent r reason message type).Writes p := by
  have hcall (q : Request) (hq : (Entry.call q).deed = .event) : (call .createEvent q).Writes p :=
    (Action.Writes.write (hevent _ hq)).bind fun _ => Action.Writes.cluster.bind fun _ => .of _
  exact (hcall _ rfl).orRefused fun _ _ => .log _ _ _ hlog

theorem makes_emitEvent (r : Revision) (reason message type : String) :
    (emitEvent r reason message type).Makes [.note, .event] :=
  (writes_emitEvent (fun _ => by simp [Entry.deed]) (fun _ he => by simp [he]) r reason message type).makes

theorem makes_patchStatus (r : Revision) (status : Data) :
    (patchStatus r status).Makes [.statusPatch] := by
  refine (makes_call _ (by simp [Entry.deed])).bind fun _ => ?_
  refine Action.Makes.cluster.bind fun _ => (makes_found _).bind fun _ => ?_
  exact .change _

end Api

end MeshOperator
