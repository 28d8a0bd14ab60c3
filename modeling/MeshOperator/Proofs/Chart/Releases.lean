import Mathlib.Data.Set.Insert
import Mathlib.Order.BooleanAlgebra.Set
import MeshOperator.Proofs.Chart.Removal

/-!
# The releases that are there

The chart tool keeps releases, each with a name in a namespace. A run may make or remove the release that
it is about and no other, so what is there after many runs follows from their commands and replies.

* `Chart.Exchange.Turns`: what one run may make of the releases that are there.
* `Chart.Evolves`: what many runs may make of them, one after the other.
* `Chart.Evolves.subset_union`, `Chart.Evolves.subset`, `Chart.Evolves.notMem`: which releases can come,
  that none comes by removals, and that a removal that is passed over leaves none.
* `Entry.Targets`, `Action.exchanges`: which releases an action is about, and what it asks of the tool.
-/

namespace MeshOperator

namespace ToolCommand

theorem target_name (command : ToolCommand) : command.target.name = command.release := by
  cases command <;> rfl

/-- the command removes a release -/
def IsRemoval : ToolCommand → Prop
  | uninstall .. => True
  | _ => False

end ToolCommand

namespace Chart

/-- A run of the chart tool: the command and the reply. -/
structure Exchange where
  command : ToolCommand
  reply : ToolReply

/-- the tool ends well -/
def EndsWell : ToolReply → Prop
  | .ended code _ _ => code = 0
  | _ => False

/-- the tool does not end well, and complains that something is not found -/
def Misses : ToolReply → Prop
  | .ended code _ errors => code ≠ 0 ∧ Text.occurs notFoundWords errors.toList = true
  | _ => False

theorem passes_cases {reply : ToolReply} (h : Passes reply) : EndsWell reply ∨ Misses reply := by
  cases reply with
  | ended code output errors =>
    by_cases hcode : code = 0
    · exact .inl hcode
    · exact .inr ⟨hcode, h.resolve_left hcode⟩
  | missing => cases h
  | forbidden => cases h
  | tooSlow => cases h

/-! ### One run -/

namespace Exchange

/-- What a run may make of the releases that are there before it. An upgrade may add its release, however
it ends. Reading a manifest changes nothing. A removal may remove its release however it ends, and has
removed it if it ends well; it complains that something is not found only of a release that is not
there. -/
def Turns (x : Exchange) (before after : Set Release) : Prop :=
  match x.command with
  | .upgrade .. => after = before ∨ after = insert x.command.target before
  | .manifest .. => after = before
  | .uninstall .. =>
    (after = before ∨ after = before \ {x.command.target}) ∧
    (EndsWell x.reply → x.command.target ∉ after) ∧
    (Misses x.reply → x.command.target ∉ before)

variable {x : Exchange} {before after : Set Release}

/-- a removal adds nothing -/
theorem Turns.subset (h : x.Turns before after) (hremoval : x.command.IsRemoval) : after ⊆ before := by
  obtain ⟨command, reply⟩ := x
  cases command with
  | upgrade => cases hremoval
  | manifest => cases hremoval
  | uninstall name ns =>
    rcases h.1 with rfl | rfl
    · exact subset_rfl
    · exact Set.sdiff_subset

/-- a run adds at most the release that it is about -/
theorem Turns.subset_insert (h : x.Turns before after) : after ⊆ insert x.command.target before := by
  cases hcommand : x.command with
  | upgrade name path ns limit =>
    simp only [Turns, hcommand] at h
    rcases h with rfl | rfl
    · exact Set.subset_insert _ _
    · exact subset_rfl
  | manifest name ns =>
    simp only [Turns, hcommand] at h
    rw [h]
    exact Set.subset_insert _ _
  | uninstall name ns =>
    have hremoval : x.command.IsRemoval := by
      rw [hcommand]
      trivial
    exact (h.subset hremoval).trans (Set.subset_insert _ _)

/-- an upgrade may add its release, whatever the reply -/
theorem turns_upgrade (h : x.command.verb = "upgrade") :
    x.Turns before (insert x.command.target before) := by
  obtain ⟨command, reply⟩ := x
  cases command with
  | upgrade name path ns limit => exact .inr rfl
  | manifest name ns => simp [ToolCommand.verb] at h
  | uninstall name ns => simp [ToolCommand.verb] at h

/-- a removal that is passed over leaves its release not there -/
theorem Turns.notMem (h : x.Turns before after) (hremoval : x.command.IsRemoval)
    (hpasses : Passes x.reply) : x.command.target ∉ after := by
  have hsubset := h.subset hremoval
  obtain ⟨command, reply⟩ := x
  cases command with
  | upgrade => cases hremoval
  | manifest => cases hremoval
  | uninstall name ns =>
    obtain ⟨-, hwell, hmisses⟩ := h
    rcases passes_cases hpasses with hreply | hreply
    · exact hwell hreply
    · exact fun hmem => hmisses hreply (hsubset hmem)

end Exchange

/-! ### Many runs -/

/-- What runs may make of the releases that are there, one after the other. -/
inductive Evolves : List Exchange → Set Release → Set Release → Prop
  | nil (there : Set Release) : Evolves [] there there
  | cons {x : Exchange} {xs : List Exchange} {before between after : Set Release}
      (turns : x.Turns before between) (rest : Evolves xs between after) : Evolves (x :: xs) before after

namespace Evolves

variable {xs ys : List Exchange} {before after : Set Release}

theorem append_iff : Evolves (xs ++ ys) before after ↔
    ∃ between, Evolves xs before between ∧ Evolves ys between after := by
  induction xs generalizing before with
  | nil =>
    constructor
    · intro h
      exact ⟨before, .nil _, h⟩
    · rintro ⟨_, ⟨⟩, h⟩
      exact h
  | cons x xs ih =>
    constructor
    · rintro (_ | ⟨turns, rest⟩)
      obtain ⟨between, hxs, hys⟩ := ih.1 rest
      exact ⟨between, .cons turns hxs, hys⟩
    · rintro ⟨between, _ | ⟨turns, hxs⟩, hys⟩
      exact .cons turns (ih.2 ⟨between, hxs, hys⟩)

/-- runs add at most the releases that they are about -/
theorem subset_union {ts : Set Release} (h : Evolves xs before after)
    (htargets : ∀ x ∈ xs, x.command.target ∈ ts) : after ⊆ before ∪ ts := by
  induction h with
  | nil there => exact Set.subset_union_left
  | @cons x xs before between after turns rest ih =>
    rw [List.forall_mem_cons] at htargets
    have hstep : between ⊆ before ∪ ts :=
      turns.subset_insert.trans
        (Set.insert_subset (Set.mem_union_right _ htargets.1) Set.subset_union_left)
    exact (ih htargets.2).trans (Set.union_subset hstep Set.subset_union_right)

/-- removals add nothing -/
theorem subset (h : Evolves xs before after) (hremovals : ∀ x ∈ xs, x.command.IsRemoval) :
    after ⊆ before := by
  induction h with
  | nil there => exact subset_rfl
  | cons turns rest ih =>
    rw [List.forall_mem_cons] at hremovals
    exact (ih hremovals.2).trans (turns.subset hremovals.1)

/-- a release whose removal is passed over is not there after more removals -/
theorem notMem (h : Evolves xs before after) (hremovals : ∀ x ∈ xs, x.command.IsRemoval)
    {x : Exchange} (hx : x ∈ xs) (hpasses : Passes x.reply) : x.command.target ∉ after := by
  obtain ⟨done, rest, rfl⟩ := List.append_of_mem hx
  rw [List.forall_mem_append, List.forall_mem_cons] at hremovals
  obtain ⟨between, -, _ | ⟨turns, hrest⟩⟩ := append_iff.1 h
  have hgone := turns.notMem hremovals.2.1 hpasses
  exact fun hmem => hgone (hrest.subset hremovals.2.2 hmem)

end Evolves

end Chart

/-! ### The runs of an action -/

namespace Entry

open Chart

/-- the run that an entry tells of, with the reply that a cluster gives to it -/
def exchange? (c : Cluster) : Entry → Option Exchange
  | .tool run => some ⟨run.command, c.reply run.command.verb run.command.release⟩
  | _ => none

/-- a run of the chart tool is about one of some releases -/
def Targets (ts : Set Release) : Entry → Prop
  | .tool run => run.command.target ∈ ts
  | _ => True

variable {e : Entry} {c : Cluster} {ts : Set Release}

theorem exchange?_of_deed (h : e.deed ≠ .toolRun) : e.exchange? c = none := by
  cases e with
  | tool run => exact absurd rfl h
  | call q => rfl
  | log record => rfl
  | count m => rfl

theorem targets_of_deed (h : e.deed ≠ .toolRun) : e.Targets ts := by
  cases e with
  | tool run => exact absurd rfl h
  | call q => trivial
  | log record => trivial
  | count m => trivial

theorem Targets.target_mem (h : e.Targets ts) {x : Exchange} (hx : e.exchange? c = some x) :
    x.command.target ∈ ts := by
  cases e with
  | tool run =>
    cases hx
    exact h
  | call q => cases hx
  | log record => cases hx
  | count m => cases hx

end Entry

namespace Action

open Chart

variable {α : Type} {a : Action α} {ks : List Deed} {ts : Set Release}

/-- the runs of the chart tool that an action makes, with their replies -/
def exchanges (a : Action α) (c : Cluster) : List Exchange :=
  (a.journal c).filterMap (Entry.exchange? c)

/-- all runs are among the works -/
theorem exchanges_eq (c : Cluster) : a.exchanges c = (a.works c).filterMap (Entry.exchange? c) := by
  rw [works, List.filterMap_filter, exchanges]
  congr 1
  funext e
  by_cases h : e.deed = .toolRun
  · simp [Entry.isWork, h]
  · rw [Entry.exchange?_of_deed h, ite_self]

end Action

namespace Chart

/-- the runs that remove the releases of charts are about these -/
theorem exchange?_removals {cfg : Config} {c : Cluster} {o : Key} {charts : List String} :
    (removals cfg o charts).filterMap (Entry.exchange? c) =
      charts.map fun chart => ⟨.uninstall (release o.name chart) o.ns, uninstallReply c o chart⟩ := by
  rw [removals, List.filterMap_map]
  exact congrFun List.filterMap_eq_map' charts

end Chart

end MeshOperator
