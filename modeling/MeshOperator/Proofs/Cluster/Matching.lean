import MeshOperator.Proofs.Cluster.Steady

/-!
# Runs in two clusters

What an action does in one cluster is compared with what another one does in a second cluster. They match
if they end the same, do the same deeds of the sorts that count, and leave clusters that are related again;
so actions that match can be put together.

* `Action.Matches`: two runs match.
* `Action.Matches.bind`, `Action.Matches.tryCatch`, `Action.Matches.look`: how they are put together.
* `Action.Steady.matching`, `Action.Steady.matching_bind`: an action that only looks at what is the same
  matches itself, and so does what follows it.
-/

namespace MeshOperator.Action

variable {α β : Type} {R : Cluster → Cluster → Prop} {p : Entry → Bool}

/-- The run of `b` in the cluster `d` matches the run of `a` in the cluster `c`: both end the same, do the
same of what `p` picks in the same order, and leave clusters that `R` relates. -/
structure Matches (R : Cluster → Cluster → Prop) (p : Entry → Bool) (a b : Action α) (c d : Cluster) :
    Prop where
  outcome_eq : b.outcome d = a.outcome c
  picked_eq : b.picked p d = a.picked p c
  after : R (a.after c) (b.after d)

theorem Steady.matching {q : Entry → Prop} {a : Action α} {c d : Cluster} (h : a.Steady R q)
    (hclock : d.clock = c.clock) (hcd : R c d) : Matches R p a a c d := by
  refine ⟨h.outcome_eq hcd, congrArg (List.filter p) (h.journal_eq hclock hcd), ?_⟩
  rw [h.quiet.after_eq, h.quiet.after_eq]
  exact hcd

namespace Matches

variable {a b : Action α} {f g : α → Action β} {c d : Cluster}

theorem bind (ha : Matches R p a b c d)
    (hf : ∀ x, a.outcome c = .ok x → Matches R p (f x) (g x) (a.after c) (b.after d)) :
    Matches R p (a >>= f) (b >>= g) c d := by
  cases hx : a.outcome c with
  | ok x =>
    have hy := ha.outcome_eq.trans hx
    refine ⟨?_, ?_, ?_⟩
    · rw [outcome_bind, outcome_bind, hx, hy]
      exact (hf x hx).outcome_eq
    · rw [picked_bind, picked_bind, hx, hy, ha.picked_eq]
      exact congrArg _ (hf x hx).picked_eq
    · rw [after_bind, after_bind, hx, hy]
      exact (hf x hx).after
  | error e =>
    have hy := ha.outcome_eq.trans hx
    refine ⟨?_, ?_, ?_⟩
    · rw [outcome_bind, outcome_bind, hx, hy]
    · rw [picked_bind, picked_bind, hx, hy, ha.picked_eq]
    · rw [after_bind, after_bind, hx, hy]
      exact ha.after

theorem tryCatch {h k : Fault → Action α} (ha : Matches R p a b c d)
    (hh : ∀ e, a.outcome c = .error e → Matches R p (h e) (k e) (a.after c) (b.after d)) :
    Matches R p (MonadExcept.tryCatch a h) (MonadExcept.tryCatch b k) c d := by
  have houtcome (c : Cluster) (a : Action α) (h : Fault → Action α) :
      (MonadExcept.tryCatch a h).outcome c = _ := outcome_tryCatch c a h
  have hpicked (c : Cluster) (a : Action α) (h : Fault → Action α) :
      (MonadExcept.tryCatch a h).picked p c = _ := picked_tryCatch c h
  have hafter (c : Cluster) (a : Action α) (h : Fault → Action α) :
      (MonadExcept.tryCatch a h).after c = _ := after_tryCatch c a h
  cases hx : a.outcome c with
  | ok x =>
    have hy := ha.outcome_eq.trans hx
    refine ⟨?_, ?_, ?_⟩
    · rw [houtcome, houtcome, hx, hy]
    · rw [hpicked, hpicked, hx, hy, ha.picked_eq]
    · rw [hafter, hafter, hx, hy]
      exact ha.after
  | error e =>
    have hy := ha.outcome_eq.trans hx
    refine ⟨?_, ?_, ?_⟩
    · rw [houtcome, houtcome, hx, hy]
      exact (hh e hx).outcome_eq
    · rw [hpicked, hpicked, hx, hy, ha.picked_eq]
      exact congrArg _ (hh e hx).picked_eq
    · rw [hafter, hafter, hx, hy]
      exact (hh e hx).after

/-- what is done after a look at the cluster -/
theorem look {f g : Cluster → Action α} (h : Matches R p (f c) (g d) c d) :
    Matches R p (cluster >>= f) (cluster >>= g) c d :=
  ⟨h.outcome_eq, h.picked_eq, h.after⟩

theorem change {f g : Cluster → Cluster} (h : R (f c) (g d)) :
    Matches R p (Action.change f) (Action.change g) c d := ⟨rfl, rfl, h⟩

theorem orRefused {h k : Data → Data → Action α} (ha : Matches R p a b c d)
    (hh : ∀ s r, Matches R p (h s r) (k s r) (a.after c) (b.after d)) :
    Matches R p (a.orRefused h) (b.orRefused k) c d := by
  refine ha.tryCatch fun e _ => ?_
  cases e with
  | api s r => exact hh s r
  | _ => exact ⟨rfl, rfl, ha.after⟩

end Matches

/-- after an action that only looks at what is the same, what follows meets the same clusters -/
theorem Steady.matching_bind {q : Entry → Prop} {a : Action α} {f g : α → Action β} {c d : Cluster}
    (h : a.Steady R q) (hclock : d.clock = c.clock) (hcd : R c d)
    (hf : ∀ x, a.outcome c = .ok x → Matches R p (f x) (g x) c d) :
    Matches R p (a >>= f) (a >>= g) c d := by
  refine (h.matching hclock hcd).bind fun x hx => ?_
  rw [h.quiet.after_eq, h.quiet.after_eq]
  exact hf x hx

end MeshOperator.Action
