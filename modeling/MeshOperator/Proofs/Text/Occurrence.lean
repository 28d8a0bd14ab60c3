import MeshOperator.Text.Blank
import MeshOperator.Text.Cut

/-!
# Occurrences in a text

* `Text.occurs_iff`: a text holds another if that is what stands between two parts of it.
* `Text.occurs_strip`: what begins and ends without a blank is not lost when blanks are taken off.
-/

namespace MeshOperator.Text

variable {p : Char → Bool} {s t u : List Char}

theorem startsWith_iff : startsWith s t = true ↔ t <+: s := by
  induction s generalizing t with
  | nil => cases t <;> simp [startsWith]
  | cons c s ih =>
    cases t with
    | nil => simp [startsWith]
    | cons d t =>
      rw [startsWith, Bool.and_eq_true, decide_eq_true_eq, ih, List.cons_prefix_cons, @eq_comm _ c d]

theorem occurs_iff : occurs t s = true ↔ t <:+: s := by
  induction s with
  | nil => simp [occurs]
  | cons c s ih => rw [occurs, Bool.or_eq_true, startsWith_iff, ih, List.infix_cons_iff]

/-- what holds a text holds the parts of it -/
theorem occurs_of_infix (hu : u <:+: t) (h : occurs t s = true) : occurs u s = true :=
  occurs_iff.2 (hu.trans (occurs_iff.1 h))

/-! ### Taking off blanks -/

/-- a text that does not begin with a blank stays when blanks in front are taken off -/
theorem infix_dropWhile_iff (ht : t.head?.any p = false) :
    t <:+: s.dropWhile p ↔ t <:+: s := by
  refine ⟨fun h => h.trans (List.dropWhile_suffix p).isInfix, fun h => ?_⟩
  induction s with
  | nil => exact h
  | cons c s ih =>
    by_cases hc : p c = true
    · rw [List.dropWhile_cons_of_pos hc]
      rcases List.infix_cons_iff.1 h with hprefix | hinfix
      · cases t with
        | nil => exact List.nil_infix
        | cons d t =>
          -- the text would begin with the blank
          have hd : p d = false := ht
          rw [(List.cons_prefix_cons.1 hprefix).1, hc] at hd
          cases hd
      · exact ih hinfix
    · rw [List.dropWhile_cons_of_neg hc]
      exact h

theorem infix_stripBy_iff (hfirst : t.head?.any p = false)
    (hlast : t.reverse.head?.any p = false) : t <:+: stripBy p s ↔ t <:+: s := by
  rw [stripBy, ← List.reverse_infix, List.reverse_reverse, infix_dropWhile_iff hlast,
    List.reverse_infix, infix_dropWhile_iff hfirst]

theorem occurs_strip {s : String} (hfirst : t.head?.any isBlank = false)
    (hlast : t.reverse.head?.any isBlank = false) :
    occurs t (strip s).toList = occurs t s.toList := by
  rw [Bool.eq_iff_iff, occurs_iff, occurs_iff, strip, String.toList_ofList]
  exact infix_stripBy_iff hfirst hlast

end MeshOperator.Text
