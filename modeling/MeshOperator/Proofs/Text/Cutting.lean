import MeshOperator.Text.Cut

/-!
# Texts cut at separators

* `Text.cut_glue`: pieces without the separator are those of the text that is glued from them.
* `Text.cutFirst?_eq_some_iff`: a text is cut at the first separator.
* `Text.cutLast?_eq_some_iff`: or at the last one.
-/

namespace MeshOperator.Text

variable {sep : Char}

theorem notMem_of_mem_cut {s p : List Char} (h : p ∈ cut sep s) : sep ∉ p := by
  induction s generalizing p with
  | nil => simp_all [cut]
  | cons c s ih =>
    rw [cut] at h
    cases hcut : cut sep s with
    | nil => exact absurd hcut (cut_ne_nil sep s)
    | cons q qs =>
      rw [hcut] at h ih
      dsimp only at h
      split at h
      · rcases List.mem_cons.1 h with rfl | h
        · simp
        · exact ih h
      · rename_i hc
        rcases List.mem_cons.1 h with rfl | h
        · rw [List.mem_cons, not_or]
          exact ⟨fun he => hc he.symm, ih (List.mem_cons_self ..)⟩
        · exact ih (List.mem_cons_of_mem _ h)

/-- what holds no separator is a single piece -/
theorem cut_of_notMem {p : List Char} (h : sep ∉ p) : cut sep p = [p] := by
  induction p with
  | nil => rfl
  | cons c p ih =>
    rw [List.mem_cons, not_or] at h
    have hc : ¬ c = sep := fun he => h.1 he.symm
    rw [cut, ih h.2]
    exact if_neg hc

theorem cut_append_sep {p : List Char} (h : sep ∉ p) (s : List Char) :
    cut sep (p ++ sep :: s) = p :: cut sep s := by
  induction p with
  | nil =>
    cases hcut : cut sep s with
    | nil => exact absurd hcut (cut_ne_nil sep s)
    | cons q qs => simp [cut, hcut]
  | cons c p ih =>
    rw [List.mem_cons, not_or] at h
    have hc : ¬ c = sep := fun he => h.1 he.symm
    rw [List.cons_append, cut, ih h.2]
    exact if_neg hc

/-- the pieces on both sides of a separator -/
theorem cut_append (s t : List Char) : cut sep (s ++ sep :: t) = cut sep s ++ cut sep t := by
  induction s with
  | nil => exact cut_append_sep (List.not_mem_nil) t
  | cons c s ih =>
    rw [List.cons_append, cut, cut, ih]
    cases hcut : cut sep s with
    | nil => exact absurd hcut (cut_ne_nil sep s)
    | cons p ps =>
      rw [List.cons_append]
      dsimp only
      split <;> rfl

/-- pieces without the separator are those of the text that is glued from them -/
theorem cut_glue {ps : List (List Char)} (hne : ps ≠ []) (h : ∀ p ∈ ps, sep ∉ p) :
    cut sep (glue [sep] ps) = ps := by
  induction ps with
  | nil => exact absurd rfl hne
  | cons p ps ih =>
    obtain ⟨hp, hps⟩ := List.forall_mem_cons.1 h
    cases ps with
    | nil => exact cut_of_notMem hp
    | cons q qs =>
      have hrest := ih (List.cons_ne_nil q qs) hps
      rw [glue, List.append_assoc, List.singleton_append, cut_append_sep hp, hrest]
      simp

/-- the pieces of a text make the text again -/
theorem intercalate_cut (s : List Char) : [sep].intercalate (cut sep s) = s := by
  induction s with
  | nil => rfl
  | cons c s ih =>
    rw [cut]
    cases hcut : cut sep s with
    | nil => exact absurd hcut (cut_ne_nil sep s)
    | cons p ps =>
      rw [hcut] at ih
      dsimp only
      split
      · rename_i hc
        have hglue : [sep].intercalate ([] :: p :: ps) = sep :: [sep].intercalate (p :: ps) := by
          simp [List.intercalate]
        rw [hglue, ih, hc]
      · have hglue : [sep].intercalate ((c :: p) :: ps) = c :: [sep].intercalate (p :: ps) := by
          cases ps <;> simp [List.intercalate]
        rw [hglue, ih]

theorem cutFirst?_append {s : List Char} (h : sep ∉ s) (t : List Char) :
    cutFirst? sep (s ++ sep :: t) = some (s, t) := by
  induction s with
  | nil => simp [cutFirst?]
  | cons c s ih =>
    rw [List.mem_cons, not_or] at h
    have hc : ¬ c = sep := fun he => h.1 he.symm
    rw [List.cons_append, cutFirst?, if_neg hc, ih h.2]
    rfl

theorem cutFirst?_of_notMem {s : List Char} (h : sep ∉ s) : cutFirst? sep s = none := by
  induction s with
  | nil => rfl
  | cons c s ih =>
    rw [List.mem_cons, not_or] at h
    have hc : ¬ c = sep := fun he => h.1 he.symm
    rw [cutFirst?, if_neg hc, ih h.2]
    rfl

theorem cutFirst?_eq_some_iff {s a b : List Char} :
    cutFirst? sep s = some (a, b) ↔ s = a ++ sep :: b ∧ sep ∉ a := by
  constructor
  · intro h
    by_cases hs : sep ∈ s
    · obtain ⟨a', b', rfl, ha'⟩ := List.eq_append_cons_of_mem hs
      rw [cutFirst?_append ha'] at h
      cases h
      exact ⟨rfl, ha'⟩
    · rw [cutFirst?_of_notMem hs] at h
      cases h
  · rintro ⟨rfl, ha⟩
    exact cutFirst?_append ha b

/-! ### The last separator -/

theorem cutLast?_of_notMem {s : List Char} (h : sep ∉ s) : cutLast? sep s = none := by
  induction s with
  | nil => rfl
  | cons c s ih =>
    rw [List.mem_cons, not_or] at h
    rw [cutLast?, ih h.2]
    exact if_neg fun hc => h.1 hc.symm

theorem cutLast?_append {t : List Char} (h : sep ∉ t) (s : List Char) :
    cutLast? sep (s ++ sep :: t) = some (s, t) := by
  induction s with
  | nil => simp [cutLast?, cutLast?_of_notMem h]
  | cons c s ih => simp [cutLast?, ih]

theorem cutLast?_eq_some_iff {s a b : List Char} :
    cutLast? sep s = some (a, b) ↔ s = a ++ sep :: b ∧ sep ∉ b := by
  constructor
  · intro h
    by_cases hs : sep ∈ s
    · -- the last separator is the first one from behind
      obtain ⟨b', a', hreverse, hb'⟩ := List.eq_append_cons_of_mem (List.mem_reverse.2 hs)
      have hs' : s = a'.reverse ++ sep :: b'.reverse := by
        rw [← List.reverse_reverse s, hreverse]
        simp
      have hb : sep ∉ b'.reverse := fun hmem => hb' (List.mem_reverse.1 hmem)
      rw [hs', cutLast?_append hb] at h
      cases h
      exact ⟨hs', hb⟩
    · rw [cutLast?_of_notMem hs] at h
      cases h
  · rintro ⟨rfl, hb⟩
    exact cutLast?_append hb a

end MeshOperator.Text
