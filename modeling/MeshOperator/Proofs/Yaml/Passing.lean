import Mathlib.Data.List.TakeWhile
import MeshOperator.Yaml.Lexer

/-!
# Passing what is ahead

How a cursor moves past known characters: white space with its line breaks, and the parts of a scalar in double
quotes.

* `Cursor.Passes`: a cursor reaches another one past some characters.
* `Cursor.exists_line`: white space is passed line by line.
* `Lexer.exists_skipGaps`: all of it is passed between tokens.
-/

namespace MeshOperator.Yaml

/-! ### Moving past characters -/

namespace Cursor

variable {c d e : Cursor} {s t r : List Char} {ch : Char}

/-- what is left is counted -/
def Counts (c : Cursor) : Prop := c.left = c.rest.length

/-- The cursor `d` is behind the characters `s` that are ahead of `c`. -/
structure Passes (c : Cursor) (s : List Char) (d : Cursor) : Prop where
  rest_eq : c.rest = s ++ d.rest
  counts : c.Counts → d.Counts
  index_eq : d.index = c.index + s.length
  line_eq : (∀ ch ∈ s, isBreak ch = false) → d.line = c.line

theorem Passes.refl (c : Cursor) : c.Passes [] c := ⟨rfl, id, rfl, fun _ => rfl⟩

theorem Passes.trans (h : c.Passes s d) (h' : d.Passes t e) : c.Passes (s ++ t) e := by
  refine ⟨?_, fun hc => h'.counts (h.counts hc), ?_, fun hs => ?_⟩
  · rw [h.rest_eq, h'.rest_eq, List.append_assoc]
  · rw [h'.index_eq, h.index_eq, List.length_append, Nat.add_assoc]
  · rw [List.forall_mem_append] at hs
    rw [h'.line_eq hs.2, h.line_eq hs.1]

theorem passes_step (h : c.rest = ch :: r) : c.Passes [ch] c.step ∧ c.step.rest = r := by
  have hstep : c.step.rest = r ∧ c.step.left = c.left - 1 ∧ c.step.index = c.index + 1 ∧
      (isBreak ch = false → c.step.line = c.line) := by
    unfold step
    rw [h]
    dsimp only
    split
    · rename_i hbreak
      refine ⟨rfl, rfl, rfl, fun hno => absurd hbreak ?_⟩
      have hcr : ch ≠ '\r' := by
        rintro rfl
        cases hno
      simp [hno, hcr]
    · split <;> exact ⟨rfl, rfl, rfl, fun _ => rfl⟩
  obtain ⟨hrest, hleft, hindex, hline⟩ := hstep
  refine ⟨⟨by rw [h, hrest]; rfl, fun hc => ?_, hindex, fun hs => hline (hs ch (by simp))⟩, hrest⟩
  rw [Counts, h, List.length_cons] at hc
  rw [Counts, hleft, hrest, hc, Nat.add_sub_cancel]

theorem passes_forward (h : c.rest = s ++ r) :
    c.Passes s (c.forward s.length) ∧ (c.forward s.length).rest = r := by
  induction s generalizing c with
  | nil => exact ⟨.refl c, h⟩
  | cons ch s ih =>
    obtain ⟨hstep, hrest⟩ := passes_step h
    obtain ⟨hforward, hr⟩ := ih hrest
    exact ⟨hstep.trans hforward, hr⟩

theorem peek_zero (h : c.rest = ch :: r) : c.peek 0 = ch := by simp [peek, h]

theorem peek_one {next : Char} (h : c.rest = ch :: next :: r) : c.peek 1 = next := by simp [peek, h]

theorem peek_of_nil (h : c.rest = []) (k : Nat) : c.peek k = Char.ofNat 0 := by simp [peek, h]

/-- the characters of a class up to one that is not of it -/
theorem run_eq {p : Char → Bool} (h : c.rest = s ++ r) (hs : ∀ ch ∈ s, p ch = true)
    (hr : ∀ ch ∈ r.head?, p ch = false) : c.run p = (s, c.forward s.length) := by
  have hnone : r.takeWhile p = [] := by
    cases r with
    | nil => rfl
    | cons ch r => simp [hr ch rfl]
  have htake : c.rest.takeWhile p = s := by
    rw [h, List.takeWhile_append_of_pos hs, hnone, List.append_nil]
  rw [run, htake]

end Cursor

/-! ### White space -/

/-- what holds of all characters of a list when they are tested one by one -/
theorem forall_mem_of_all {l : List Char} {p : Char → Prop} [DecidablePred p]
    (h : (l.all fun ch => p ch) = true) : ∀ ch ∈ l, p ch :=
  fun ch hch => of_decide_eq_true (List.all_eq_true.1 h ch hch)

/-- the white space that may stand between tokens -/
def isPassed (ch : Char) : Bool := ch = ' ' || ch = '\n' || ch = '\r'

/-- Nothing that would be passed is ahead: no white space, no comment and no byte order mark. -/
def Solid (r : List Char) : Prop :=
  ∀ ch ∈ r.head?, isPassed ch = false ∧ isBreak ch = false ∧ ch ≠ '#' ∧ isOrderMark ch = false

theorem solid_nil : Solid [] := by simp [Solid]

namespace Cursor

variable {c : Cursor} {s r : List Char}

theorem peek_of_solid (h : c.rest = r) (hr : Solid r) : isBreak (c.peek 0) = false ∧ c.peek 0 ≠ '#' := by
  cases r with
  | nil =>
    rw [peek_of_nil h]
    decide
  | cons ch r =>
    rw [peek_zero h]
    exact ⟨(hr ch rfl).2.1, (hr ch rfl).2.2.1⟩

/-- A line break takes one character or two. -/
theorem exists_lineBreak {b : Char} (hb : b = '\n' ∨ b = '\r') (h : c.rest = b :: s ++ r)
    (hs : ∀ ch ∈ s, isPassed ch = true) (hr : Solid r) :
    ∃ passed s', b :: s = passed ++ s' ∧ s'.length ≤ s.length ∧
      c.Passes passed c.lineBreak.2 ∧ c.lineBreak.2.rest = s' ++ r := by
  have hpeek := peek_zero h
  by_cases htwo : b = '\r' ∧ c.peek 1 = '\n'
  · obtain ⟨rfl, hnext⟩ := htwo
    have hbreak : c.lineBreak = (['\n'], c.forward 2) := by simp [lineBreak, hpeek, hnext]
    cases s with
    | nil =>
      -- the line feed would be ahead of what stands behind the white space
      cases r with
      | nil => simp [peek, h] at hnext
      | cons ch r =>
        have hch : ch = '\n' := (peek_one h).symm.trans hnext
        have hfalse := (hr ch rfl).1
        rw [hch] at hfalse
        cases hfalse
    | cons ch s =>
      have hch : ch = '\n' := (peek_one h).symm.trans hnext
      subst hch
      have hsplit : c.rest = ['\r', '\n'] ++ (s ++ r) := h
      obtain ⟨hpasses, hrest⟩ := passes_forward hsplit
      rw [hbreak]
      exact ⟨['\r', '\n'], s, rfl, by simp, hpasses, hrest⟩
  · have hbreak : c.lineBreak = (['\n'], c.step) := by
      rcases hb with rfl | rfl
      · simp [lineBreak, hpeek]
      · have hnext : c.peek 1 ≠ '\n' := fun hnext => htwo ⟨rfl, hnext⟩
        simp [lineBreak, hpeek, hnext]
    obtain ⟨hpasses, hrest⟩ := passes_step h
    rw [hbreak]
    exact ⟨[b], s, rfl, Nat.le_refl _, hpasses, hrest⟩

/-- the spaces at the front of white space are passed, and what follows is its end or a line break -/
theorem exists_spaces (h : c.rest = s ++ r) (hs : ∀ ch ∈ s, isPassed ch = true) (hr : Solid r) :
    ∃ spaces s', s = spaces ++ s' ∧
      c.run (· = ' ') = (spaces, c.forward spaces.length) ∧ c.Passes spaces (c.forward spaces.length) ∧
      (c.forward spaces.length).rest = s' ++ r ∧
      (s' = [] ∨ ∃ b t, s' = b :: t ∧ (b = '\n' ∨ b = '\r')) := by
  have hsplit : s = s.takeWhile (· = ' ') ++ s.dropWhile (· = ' ') :=
    List.takeWhile_append_dropWhile.symm
  have hspaces : ∀ ch ∈ s.takeWhile (· = ' '), (decide (ch = ' ')) = true :=
    fun ch hch => List.mem_takeWhile_imp (p := fun ch => decide (ch = ' ')) hch
  have hrest : c.rest = s.takeWhile (· = ' ') ++ (s.dropWhile (· = ' ') ++ r) := by
    rw [← List.append_assoc, ← hsplit, h]
  -- the first character that is not passed here is none of the spaces
  have hnext : s.dropWhile (· = ' ') = [] ∨
      ∃ b t, s.dropWhile (· = ' ') = b :: t ∧ (b = '\n' ∨ b = '\r') := by
    cases hdrop : s.dropWhile (· = ' ') with
    | nil => exact .inl rfl
    | cons b t =>
      have hmem : b ∈ s := by
        rw [hsplit, hdrop]
        simp
      have hne : (decide (b = ' ')) = false := by
        have hhead := List.head_dropWhile_not (l := s) (fun ch : Char => decide (ch = ' ')) (by simp [hdrop])
        simpa [hdrop] using hhead
      have hpassed := hs b hmem
      simp only [isPassed, Bool.or_eq_true, decide_eq_true_eq] at hpassed
      rw [decide_eq_false_iff_not] at hne
      refine .inr ⟨b, t, rfl, ?_⟩
      rcases hpassed with (hb | hb) | hb
      · exact absurd hb hne
      · exact .inl hb
      · exact .inr hb
  have hhead : ∀ ch ∈ (s.dropWhile (· = ' ') ++ r).head?, (decide (ch = ' ')) = false := by
    intro ch hch
    rcases hnext with hnil | ⟨b, t, hcons, hb⟩
    · rw [hnil, List.nil_append] at hch
      have hpassed := (hr ch hch).1
      rw [decide_eq_false_iff_not]
      rintro rfl
      cases hpassed
    · rw [hcons, List.cons_append, List.head?_cons, Option.mem_some_iff] at hch
      subst hch
      rcases hb with rfl | rfl <;> rfl
  obtain ⟨hpasses, hforward⟩ := passes_forward hrest
  exact ⟨_, _, hsplit, run_eq hrest hspaces hhead, hpasses, hforward, hnext⟩

/-- White space is passed line by line: some spaces, and then no more, or a line break with the rest behind it. -/
theorem exists_line (h : c.rest = s ++ r) (hs : ∀ ch ∈ s, isPassed ch = true) (hr : Solid r) :
    ∃ spaces d, c.run (· = ' ') = (spaces, d) ∧ (c.Passes s d ∧ d.rest = r ∨
      ∃ passed s', s = passed ++ s' ∧ s'.length < s.length ∧ (∀ ch ∈ s', isPassed ch = true) ∧
        isBreak (d.peek 0) = true ∧ d.peek 0 ≠ '#' ∧ c.Passes passed d.lineBreak.2 ∧
        d.lineBreak.2.rest = s' ++ r) := by
  obtain ⟨spaces, s', rfl, hrun, hpasses, hforward, hnext⟩ := exists_spaces h hs hr
  refine ⟨spaces, _, hrun, ?_⟩
  rcases hnext with rfl | ⟨b, t, rfl, hb⟩
  · rw [List.append_nil]
    exact .inl ⟨hpasses, hforward⟩
  · rw [List.forall_mem_append] at hs
    obtain ⟨passed, rest, hsplit, hlength, hbreak, hafter⟩ :=
      exists_lineBreak hb hforward (fun ch hch => hs.2 ch (List.mem_cons_of_mem b hch)) hr
    refine .inr ⟨spaces ++ passed, rest, by rw [hsplit, List.append_assoc], ?_, fun ch hch => hs.2 ch ?_, ?_, ?_,
      hpasses.trans hbreak, hafter⟩
    · simp only [List.length_append, List.length_cons]
      omega
    · rw [hsplit]
      exact List.mem_append_right _ hch
    all_goals
      rw [peek_zero hforward]
      rcases hb with rfl | rfl <;> decide

/-! ### Scalars in double quotes -/

section Quoted

variable {fuel : Nat} {t gap : List Char} {b : Char} {d : Cursor}

theorem quotedRest_quote (h : c.rest = '\x22' :: r) : quotedRest true (fuel + 1) c = .ok ([], c.step) := by
  rw [quotedRest, peek_zero h]
  simp

theorem quotedRest_char {ch : Char} (h : c.rest = ch :: r) (hquote : ch ≠ '\x22') (hescape : ch ≠ '\\')
    (hspace : ch ≠ ' ') (htab : ch ≠ '\t') (hbreak : isBreak ch = false) (hend : ch.toNat ≠ 0)
    (hrest : quotedRest true fuel c.step = .ok (t, d)) :
    quotedRest true (fuel + 1) c = .ok (ch :: t, d) := by
  rw [quotedRest, peek_zero h]
  simp only [if_true, if_neg hquote, hescape, Bool.true_and, decide_false, Bool.false_eq_true, if_false,
    hspace, htab, Bool.or_self, hbreak, if_neg hend, hrest]
  rfl

theorem quotedRest_escape {e : List Char} {c' : Cursor} (h : c.rest = '\\' :: r)
    (hescape : quotedEscape c.step = .ok (e, c')) (hrest : quotedRest true fuel c' = .ok (t, d)) :
    quotedRest true (fuel + 1) c = .ok (e ++ t, d) := by
  have hquote : ¬ ('\\' : Char) = '\x22' := by decide
  rw [quotedRest, peek_zero h]
  simp only [if_true, if_neg hquote, Bool.true_and, decide_true, hescape]
  simp only [ok_bind, hrest]
  rfl

/-- spaces within a line are read at once -/
theorem quotedRest_spaces (h : c.rest = gap ++ b :: r) (hgap : ∀ ch ∈ gap, ch = ' ') (hne : gap ≠ [])
    (hspace : b ≠ ' ') (htab : b ≠ '\t') (hbreak : isBreak b = false) (hend : b.toNat ≠ 0)
    (hrest : quotedRest true fuel (c.forward gap.length) = .ok (t, d)) :
    quotedRest true (fuel + 1) c = .ok (gap ++ t, d) := by
  have hpeek : c.peek 0 = ' ' := by
    cases gap with
    | nil => exact absurd rfl hne
    | cons ch gap =>
      rw [peek_zero h]
      exact hgap ch (by simp)
  have hrun : c.run (fun x => x = ' ' || x = '\t') = (gap, c.forward gap.length) :=
    run_eq h (fun ch hch => by simp [hgap ch hch]) (by simp [hspace, htab])
  have hnext := peek_zero (passes_forward h).2
  have hquote : ¬ (' ' : Char) = '\x22' := by decide
  rw [quotedRest, hpeek]
  simp only [if_true, if_neg hquote, Bool.true_and, Bool.true_or, decide_true, hrun, hnext, if_neg hend,
    hbreak, Bool.false_eq_true, if_false]
  simp only [ok_bind, hrest]
  rfl

end Quoted

end Cursor

namespace Lexer

variable {x y z : Lexer} {s r : List Char}

/-- what is neither a line break nor the end is there to be read -/
theorem isPassed_or_solid (hs : ∀ ch ∈ s, isPassed ch = true) (hr : Solid r) (ch : Char)
    (hch : ch ∈ (s ++ r).head?) : isOrderMark ch = false := by
  cases s with
  | nil => exact (hr ch hch).2.2.2
  | cons b s =>
    rw [List.cons_append, List.head?_cons, Option.mem_some_iff] at hch
    subst hch
    have hb := hs b (by simp)
    simp only [isPassed, Bool.or_eq_true, decide_eq_true_eq] at hb
    rcases hb with (rfl | rfl) | rfl <;> decide

/-- White space is passed; only a line end outside flow collections allows keys. -/
theorem exists_skipGaps {fuel : Nat} (hrest : x.cursor.rest = s ++ r)
    (hs : ∀ ch ∈ s, isPassed ch = true) (hr : Solid r) (hfuel : s.length < fuel) :
    ∃ c a, skipGaps fuel x = (x.moveTo c).allowKey a ∧ x.cursor.Passes s c ∧ c.rest = r ∧
      (x.keyAllowed = true → a = true) := by
  -- on the lines: each takes its line break from the white space
  induction fuel generalizing x s with
  | zero => omega
  | succ fuel ih =>
    have hmark : isOrderMark (x.cursor.peek 0) = false := by
      cases hsr : s ++ r with
      | nil =>
        rw [Cursor.peek_of_nil (hrest.trans hsr)]
        decide
      | cons ch t =>
        rw [Cursor.peek_zero (hrest.trans hsr)]
        exact isPassed_or_solid hs hr ch (by rw [hsr]; rfl)
    obtain ⟨spaces, c, hrun, hline⟩ := Cursor.exists_line hrest hs hr
    have hskip : x.cursor.skip (· = ' ') = c := by rw [Cursor.skip, hrun]
    rcases hline with ⟨hpasses, hforward⟩ | ⟨passed, rest, rfl, hless, hpassed, hbreak, hhash, hpasses, hafter⟩
    · -- nothing but spaces
      obtain ⟨hbreak, hhash⟩ := Cursor.peek_of_solid hforward hr
      refine ⟨c, x.keyAllowed, ?_, hpasses, hforward, id⟩
      rw [skipGaps]
      simp only [hmark, Bool.and_false, Bool.false_eq_true, if_false, hskip, if_neg hhash, hbreak]
      rfl
    · set w := (if x.flow = 0 then (x.moveTo c.lineBreak.2).allowKey true else x.moveTo c.lineBreak.2)
        with hw
      have hwcursor : w.cursor = c.lineBreak.2 := by
        rw [hw]
        split <;> rfl
      obtain ⟨e, a, hskips, hpass, hend, hallow⟩ :=
        ih (x := w) (by rw [hwcursor]; exact hafter) hpassed (by omega)
      rw [hwcursor] at hpass
      refine ⟨e, a, ?_, hpasses.trans hpass, hend, fun hx => hallow ?_⟩
      · rw [skipGaps]
        simp only [hmark, Bool.and_false, Bool.false_eq_true, if_false, hskip, if_neg hhash, hbreak, if_true]
        change skipGaps fuel w = _
        rw [hskips, hw]
        split <;> rfl
      · rw [hw]
        split
        · rfl
        · exact hx

end Lexer

end MeshOperator.Yaml
