import MeshOperator.Proofs.Yaml.Lexing

/-!
# Words

A plain scalar of one word before the end of an entry of a flow collection, and how the lexer comes past it and
past the white space behind it.

* `Lexer.IsWord`: a plain scalar of one word.
* `Cursor.exists_plainScalar`: a word is read as it is.
* `Lexer.comes_plain`: the token of a word.
-/

namespace MeshOperator.Yaml

namespace Lexer

variable {x : Lexer} {s r : List Char}

/-- The characters of a plain scalar of one word: it begins with a letter or digit, perhaps behind a
hyphen, and no character of it is white space or has a meaning in flow collections. -/
structure IsWord (w : List Char) : Prop where
  inner : ∀ ch ∈ w, isGap ch = false ∧ ":,?[]\x7b\x7d".toList.contains ch = false
  start : ∃ sign ch t, w = sign ++ ch :: t ∧ (sign = [] ∨ sign = ['-']) ∧ isWordChar ch = true ∧ ch ≠ '-'

/-- what may follow an entry of a flow collection: a comma or the end of the collection -/
def Closing (r : List Char) : Prop := ∃ ch r', r = ch :: r' ∧ ch ∈ [',', ']', '\x7d']

theorem Closing.solid (hr : Closing r) : Solid r := by
  obtain ⟨ch, r', rfl, hch⟩ := hr
  have hall : ∀ ch ∈ [',', ']', '\x7d'],
      isPassed ch = false ∧ isBreak ch = false ∧ ch ≠ '#' ∧ isOrderMark ch = false :=
    forall_mem_of_all (by decide)
  intro c hc
  rw [List.head?_cons, Option.mem_some_iff] at hc
  exact hc ▸ hall ch hch

theorem plainRun_eq {w t : List Char}
    (hw : ∀ ch ∈ w, isGap ch = false ∧ ":,?[]\x7b\x7d".toList.contains ch = false)
    (ht : ∀ ch ∈ t.head?, ∀ next, stopsPlain true ch next = true) : plainRun true (w ++ t) = w := by
  induction w with
  | nil =>
    cases t with
    | nil => rfl
    | cons ch t => rw [List.nil_append, plainRun, ht ch rfl, if_pos rfl]
  | cons ch w ih =>
    rw [List.forall_mem_cons] at hw
    have hgo : ∀ next, stopsPlain true ch next = false := by
      intro next
      obtain ⟨hgap, hmark⟩ := hw.1
      simp at hmark
      simp [stopsPlain, hgap, hmark]
    rw [List.cons_append, plainRun, hgo, ih hw.2]
    rfl

/-- white space or the end of an entry ends a plain scalar -/
theorem stopsPlain_of_head (hs : ∀ ch ∈ s, isPassed ch = true) (hr : Closing r) :
    ∀ ch ∈ (s ++ r).head?, ∀ next, stopsPlain true ch next = true := by
  intro ch hch next
  cases s with
  | nil =>
    obtain ⟨c, r', rfl, hc⟩ := hr
    rw [List.nil_append, List.head?_cons, Option.mem_some_iff] at hch
    subst hch
    have hall : ∀ c ∈ [',', ']', '\x7d'], ",?[]\x7b\x7d".toList.contains c = true :=
      forall_mem_of_all (by decide)
    rw [stopsPlain, hall c hc]
    simp
  | cons c s =>
    rw [List.cons_append, List.head?_cons, Option.mem_some_iff] at hch
    subst hch
    have hc := hs c (by simp)
    simp only [isPassed, Bool.or_eq_true, decide_eq_true_eq] at hc
    rcases hc with (rfl | rfl) | rfl <;> simp [stopsPlain, isGap, isSpaceOrEnd, isBreakOrEnd, isBreak]

end Lexer

namespace Cursor

variable {c : Cursor} {s r : List Char}

/-- no mark between documents is ahead where an entry ends -/
theorem not_atAnyMark (h : c.rest = s ++ r) (hs : ∀ ch ∈ s, isPassed ch = true)
    (hr : Lexer.Closing r) : c.atAnyMark = false := by
  have hpeek : c.peek 0 ≠ '-' ∧ c.peek 0 ≠ '.' := by
    cases s with
    | nil =>
      obtain ⟨ch, r', rfl, hch⟩ := hr
      rw [peek_zero h]
      have hall : ∀ ch ∈ [',', ']', '\x7d'], ch ≠ '-' ∧ ch ≠ '.' := forall_mem_of_all (by decide)
      exact hall ch hch
    | cons ch s =>
      rw [peek_zero h]
      have hch := hs ch (by simp)
      simp only [isPassed, Bool.or_eq_true, decide_eq_true_eq] at hch
      rcases hch with (rfl | rfl) | rfl <;> decide
  simp [atAnyMark, atMark, hpeek.1, hpeek.2]

/-- The white space behind a plain scalar is passed with it, line by line. -/
theorem exists_plainBreaks {fuel : Nat} (h : c.rest = s ++ r) (hs : ∀ ch ∈ s, isPassed ch = true)
    (hr : Lexer.Closing r) (hfuel : s.length < fuel) :
    ∃ bs d, plainBreaks fuel c = (some bs, d) ∧ c.Passes s d ∧ d.rest = r := by
  induction fuel generalizing c s with
  | zero => omega
  | succ fuel ih =>
    obtain ⟨spaces, e, hrun, hline⟩ := exists_line h hs hr.solid
    have hskip : c.skip (· = ' ') = e := by rw [skip, hrun]
    rcases hline with ⟨hpasses, hforward⟩ | ⟨passed, rest, rfl, hless, hpassed, hbreak, -, hpasses, hafter⟩
    · have hstop := (peek_of_solid hforward hr.solid).1
      refine ⟨[], e, ?_, hpasses, hforward⟩
      rw [plainBreaks, hskip]
      simp [hstop]
    · obtain ⟨bs, d, hbreaks, hpass, hd⟩ := ih hafter hpassed (by omega)
      refine ⟨e.lineBreak.1 ++ bs, d, ?_, hpasses.trans hpass, hd⟩
      rw [plainBreaks, hskip]
      simp only [hbreak, if_true, not_atAnyMark hafter hpassed hr, Bool.false_eq_true, if_false, hbreaks]
      rfl

theorem exists_plainGap (h : c.rest = s ++ r) (hc : c.Counts) (hs : ∀ ch ∈ s, isPassed ch = true)
    (hr : Lexer.Closing r) :
    ∃ gap broken d, plainGap c = (some gap, broken, d) ∧ c.Passes s d ∧ d.rest = r := by
  obtain ⟨spaces, e, hrun, hline⟩ := exists_line h hs hr.solid
  rcases hline with ⟨hpasses, hforward⟩ | ⟨passed, rest, rfl, hless, hpassed, hbreak, -, hpasses, hafter⟩
  · have hstop := (peek_of_solid hforward hr.solid).1
    refine ⟨spaces, false, e, ?_, hpasses, hforward⟩
    rw [plainGap, hrun]
    simp [hstop]
  · have hcount : rest.length < e.lineBreak.2.left + 1 := by
      have hleft : e.lineBreak.2.Counts := hpasses.counts hc
      rw [Counts, hafter, List.length_append] at hleft
      omega
    obtain ⟨bs, d, hbreaks, hpass, hd⟩ := exists_plainBreaks hafter hpassed hr hcount
    refine ⟨foldBreaks e.lineBreak.1 bs, true, d, ?_, hpasses.trans hpass, hd⟩
    rw [plainGap, hrun]
    simp only [hbreak, if_true, not_atAnyMark hafter hpassed hr, Bool.false_eq_true, if_false, hbreaks]
    rfl

/-- A word before the end of an entry is a plain scalar, and the white space behind it is passed with it. -/
theorem exists_plainScalar {w : List Char} (indent : Int) (hw : Lexer.IsWord w)
    (hs : ∀ ch ∈ s, isPassed ch = true) (hr : Lexer.Closing r) (h : c.rest = w ++ (s ++ r))
    (hc : c.Counts) :
    ∃ broken d, plainScalar true indent c = (w, broken, d) ∧ c.Passes (w ++ s) d ∧ d.rest = r := by
  obtain ⟨sign, ch, t, hword, hsign, hch, -⟩ := hw.start
  have hne : w ≠ [] := by
    rw [hword]
    simp
  have hpart : plainRun true c.rest = w := by
    rw [h]
    exact Lexer.plainRun_eq hw.inner (Lexer.stopsPlain_of_head hs hr)
  have hhash : c.peek 0 ≠ '#' := by
    rcases hsign with rfl | rfl
    · rw [hword] at h
      rw [peek_zero h]
      rintro rfl
      cases hch
    · rw [hword] at h
      rw [peek_zero h]
      decide
  obtain ⟨hpasses, hforward⟩ := passes_forward h
  obtain ⟨gap, broken, d, hgap, hpass, hd⟩ := exists_plainGap hforward (hpasses.counts hc) hs hr
  -- behind the white space there is no further part
  have hend : ∀ fuel, plainParts true (indent + 1) fuel gap broken d = ([], broken, d) := by
    intro fuel
    cases fuel with
    | zero => rfl
    | succ fuel =>
      have hrun : plainRun true d.rest = [] := by
        rw [hd]
        exact Lexer.plainRun_eq (w := []) (by simp) (Lexer.stopsPlain_of_head (s := []) (by simp) hr)
      rw [plainParts, hrun]
      simp
  refine ⟨broken, d, ?_, hpasses.trans hpass, hd⟩
  rw [plainScalar, plainParts, if_neg hhash, hpart]
  have hempty : w.isEmpty = false := by simpa using hne
  simp only [hempty, Bool.false_eq_true, if_false, hgap, List.nil_append]
  cases gap with
  | nil => rfl
  | cons b gap =>
    have hhash' := (peek_of_solid hd hr.solid).2
    simp [hhash', hend]

end Cursor

namespace Lexer

variable {x : Lexer} {s r : List Char} {found : List Token} {flow : Nat}

/-- the characters with a meaning of their own at the beginning of a token -/
def marks : List Char :=
  ['-', '?', ':', ',', '[', ']', '\x7b', '\x7d', '#', '&', '*', '!', '|', '>', '\x27', '\x22', '%', '@', '\x60']

theorem notMem_marks {ch : Char} (hword : isWordChar ch = true) (hch : ch ≠ '-') : ch ∉ marks := by
  intro hmem
  have hall : ∀ c ∈ marks, c = '-' ∨ isWordChar c = false := forall_mem_of_all (by decide)
  rcases hall ch hmem with heq | hfalse
  · exact hch heq
  · rw [hword] at hfalse
    cases hfalse

namespace IsWord

variable {w : List Char} (hw : IsWord w)
include hw

theorem startsPlain_eq {c : Cursor} (hrest : c.rest = w ++ r) (flow : Bool) :
    startsPlain flow c = true := by
  obtain ⟨sign, ch, t, hword, hsign, hch, hne⟩ := hw.start
  have hgap : isGap ch = false := (hw.inner ch (by simp [hword])).1
  rw [hword, List.append_assoc, List.cons_append] at hrest
  rcases hsign with rfl | rfl
  · rw [List.nil_append] at hrest
    have hpeek := Cursor.peek_zero hrest
    have hmarks := notMem_marks hch hne
    simp only [marks, List.mem_cons, List.not_mem_nil, not_or] at hmarks
    simp [startsPlain, hpeek, hgap, hmarks]
  · have hpeek := Cursor.peek_zero hrest
    have hnext := Cursor.peek_one hrest
    simp [startsPlain, hpeek, hnext, hgap]

theorem solid : Solid (w ++ r) := by
  obtain ⟨sign, ch, t, hword, hsign, hch, -⟩ := hw.start
  -- a word begins with a hyphen or with a letter or digit
  obtain ⟨c, t', hcons, hc⟩ : ∃ c t', w = c :: t' ∧ isWordChar c = true := by
    rcases hsign with rfl | rfl
    · exact ⟨ch, t, hword, hch⟩
    · exact ⟨'-', ch :: t, hword, rfl⟩
  have hgap := (hw.inner c (by simp [hcons])).1
  intro d hd
  rw [hcons, List.cons_append, List.head?_cons, Option.mem_some_iff] at hd
  subst hd
  simp only [isGap, isSpaceOrEnd, isBreakOrEnd, Bool.or_eq_false_iff] at hgap
  obtain ⟨-, hspace, -, hbreak⟩ := hgap
  refine ⟨?_, hbreak, ?_, ?_⟩
  · simp only [isBreak, Bool.or_eq_false_iff] at hbreak
    simp [isPassed, hspace, hbreak]
  · rintro rfl
    cases hc
  · rw [isOrderMark, decide_eq_false_iff_not]
    intro hmark
    simp only [isWordChar, hmark, Bool.or_eq_true, decide_eq_true_eq] at hc
    rcases hc with (hc | rfl) | rfl
    · simp at hc
    · cases hmark
    · cases hmark

/-- A word is read as a plain scalar. -/
theorem next_eq {y z : Lexer} (hskip : (skipGaps (y.cursor.left + 1) y).dropStale = .ok z)
    (hclose : z.closeBlocks z.cursor.column = z) (hrest : z.cursor.rest = w ++ r) :
    y.next = z.plain := by
  have hplain := hw.startsPlain_eq hrest
  obtain ⟨sign, ch, t, hword, hsign, hch, hne⟩ := hw.start
  have hgap : isGap ch = false := (hw.inner ch (by simp [hword])).1
  have hend : ch.toNat ≠ 0 := by
    intro hzero
    simp [isGap, isSpaceOrEnd, isBreakOrEnd, hzero] at hgap
  have hpoint : ch ≠ '.' := by
    rintro rfl
    cases hch
  have hmarks := notMem_marks hch hne
  rw [hword, List.append_assoc, List.cons_append] at hrest
  rw [next, hskip]
  simp only [ok_bind, hclose]
  rcases hsign with rfl | rfl
  · rw [List.nil_append] at hrest
    have hpeek := Cursor.peek_zero hrest
    simp only [marks, List.mem_cons, List.not_mem_nil, not_or] at hmarks
    simp [Cursor.atMark, hpeek, hend, hpoint, hmarks, hplain]
  · have hpeek := Cursor.peek_zero hrest
    have hnext := Cursor.peek_one hrest
    simp [Cursor.atMark, hpeek, hnext, hgap, hne, hplain]

end IsWord

theorem comes_plain {w : List Char} (hw : IsWord w) (hs : ∀ ch ∈ s, isPassed ch = true)
    (hr : Closing r) (h : x.Stands found (flow + 1) (w ++ (s ++ r))) :
    x.Comes fun y => y.Stands (.scalar (String.ofList w) true :: found) (flow + 1) r := by
  refine h.comes hw.solid fun y z hskip hclose hz _ => ?_
  obtain ⟨v, hsave, hv, hcursor, -⟩ := hz.saveKey
  have hflow : decide (v.flow ≠ 0) = true := by
    rw [hv.flow_eq]
    simp
  obtain ⟨broken, d, hplain, hpass, hd⟩ :=
    Cursor.exists_plainScalar v.indent hw hs hr hv.rest_eq hv.counts
  have hgo : v.At found (flow + 1) ((w ++ s) ++ r) := by
    rw [List.append_assoc]
    exact hv
  have hy := (At.moveTo (hgo.emit (.scalar (String.ofList w) true)) hpass hd).allowKey broken
  refine ⟨_, ?_, hy.stands, ?_⟩
  · rw [hw.next_eq hskip hclose hz.rest_eq, plain, hsave]
    simp only [ok_bind, hflow, hplain]
    rfl
  · have hne : 0 < w.length := by
      obtain ⟨sign, ch, t, hword, -⟩ := hw.start
      rw [hword, List.length_append, List.length_cons]
      omega
    rw [hy.left_eq, hz.left_eq, List.length_append, List.length_append]
    omega

end Lexer

end MeshOperator.Yaml
