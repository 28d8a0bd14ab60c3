import MeshOperator.Proofs.Yaml.Passing

/-!
# Reading tokens on

When one lexer comes to another on its way to the tokens of the whole text, one construct after the other:
the marks of flow collections, scalars in double quotes, and keys.

* `Lexer.Stands`: a lexer within flow collections, before a known rest of the text.
* `Lexer.Comes`: reading on, a lexer comes to one of which something holds.
* `Lexer.comes_key`: a scalar in quotes before a colon is a key.
* `Lexer.Stands.run_eq`: at the end of the text the tokens are complete.
-/

namespace MeshOperator.Yaml.Lexer

variable {x y z : Lexer} {s r : List Char}

/-! ### Lexers without blocks -/

/-- A lexer that has found some tokens and is before a known rest of the text, within some flow
collections and no blocks; no key is demanded anywhere. -/
structure At (x : Lexer) (found : List Token) (flow : Nat) (rest : List Char) : Prop where
  found_eq : x.found = found
  flow_eq : x.flow = flow
  rest_eq : x.cursor.rest = rest
  counts : x.cursor.Counts
  count_eq : x.count = found.length
  indent_eq : x.indent = -1
  outer_eq : x.outer = []
  done_eq : x.done = false
  optional : ∀ k ∈ x.keys, k.2.required = false

/-- The same, with white space before the rest. -/
def Stands (x : Lexer) (found : List Token) (flow : Nat) (rest : List Char) : Prop :=
  ∃ s, (∀ ch ∈ s, isPassed ch = true) ∧ x.At found flow (s ++ rest)

variable {found : List Token} {flow : Nat}

theorem At.stands (h : x.At found flow r) : x.Stands found flow r := ⟨[], by simp, h⟩

theorem At.left_eq (h : x.At found flow r) : x.cursor.left = r.length := by
  rw [h.counts, h.rest_eq]

/-- the places of keys may be any that are not demanded -/
theorem At.withKeys (h : x.At found flow r) {ks : List (Nat × KeyPlace)}
    (hks : ∀ k ∈ ks, k.2.required = false) : At { x with keys := ks } found flow r :=
  { h with optional := hks }

theorem At.allowKey (h : x.At found flow r) (a : Bool) : (x.allowKey a).At found flow r := { h with }

theorem At.moveTo (h : x.At found flow (s ++ r)) {c : Cursor} (hpass : x.cursor.Passes s c)
    (hc : c.rest = r) : (x.moveTo c).At found flow r :=
  { h with rest_eq := hc, counts := hpass.counts h.counts }

theorem At.emit (h : x.At found flow r) (t : Token) : (x.emit t).At (t :: found) flow r :=
  { h with
    found_eq := congrArg (t :: ·) h.found_eq
    count_eq := congrArg (· + 1) h.count_eq }

theorem At.mark {ch : Char} (h : x.At found flow (ch :: r)) (t : Token) :
    (x.mark t 1).At (t :: found) flow r := by
  obtain ⟨hpass, hrest⟩ := Cursor.passes_step h.rest_eq
  exact At.moveTo (s := [ch]) (h.emit t) hpass hrest

/-- white space before the rest is passed as well -/
theorem Stands.of_append (h : x.Stands found flow (s ++ r)) (hs : ∀ ch ∈ s, isPassed ch = true) :
    x.Stands found flow r := by
  obtain ⟨t, ht, h⟩ := h
  refine ⟨t ++ s, List.forall_mem_append.2 ⟨ht, hs⟩, ?_⟩
  rwa [List.append_assoc]

theorem dropStale_of_optional (h : ∀ k ∈ x.keys, k.2.required = false) :
    x.dropStale = .ok { x with keys := x.keys.filter fun k => !x.isStale k.2 } := by
  have hany : (x.keys.any fun k => x.isStale k.2 && k.2.required) = false := by
    rw [List.any_eq_false]
    intro k hk
    simp [h k hk]
  rw [dropStale, hany]
  rfl

theorem dropKey_of_optional (h : ∀ k ∈ x.keys, k.2.required = false) :
    x.dropKey = .ok { x with keys := x.keys.filter fun k => k.1 ≠ x.flow } := by
  have hany : (x.keys.any fun k => k.1 = x.flow && k.2.required) = false := by
    rw [List.any_eq_false]
    intro k hk
    simp [h k hk]
  rw [dropKey, hany]
  rfl

theorem At.dropStale (h : x.At found flow r) :
    ∃ z, x.dropStale = .ok z ∧ z.At found flow r ∧ z.cursor = x.cursor ∧ z.keyAllowed = x.keyAllowed ∧
      z.keys = x.keys.filter fun k => !x.isStale k.2 :=
  ⟨_, dropStale_of_optional h.optional,
    h.withKeys fun k hk => h.optional k ((List.mem_filter.1 hk).1), rfl, rfl, rfl⟩

theorem At.dropKey (h : x.At found flow r) :
    ∃ z, x.dropKey = .ok z ∧ z.At found flow r ∧ z.cursor = x.cursor ∧ z.keyAllowed = x.keyAllowed :=
  ⟨_, dropKey_of_optional h.optional,
    h.withKeys fun k hk => h.optional k ((List.mem_filter.1 hk).1), rfl, rfl⟩

/-- Outside blocks a place where a key may begin is not demanded. -/
theorem At.saveKey (h : x.At found flow r) :
    ∃ z, x.saveKey = .ok z ∧ z.At found flow r ∧ z.cursor = x.cursor ∧
      (x.keyAllowed = true → ∃ k ks, z.keys = (flow, k) :: ks ∧ k.before = found.length ∧
        k.index = x.cursor.index ∧ k.line = x.cursor.line) := by
  by_cases hallowed : x.keyAllowed = true
  · have hcolumn : ¬ x.indent = x.cursor.column := by
      rw [h.indent_eq]
      omega
    have hrequired : (decide (x.flow = 0) && decide (x.indent = x.cursor.column)) = false := by
      simp [hcolumn]
    obtain ⟨z, hdrop, hz, -, -⟩ := h.dropKey
    refine ⟨{ z with keys := (x.flow, ⟨x.count, false, x.cursor.index, x.cursor.line,
      x.cursor.column⟩) :: z.keys }, ?_, hz.withKeys ?_, ?_, fun _ => ?_⟩
    · rw [Lexer.saveKey, if_pos hallowed, hdrop, hrequired]
      rfl
    · rw [List.forall_mem_cons]
      exact ⟨rfl, hz.optional⟩
    · rw [dropKey_of_optional h.optional] at hdrop
      cases hdrop
      rfl
    · exact ⟨_, _, by rw [h.flow_eq], h.count_eq, rfl, rfl⟩
  · refine ⟨x, ?_, h, rfl, fun hx => absurd hx hallowed⟩
    rw [Lexer.saveKey, if_neg hallowed]

/-- without blocks there are none to close -/
theorem At.closeBlocks (h : x.At found flow r) {column : Int} (hcolumn : -1 ≤ column) :
    x.closeBlocks column = x := by
  unfold Lexer.closeBlocks
  split
  · rfl
  · have hclosed : closedBy column x.indent x.outer = (0, -1, []) := by
      rw [h.indent_eq, h.outer_eq, closedBy, if_neg (by omega)]
    rw [hclosed]
    obtain ⟨-, -, -, -, -, hindent, houter, -, -⟩ := h
    cases x
    cases hindent
    cases houter
    rfl

/-! ### Reading on -/

section Steps

-- what a step does is of no matter where steps are put in a row
attribute [local irreducible] next dropStale ready

theorem run_of_done {fuel taken : Nat} (hdone : x.done = true) :
    run (fuel + 1) taken x = ⟨x.found.reverse, none⟩ := by
  change (if x.done then _ else _) = _
  rw [hdone]
  rfl

theorem run_of_next {fuel taken : Nat} (hdone : x.done = false)
    (hdrop : (if x.count ≤ taken then .ok x else x.dropStale) = .ok y) (hnext : y.next = .ok z) :
    run (fuel + 1) taken x = run fuel y.ready z := by
  change (if x.done then _ else _) = _
  rw [hdone, hdrop]
  dsimp only
  rw [hnext]
  rfl

end Steps

/-- Reading on, `x` comes to a lexer of which `Q` holds. There is fuel for each character to come, for the
end of the text and for seeing that it is the end. -/
def Comes (x : Lexer) (Q : Lexer → Prop) : Prop :=
  ∀ fuel taken, x.cursor.left + 2 ≤ fuel →
    ∃ fuel' taken' y, Q y ∧ y.cursor.left + 2 ≤ fuel' ∧ run fuel taken x = run fuel' taken' y

variable {P Q R : Lexer → Prop}

theorem Comes.refl (h : Q x) : x.Comes Q := fun fuel taken hfuel => ⟨fuel, taken, x, h, hfuel, rfl⟩

theorem Comes.trans (h : x.Comes Q) (h' : ∀ y, Q y → y.Comes R) : x.Comes R := by
  intro fuel taken hfuel
  obtain ⟨fuel', taken', y, hy, hleft, hrun⟩ := h fuel taken hfuel
  obtain ⟨fuel'', taken'', z, hz, hleft', hrun'⟩ := h' y hy fuel' taken' hleft
  exact ⟨fuel'', taken'', z, hz, hleft', hrun.trans hrun'⟩

theorem Comes.mono (h : x.Comes Q) (hsub : ∀ y, Q y → R y) : x.Comes R :=
  h.trans fun y hy => .refl (hsub y hy)

/-- What holds of a lexer while places of keys are forgotten. -/
def IsKept (P : Lexer → Prop) : Prop :=
  ∀ x, P x → x.done = false ∧ ∃ z, x.dropStale = .ok z ∧ P z ∧ z.cursor = x.cursor

/-- Whether places of keys are forgotten before a token depends on the tokens taken. -/
theorem IsKept.exists_eq_ok (hkeep : IsKept P) (hx : P x) (taken : Nat) :
    ∃ w, (if x.count ≤ taken then .ok x else x.dropStale) = .ok w ∧ P w ∧ w.cursor = x.cursor := by
  by_cases htaken : x.count ≤ taken
  · exact ⟨x, if_pos htaken, hx, rfl⟩
  · obtain ⟨-, z, hdrop, hz, hcursor⟩ := hkeep x hx
    exact ⟨z, (if_neg htaken).trans hdrop, hz, hcursor⟩

/-- One token on. -/
theorem Comes.of_next (hkeep : IsKept P)
    (hnext : ∀ x, P x → ∃ y, x.next = .ok y ∧ Q y ∧ y.cursor.left < x.cursor.left)
    (hx : P x) : x.Comes Q := by
  intro fuel taken hfuel
  obtain ⟨fuel, rfl⟩ : ∃ n, fuel = n + 1 := ⟨fuel - 1, by omega⟩
  obtain ⟨w, hw, hPw, hcursor⟩ := hkeep.exists_eq_ok hx taken
  obtain ⟨y, hy, hQ, hleft⟩ := hnext w hPw
  refine ⟨fuel, w.ready, y, hQ, ?_, run_of_next (hkeep x hx).1 hw hy⟩
  rw [hcursor] at hleft
  omega

theorem isKept_stands (found : List Token) (flow : Nat) (r : List Char) (a : Bool) :
    IsKept fun x => x.Stands found flow r ∧ (a = true → x.keyAllowed = true) := by
  rintro x ⟨⟨s, hs, hx⟩, ha⟩
  obtain ⟨z, hdrop, hz, hcursor, hkey, -⟩ := hx.dropStale
  exact ⟨hx.done_eq, z, hdrop, ⟨⟨s, hs, hz⟩, fun h => hkey.trans (ha h)⟩, hcursor⟩

/-- how a token is read: white space is passed, then the token is at hand -/
theorem Stands.exists_facing (h : x.Stands found flow r) (hr : Solid r) :
    ∃ z, (skipGaps (x.cursor.left + 1) x).dropStale = .ok z ∧
      z.closeBlocks z.cursor.column = z ∧ z.At found flow r ∧ z.cursor.left ≤ x.cursor.left ∧
      (x.keyAllowed = true → z.keyAllowed = true) := by
  obtain ⟨s, hs, h⟩ := h
  have hfuel : s.length < x.cursor.left + 1 := by
    rw [h.left_eq, List.length_append]
    omega
  obtain ⟨c, a, hskip, hpass, hrest, hallow⟩ := exists_skipGaps h.rest_eq hs hr hfuel
  have hy : ((x.moveTo c).allowKey a).At found flow r := (h.moveTo hpass hrest).allowKey a
  obtain ⟨z, hdrop, hz, hcursor, hkey, -⟩ := hy.dropStale
  refine ⟨z, by rw [hskip, hdrop], hz.closeBlocks (by omega), hz, ?_, fun hx => ?_⟩
  · rw [hz.left_eq, h.left_eq, List.length_append]
    omega
  · rw [hkey]
    exact hallow hx

/-- one token on from where white space and a known rest are ahead -/
theorem Stands.comes (h : x.Stands found flow r) (hr : Solid r)
    (hnext : ∀ w z, (skipGaps (w.cursor.left + 1) w).dropStale = .ok z →
      z.closeBlocks z.cursor.column = z → z.At found flow r →
      (x.keyAllowed = true → z.keyAllowed = true) →
      ∃ y, w.next = .ok y ∧ Q y ∧ y.cursor.left < z.cursor.left) : x.Comes Q := by
  refine Comes.of_next (isKept_stands found flow r x.keyAllowed) (fun w hw => ?_) ⟨h, id⟩
  obtain ⟨z, hskip, hclose, hz, hleft, hkey⟩ := hw.1.exists_facing hr
  obtain ⟨y, hy, hQ, hless⟩ := hnext w z hskip hclose hz fun hx => hkey (hw.2 hx)
  exact ⟨y, hy, hQ, Nat.lt_of_lt_of_le hless hleft⟩

theorem comes_flowStart {ch : Char} {t : Token}
    (hmark : ch = '[' ∧ t = .flowSequence ∨ ch = '\x7b' ∧ t = .flowMapping)
    (h : x.Stands found flow (ch :: r)) :
    x.Comes fun y => y.Stands (t :: found) (flow + 1) r ∧ y.keyAllowed = true := by
  have hsolid : Solid (ch :: r) := by
    rcases hmark with ⟨rfl, -⟩ | ⟨rfl, -⟩ <;> simp [Solid] <;> decide
  refine h.comes hsolid fun w z hskip hclose hz _ => ?_
  have hpeek := Cursor.peek_zero hz.rest_eq
  have hnext : w.next = z.flowStart t := by
    rw [next, hskip]
    simp only [ok_bind, hclose]
    rcases hmark with ⟨rfl, rfl⟩ | ⟨rfl, rfl⟩ <;> simp [Cursor.atMark, hpeek]
  obtain ⟨v, hsave, hv, -, -⟩ := hz.saveKey
  have hdeep : At { v with flow := v.flow + 1 } found (flow + 1) (ch :: r) :=
    { hv with flow_eq := congrArg (· + 1) hv.flow_eq }
  have hy := (hdeep.mark t).allowKey true
  refine ⟨_, ?_, ⟨hy.stands, rfl⟩, ?_⟩
  · rw [hnext, flowStart, hsave]
    rfl
  · rw [hy.left_eq, hz.left_eq]
    exact Nat.lt_succ_self _

theorem comes_flowEnd {ch : Char} {t : Token}
    (hmark : ch = ']' ∧ t = .flowSequenceEnd ∨ ch = '\x7d' ∧ t = .flowMappingEnd)
    (h : x.Stands found (flow + 1) (ch :: r)) : x.Comes fun y => y.Stands (t :: found) flow r := by
  have hsolid : Solid (ch :: r) := by
    rcases hmark with ⟨rfl, -⟩ | ⟨rfl, -⟩ <;> simp [Solid] <;> decide
  refine h.comes hsolid fun w z hskip hclose hz _ => ?_
  have hpeek := Cursor.peek_zero hz.rest_eq
  have hnext : w.next = z.flowEnd t := by
    rw [next, hskip]
    simp only [ok_bind, hclose]
    rcases hmark with ⟨rfl, rfl⟩ | ⟨rfl, rfl⟩ <;> simp [Cursor.atMark, hpeek]
  obtain ⟨v, hdrop, hv, -, -⟩ := hz.dropKey
  have hless : At { v with flow := v.flow - 1 } found flow (ch :: r) := by
    refine { hv with flow_eq := ?_ }
    change v.flow - 1 = flow
    rw [hv.flow_eq, Nat.add_sub_cancel]
  have hy := (hless.mark t).allowKey false
  refine ⟨_, ?_, hy.stands, ?_⟩
  · rw [hnext, flowEnd, hdrop]
    rfl
  · rw [hy.left_eq, hz.left_eq]
    exact Nat.lt_succ_self _

theorem comes_flowEntry (h : x.Stands found flow (',' :: r)) :
    x.Comes fun y => y.Stands (.flowEntry :: found) flow r ∧ y.keyAllowed = true := by
  have hsolid : Solid (',' :: r) := by
    simp [Solid]
    decide
  refine h.comes hsolid fun w z hskip hclose hz _ => ?_
  have hpeek := Cursor.peek_zero hz.rest_eq
  have hnext : w.next = z.flowEntry := by
    rw [next, hskip]
    simp [ok_bind, hclose, Cursor.atMark, hpeek]
  obtain ⟨v, hdrop, hv, -, hkey⟩ := (hz.allowKey true).dropKey
  have hy := hv.mark .flowEntry
  refine ⟨_, ?_, ⟨hy.stands, hkey⟩, ?_⟩
  · rw [hnext, flowEntry, hdrop]
    rfl
  · rw [hy.left_eq, hz.left_eq]
    exact Nat.lt_succ_self _

/-! ### Scalars in quotes -/

/-- The characters `q` are a scalar in double quotes with the content `t`, whatever follows. -/
def Quotes (q t : List Char) : Prop :=
  (∃ q', q = '\x22' :: q') ∧
    ∀ (c : Cursor) (r : List Char), c.rest = q ++ r → c.Counts →
      ∃ d, quotedScalar true c = .ok (t, d) ∧ c.Passes q d ∧ d.rest = r

theorem Quotes.exists_next {q t : List Char} (hq : Quotes q t) {w z : Lexer}
    (hskip : (skipGaps (w.cursor.left + 1) w).dropStale = .ok z)
    (hclose : z.closeBlocks z.cursor.column = z) (hz : z.At found flow (q ++ r)) :
    ∃ y, w.next = .ok y ∧ y.At (.scalar (String.ofList t) false :: found) flow r ∧
      y.cursor.left < z.cursor.left ∧ z.cursor.Passes q y.cursor ∧
      (z.keyAllowed = true → ∃ k ks, y.keys = (flow, k) :: ks ∧ k.before = found.length ∧
        k.index = z.cursor.index ∧ k.line = z.cursor.line) := by
  obtain ⟨⟨q, rfl⟩, hread⟩ := hq
  have hpeek := Cursor.peek_zero hz.rest_eq
  have hnext : w.next = z.quoted true := by
    rw [next, hskip]
    simp [ok_bind, hclose, Cursor.atMark, hpeek]
  obtain ⟨v, hsave, hv, hcursor, hkey⟩ := hz.saveKey
  obtain ⟨d, hscalar, hpass, hrest⟩ := hread z.cursor r hz.rest_eq hz.counts
  have hy := (At.moveTo (s := '\x22' :: q) (hv.emit (.scalar (String.ofList t) false))
    (c := d) (by rw [← hcursor] at hpass; exact hpass) hrest).allowKey false
  refine ⟨_, ?_, hy, ?_, hpass, hkey⟩
  · rw [hnext, quoted, hsave]
    simp only [ok_bind, hcursor, hscalar]
    rfl
  · rw [hy.left_eq, hz.left_eq, List.length_append, List.length_cons]
    omega

theorem Quotes.solid {q t : List Char} (hq : Quotes q t) : Solid (q ++ r) := by
  obtain ⟨⟨q, rfl⟩, -⟩ := hq
  simp [Solid]
  decide

theorem comes_quoted {q t : List Char} (hq : Quotes q t) (h : x.Stands found flow (q ++ r)) :
    x.Comes fun y => y.Stands (.scalar (String.ofList t) false :: found) flow r := by
  refine h.comes hq.solid fun w z hskip hclose hz _ => ?_
  obtain ⟨y, hy, hat, hless, -⟩ := hq.exists_next hskip hclose hz
  exact ⟨y, hy, hat.stands, hless⟩

/-- The token found last may turn out to be a key: the colon that would make it one is ahead in the same
line, not too far from where it began. -/
def Awaits (x : Lexer) (t : Token) (found : List Token) (flow : Nat) (s r : List Char) : Prop :=
  x.At (t :: found) flow (s ++ ':' :: r) ∧
    ∃ k ks, x.keys = (flow, k) :: ks ∧ k.before = found.length ∧ k.line = x.cursor.line ∧
      x.cursor.index + s.length ≤ k.index + 1024

theorem isKept_awaits (t : Token) (found : List Token) (flow : Nat) (s r : List Char) :
    IsKept fun x => x.Awaits t found flow s r := by
  rintro x ⟨hx, k, ks, hkeys, hbefore, hline, hindex⟩
  obtain ⟨z, hdrop, hz, hcursor, -, hfilter⟩ := hx.dropStale
  have hfresh : x.isStale k = false := by
    simp only [isStale, hline, ne_eq, not_true, decide_false, Bool.false_or, decide_eq_false_iff_not]
    omega
  rw [hkeys, List.filter_cons_of_pos (by simp [hfresh])] at hfilter
  refine ⟨hx.done_eq, z, hdrop, ⟨hz, k, _, hfilter, hbefore, ?_, ?_⟩, hcursor⟩
  · rw [hcursor]
    exact hline
  · rw [hcursor]
    exact hindex

theorem valueMark_of_key {k : KeyPlace} {ks : List (Nat × KeyPlace)}
    (hkeys : x.keys = (x.flow, k) :: ks) (hflow : x.flow ≠ 0) :
    x.valueMark = .ok (((insertAt { x with keys := x.keys.filter fun k => k.1 ≠ x.flow } k.before
      [.key]).allowKey false).mark .value 1) := by
  have hfind : x.keys.find? (fun k => k.1 = x.flow) = some (x.flow, k) := by
    rw [hkeys, List.find?_cons_of_pos (by simp)]
  simp only [valueMark, hfind, if_neg hflow]
  rfl

/-- A colon makes a key of the token before it. -/
theorem comes_value {t : Token} {flow : Nat} (hs : ∀ ch ∈ s, ch = ' ')
    (h : x.Awaits t found (flow + 1) s r) :
    x.Comes fun y => y.Stands (.value :: t :: .key :: found) (flow + 1) r := by
  refine Comes.of_next (isKept_awaits t found (flow + 1) s r) (fun w hw => ?_) h
  obtain ⟨hw, k, ks, hkeys, hbefore, hline, hindex⟩ := hw
  have hpassed : ∀ ch ∈ s, isPassed ch = true := fun ch hch => by simp [isPassed, hs ch hch]
  have hsolid : Solid (':' :: r) := by
    simp [Solid]
    decide
  have hfuel : s.length < w.cursor.left + 1 := by
    rw [hw.left_eq, List.length_append]
    omega
  obtain ⟨c, a, hskip, hpass, hrest, -⟩ := exists_skipGaps hw.rest_eq hpassed hsolid hfuel
  -- the colon is in the line of the key, so its place is not forgotten
  have hmoved : ((w.moveTo c).allowKey a).Awaits t found (flow + 1) [] r := by
    refine ⟨(hw.moveTo hpass hrest).allowKey a, k, ks, hkeys, hbefore, ?_, ?_⟩
    · refine hline.trans (hpass.line_eq fun ch hch => ?_).symm
      rw [hs ch hch]
      rfl
    · change c.index + 0 ≤ k.index + 1024
      rw [hpass.index_eq]
      exact hindex
  obtain ⟨-, z, hdrop, ⟨hz, k', ks', hkeys', hbefore', -⟩, -⟩ := isKept_awaits _ _ _ _ _ _ hmoved
  rw [List.nil_append] at hz
  have hpeek := Cursor.peek_zero hz.rest_eq
  have hclose : z.closeBlocks z.cursor.column = z := hz.closeBlocks (by omega)
  have hflow : z.flow ≠ 0 := by
    rw [hz.flow_eq]
    exact Nat.succ_ne_zero _
  have hnext : w.next = z.valueMark := by
    rw [next, hskip, hdrop]
    simp [ok_bind, hclose, Cursor.atMark, hpeek, hflow]
  have hfree : At { z with keys := z.keys.filter fun k => k.1 ≠ z.flow } (t :: found) (flow + 1)
      (':' :: r) :=
    hz.withKeys fun k hk => hz.optional k (List.mem_filter.1 hk).1
  have hkeyed : At (insertAt { z with keys := z.keys.filter fun k => k.1 ≠ z.flow } k'.before [.key])
      (t :: .key :: found) (flow + 1) (':' :: r) := by
    have hlater : z.count - found.length = 1 := by
      rw [hz.count_eq, List.length_cons, Nat.add_sub_cancel_left]
    refine { hfree with found_eq := ?_, count_eq := ?_ }
    · simp only [insertAt, hbefore', hlater, hz.found_eq]
      rfl
    · simp only [insertAt, hz.count_eq]
      rfl
  have hy := (hkeyed.allowKey false).mark .value
  refine ⟨_, ?_, hy.stands, ?_⟩
  · rw [hnext, valueMark_of_key (by rw [hz.flow_eq]; exact hkeys') hflow]
  · rw [hy.left_eq, hw.left_eq, List.length_append, List.length_cons]
    omega

/-- A scalar in quotes is a key if the colon behind it is not too far. -/
theorem comes_key {q t : List Char} (hq : Quotes q t) (hbreaks : ∀ ch ∈ q, isBreak ch = false)
    (hs : ∀ ch ∈ s, ch = ' ') (hlength : q.length + s.length ≤ 1024) {flow : Nat}
    (h : x.Stands found (flow + 1) (q ++ (s ++ ':' :: r))) (hkey : x.keyAllowed = true) :
    x.Comes fun y => y.Stands (.value :: .scalar (String.ofList t) false :: .key :: found) (flow + 1) r := by
  refine Comes.trans (Q := fun y => y.Awaits (.scalar (String.ofList t) false) found (flow + 1) s r)
    (h.comes hq.solid fun w z hskip hclose hz hallow => ?_) fun y hy => comes_value hs hy
  obtain ⟨y, hy, hat, hless, hpass, hplace⟩ := hq.exists_next hskip hclose hz
  obtain ⟨k, ks, hkeys, hbefore, hindex, hline⟩ := hplace (hallow hkey)
  refine ⟨y, hy, ⟨hat, k, ks, hkeys, hbefore, ?_, ?_⟩, hless⟩
  · rw [hline, hpass.line_eq hbreaks]
  · rw [hpass.index_eq, hindex]
    omega
/-! ### The end of the text -/

/-- At the end of the text the tokens are complete. -/
theorem Stands.run_eq {fuel taken : Nat} (h : x.Stands found flow [])
    (hfuel : x.cursor.left + 2 ≤ fuel) :
    run fuel taken x = ⟨(.textEnd :: found).reverse, none⟩ := by
  obtain ⟨fuel, rfl⟩ : ∃ n, fuel = n + 2 := ⟨fuel - 2, by omega⟩
  have hkeep := isKept_stands found flow [] false
  have hx : x.Stands found flow [] ∧ (false = true → x.keyAllowed = true) := ⟨h, nofun⟩
  obtain ⟨w, hw, ⟨hstands, -⟩, -⟩ := hkeep.exists_eq_ok hx taken
  obtain ⟨z, hskip, hclose, hz, -, -⟩ := hstands.exists_facing solid_nil
  obtain ⟨v, hdrop, hv, -, -⟩ := hz.dropKey
  have hpeek := Cursor.peek_of_nil hz.rest_eq
  have hnext : w.next =
      .ok { (v.emit .textEnd) with keyAllowed := false, keys := [], done := true } := by
    rw [next, hskip]
    have hzero : (Char.ofNat 0).toNat = 0 := rfl
    simp only [ok_bind, hclose, hpeek, hzero, if_true]
    rw [atEnd, hz.closeBlocks (Int.le_refl _), hdrop]
    rfl
  rw [run_of_next (hkeep x hx).1 hw hnext, run_of_done rfl]
  change (⟨(Token.textEnd :: v.found).reverse, none⟩ : Tokens) = _
  rw [hv.found_eq]

end MeshOperator.Yaml.Lexer
