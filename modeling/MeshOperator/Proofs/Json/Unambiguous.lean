import MeshOperator.Proofs.Json.Spelling

/-!
# One reading

A text is the text of one tree at most. Every kind of token ends by itself: given what may come behind, a text
is cut in one way only into a token of the kind and the rest. So the tokens are found from left to right.

* `Cuts`: a thing of a kind is told from the beginning of a text.
* `Value.cuts`, `Items.cuts`, `Members.cuts`: so are values and their parts.
* `Document.eq_of_text_eq`: no two trees have one text.
-/

namespace MeshOperator.Json

/-! ### Beginnings of texts -/

/-- The text does not begin with such a character. -/
def Stops (p : Char → Bool) (r : List Char) : Prop := (r.head?.map p).getD false = false

section Stops

variable {p q : Char → Bool} {c : Char} {r s t u : List Char}

@[simp] theorem stops_nil : Stops p [] := rfl

@[simp] theorem stops_cons : Stops p (c :: r) ↔ p c = false := Iff.rfl

theorem Stops.mono (h : Stops q r) (hpq : ∀ c, p c = true → q c = true) : Stops p r := by
  cases r with
  | nil => rfl
  | cons c r =>
    rw [stops_cons] at h ⊢
    exact Bool.eq_false_iff.2 fun hp => Bool.false_ne_true (h.symm.trans (hpq c hp))

theorem Stops.append (hs : Stops p s) (hr : Stops p r) : Stops p (s ++ r) := by
  cases s with
  | nil => exact hr
  | cons c s => exact hs

/-- a run of characters ends where they do -/
theorem append_inj_of_stops (hs : ∀ c ∈ s, p c = true) (ht : ∀ c ∈ t, p c = true) (hr : Stops p r)
    (hu : Stops p u) (h : s ++ r = t ++ u) : s = t ∧ r = u := by
  have hnil {r : List Char} (hr : Stops p r) : r.takeWhile p = [] := by
    cases r with
    | nil => rfl
    | cons c r => exact List.takeWhile_cons_of_neg (by rw [stops_cons.1 hr]; exact Bool.false_ne_true)
  have htake := congrArg (List.takeWhile p) h
  rw [List.takeWhile_append_of_pos hs, List.takeWhile_append_of_pos ht, hnil hr, hnil hu, List.append_nil,
    List.append_nil] at htake
  exact ⟨htake, List.append_cancel_left (htake ▸ h)⟩

end Stops

/-- No other thing of its kind, and no other rest, is found at the beginning of a text that begins with it, if
what comes behind such things is as told. -/
def Cuts {α : Type} (text : α → List Char) (Behind : List Char → Prop) (a : α) : Prop :=
  ∀ ⦃b : α⦄ ⦃r s : List Char⦄, Behind r → Behind s → text a ++ r = text b ++ s → a = b ∧ r = s

/-! ### White space -/

/-- whether a character is white space -/
def isBlank (c : Char) : Bool := [' ', '\t', '\n', '\r'].contains c

theorem Gap.isBlank_text (g : Gap) : ∀ c ∈ g.text, isBlank c = true := by
  intro c hc
  obtain ⟨b, -, rfl⟩ := List.mem_map.1 hc
  cases b <;> rfl

theorem Gap.cuts (g : Gap) : Cuts Gap.text (Stops isBlank) g := by
  intro h r s hr hs heq
  obtain ⟨htext, hrest⟩ := append_inj_of_stops g.isBlank_text h.isBlank_text hr hs heq
  refine ⟨(List.map_inj_right fun a b hchar => ?_).1 htext, hrest⟩
  cases a <;> cases b <;> first | rfl | exact absurd hchar (by decide)

/-- behind white space a text goes on with white space or as it does without -/
theorem Gap.stops (g : Gap) {p : Char → Bool} (hp : ∀ c, isBlank c = true → p c = false) {r : List Char}
    (hr : Stops p r) : Stops p (g.text ++ r) := by
  cases hg : g.text with
  | nil => exact hr
  | cons c t => exact hp c (g.isBlank_text c (by rw [hg]; exact List.mem_cons_self ..))

/-! ### Strings -/

theorem HexDigit.ext {d e : HexDigit} (h : d.char = e.char) : d = e := by
  cases d
  cases e
  cases h
  rfl

theorem Escape.letter_injective : Function.Injective Escape.letter := by
  intro a b
  cases a <;> cases b <;> simp [Escape.letter]

/-- a piece does not begin with a quote -/
theorem Piece.exists_text_cons (p : Piece) : ∃ c t, p.text = c :: t ∧ c ≠ '\x22' := by
  cases p with
  | plain c fits =>
    refine ⟨c, _, rfl, ?_⟩
    rintro rfl
    cases fits
  | escape e => exact ⟨_, _, rfl, by decide⟩
  | unit a b c d => exact ⟨_, _, rfl, by decide⟩

theorem Piece.cuts (p : Piece) : Cuts Piece.text (fun _ => True) p := by
  have hplain {c : Char} (fits : isPlain c = true) : c ≠ '\\' := by
    rintro rfl
    cases fits
  have hletter (e : Escape) : e.letter ≠ 'u' := by cases e <;> decide
  rintro q r s - - h
  cases p with
  | plain c fits =>
    cases q with
    | plain c' fits' =>
      obtain ⟨rfl, hrest⟩ := List.cons.inj h
      exact ⟨rfl, hrest⟩
    | escape e => exact absurd (List.cons.inj h).1 (hplain fits)
    | unit a b c' d => exact absurd (List.cons.inj h).1 (hplain fits)
  | escape e =>
    cases q with
    | plain c' fits' => exact absurd (List.cons.inj h).1.symm (hplain fits')
    | escape e' =>
      obtain ⟨hsame, hrest⟩ := List.cons.inj (List.cons.inj h).2
      exact ⟨congrArg Piece.escape (Escape.letter_injective hsame), hrest⟩
    | unit a b c' d => exact absurd (List.cons.inj (List.cons.inj h).2).1 (hletter e)
  | unit a b c d =>
    cases q with
    | plain c' fits' => exact absurd (List.cons.inj h).1.symm (hplain fits')
    | escape e => exact absurd (List.cons.inj (List.cons.inj h).2).1.symm (hletter e)
    | unit a' b' c' d' =>
      simp only [Piece.text, List.cons_append, List.nil_append, List.cons.injEq, true_and] at h
      obtain ⟨ha, hb, hc, hd, hrest⟩ := h
      rw [HexDigit.ext ha, HexDigit.ext hb, HexDigit.ext hc, HexDigit.ext hd]
      exact ⟨rfl, hrest⟩

theorem cuts_quoted (ps : List Piece) : Cuts quoted (fun _ => True) ps := by
  -- without the first quote, which both have
  have hrest : ∀ {qs : List Piece} {r s : List Char}, ps.flatMap Piece.text ++ '\x22' :: r =
      qs.flatMap Piece.text ++ '\x22' :: s → ps = qs ∧ r = s := by
    induction ps with
    | nil =>
      intro qs r s h
      cases qs with
      | nil => exact ⟨rfl, (List.cons.inj h).2⟩
      | cons q qs =>
        obtain ⟨c, t, hq, hc⟩ := q.exists_text_cons
        rw [List.flatMap_cons, hq] at h
        exact absurd (List.cons.inj h).1.symm hc
    | cons p ps ih =>
      intro qs r s h
      cases qs with
      | nil =>
        obtain ⟨c, t, hp, hc⟩ := p.exists_text_cons
        rw [List.flatMap_cons, hp] at h
        exact absurd (List.cons.inj h).1 hc
      | cons q qs =>
        rw [List.flatMap_cons, List.flatMap_cons, List.append_assoc, List.append_assoc] at h
        obtain ⟨rfl, hpieces⟩ := p.cuts trivial trivial h
        obtain ⟨rfl, hrest⟩ := ih hpieces
        exact ⟨rfl, hrest⟩
  rintro qs r s - - h
  refine hrest ?_
  simpa [quoted] using h

/-! ### Numbers -/

theorem Digits.cuts (ds : List (Fin 10)) : Cuts Digits.text (Stops isDigit) ds := by
  intro es r s hr hs h
  obtain ⟨htext, hrest⟩ := append_inj_of_stops (List.all_eq_true.1 (all_isDigit ds))
    (List.all_eq_true.1 (all_isDigit es)) hr hs h
  exact ⟨text_injective htext, hrest⟩

/-- the sign of an exponent -/
def signText : Option Sign → List Char
  | some .plus => ['+']
  | some .minus => ['-']
  | none => []

theorem Exponent.text_eq (e : Exponent) :
    e.text = (if e.capital then 'E' else 'e') :: (signText e.sign ++ Digits.text e.digits.1) := by
  unfold text
  rcases e.sign with _ | ⟨⟨⟩ | ⟨⟩⟩ <;> rfl

/-- digits begin with no sign -/
theorem cuts_signText (sign : Option Sign) :
    Cuts signText (Stops fun c => c = '+' || c = '-') sign := by
  intro sign' r s hr hs h
  rcases sign with _ | ⟨⟨⟩ | ⟨⟩⟩ <;> rcases sign' with _ | ⟨⟨⟩ | ⟨⟩⟩ <;>
    simp only [signText, List.nil_append, List.cons_append, List.cons.injEq] at h <;>
    first
      | exact ⟨rfl, h⟩
      | exact ⟨rfl, h.2⟩
      | (subst h; cases hr)
      | (subst h; cases hs)
      | exact absurd h.1 (by decide)

theorem Digits.stops_text (ds : Digits) {p : Char → Bool} (hp : ∀ d : Fin 10, p (hexDigit d.val) = false)
    (r : List Char) : Stops p (text ds.1 ++ r) := by
  obtain ⟨d, t, ht⟩ := List.exists_cons_of_ne_nil ds.2
  rw [ht]
  exact hp d

theorem Exponent.cuts (e : Exponent) : Cuts Exponent.text (Stops isDigit) e := by
  intro f r s hr hs h
  rw [e.text_eq, f.text_eq, List.cons_append, List.cons_append, List.append_assoc, List.append_assoc] at h
  obtain ⟨hletter, h⟩ := List.cons.inj h
  obtain ⟨hsign, h⟩ :=
    cuts_signText e.sign (e.digits.stops_text (by decide) r) (f.digits.stops_text (by decide) s) h
  obtain ⟨hdigits, hrest⟩ := Digits.cuts e.digits.1 hr hs h
  have hcapital : e.capital = f.capital := by
    cases he : e.capital <;> cases hf : f.capital <;> simp_all
  obtain ⟨_, _, _⟩ := e
  obtain ⟨_, _, _⟩ := f
  obtain rfl := hcapital
  obtain rfl := hsign
  obtain rfl := Subtype.ext hdigits
  exact ⟨rfl, hrest⟩

namespace Number

/-- behind a number nothing comes that it could go on with -/
abbrev Ends : List Char → Prop := Stops numberMarks.contains

theorem Ends.stops_isDigit {r : List Char} (h : Ends r) : Stops isDigit r := by
  refine h.mono fun c hc => ?_
  obtain ⟨hlow, hhigh⟩ : 0x30 ≤ c.toNat ∧ c.toNat ≤ 0x39 := by simpa [isDigit] using hc
  have hall : ∀ n ∈ List.range' 0x30 10, numberMarks.contains (Char.ofNat n) = true := by decide
  have hn := hall c.toNat (List.mem_range'_1.2 ⟨hlow, by omega⟩)
  rwa [Char.ofNat_toNat] at hn

theorem cuts_exponent (e : Option Exponent) : Cuts (fun e => (e.map Exponent.text).getD []) Ends e := by
  have hletter {t : List Char} (e : Exponent) : ¬ Ends (e.text ++ t) := by
    obtain ⟨c, t', ht, rfl | rfl⟩ := e.exists_text_eq <;> rw [ht] <;> exact Bool.noConfusion
  intro f r s hr hs h
  cases e with
  | none =>
    cases f with
    | none => exact ⟨rfl, h⟩
    | some f =>
      obtain rfl : r = f.text ++ s := h
      exact absurd hr (hletter f)
  | some e =>
    cases f with
    | none =>
      obtain rfl : e.text ++ r = s := h
      exact absurd hs (hletter e)
    | some f =>
      obtain ⟨rfl, hrest⟩ := e.cuts hr.stops_isDigit hs.stops_isDigit h
      exact ⟨rfl, hrest⟩

variable {r s : List Char}

theorem stops_exponentText (n : Number) {p : Char → Bool} (hp : p 'e' = false ∧ p 'E' = false) (hr : Stops p r) :
    Stops p (n.exponentText ++ r) := Stops.append (n.head?_exponentText hp) hr

/-- a number without a fraction is told from one with a fraction -/
theorem fraction_eq_none {n k : Number} (hr : Ends r) (hk : k.fraction = none)
    (h : n.body ++ s = k.body ++ r) : n.fraction = none := by
  cases hn : n.fraction with
  | none => rfl
  | some ds =>
    rw [body_eq_of_fraction _ hn, body_eq_of_no_fraction _ hk, List.append_assoc, List.append_assoc] at h
    have hpoint : Stops (· = '.') (k.exponentText ++ r) :=
      k.stops_exponentText (by decide) (hr.mono fun c hc => by rw [of_decide_eq_true hc]; rfl)
    obtain ⟨-, htail⟩ :=
      Digits.cuts n.whole.1 (stops_cons.2 rfl) (k.stops_exponentText (by decide) hr.stops_isDigit) h
    rw [← htail] at hpoint
    cases hpoint

theorem cuts_body {n k : Number} (hr : Ends r) (hs : Ends s) (h : n.body ++ r = k.body ++ s) :
    n.whole = k.whole ∧ n.fraction = k.fraction ∧ n.exponent = k.exponent ∧ r = s := by
  cases hn : n.fraction with
  | none =>
    have hk := fraction_eq_none hr hn h.symm
    rw [body_eq_of_no_fraction _ hn, body_eq_of_no_fraction _ hk, List.append_assoc, List.append_assoc] at h
    obtain ⟨hwhole, htail⟩ := Digits.cuts n.whole.1 (n.stops_exponentText (by decide) hr.stops_isDigit)
      (k.stops_exponentText (by decide) hs.stops_isDigit) h
    obtain ⟨hexponent, hrest⟩ := cuts_exponent n.exponent hr hs htail
    exact ⟨Subtype.ext hwhole, hk.symm, hexponent, hrest⟩
  | some ds =>
    cases hk : k.fraction with
    | none => cases hn.symm.trans (fraction_eq_none hs hk h)
    | some es =>
      rw [body_eq_of_fraction _ hn, body_eq_of_fraction _ hk] at h
      simp only [List.append_assoc, List.cons_append] at h
      obtain ⟨hwhole, htail⟩ := Digits.cuts n.whole.1 (stops_cons.2 rfl) (stops_cons.2 rfl) h
      obtain ⟨hfraction, htail⟩ := Digits.cuts ds.1 (n.stops_exponentText (by decide) hr.stops_isDigit)
        (k.stops_exponentText (by decide) hs.stops_isDigit) (List.cons.inj htail).2
      obtain ⟨hexponent, hrest⟩ := cuts_exponent n.exponent hr hs htail
      exact ⟨Subtype.ext hwhole, congrArg some (Subtype.ext hfraction), hexponent, hrest⟩

theorem cuts (n : Number) : Cuts Number.text Ends n := by
  have hsign {n k : Number} {r s : List Char} : n.body ++ r ≠ '-' :: (k.body ++ s) := by
    have hdigit : ∀ d : Fin 10, hexDigit d.val ≠ '-' := by decide
    obtain ⟨d, t, hbody⟩ := n.exists_body_eq
    rw [hbody]
    exact fun h => hdigit d (List.cons.inj h).1
  intro k r s hr hs h
  obtain ⟨hnegative, hbody⟩ : n.negative = k.negative ∧ n.body ++ r = k.body ++ s := by
    unfold text at h
    cases hn : n.negative <;> cases hk : k.negative <;> rw [hn, hk] at h
    · exact ⟨rfl, h⟩
    · exact absurd h hsign
    · exact absurd h.symm hsign
    · exact ⟨rfl, (List.cons.inj h).2⟩
  obtain ⟨hwhole, hfraction, hexponent, hrest⟩ := cuts_body hr hs hbody
  obtain ⟨_, _, _, _, _⟩ := n
  obtain ⟨_, _, _, _, _⟩ := k
  obtain rfl := hnegative
  obtain rfl := hwhole
  obtain rfl := hfraction
  obtain rfl := hexponent
  exact ⟨rfl, hrest⟩

end Number

/-! ### Values -/

/-- the kind of value that begins with a character, where all numbers have one mark -/
def markOf (c : Char) : Char := if c = '-' || isDigit c then '0' else c

/-- the mark of an atom -/
def Atom.mark : Atom → Char
  | null => 'n'
  | bool true => 't'
  | bool false => 'f'
  | number _ => '0'
  | string _ => '\x22'

/-- the mark of a value -/
def Value.mark : Value → Char
  | .atom a => a.mark
  | .emptyArray _ | .array _ => '['
  | .emptyObject _ | .object _ => '\x7b'

theorem Atom.exists_text_cons (a : Atom) : ∃ c t, a.text = c :: t ∧ markOf c = a.mark := by
  cases a with
  | null => exact ⟨_, _, rfl, rfl⟩
  | bool b => cases b <;> exact ⟨_, _, rfl, rfl⟩
  | number n =>
    have hdigit : ∀ d : Fin 10, markOf (hexDigit d.val) = '0' := by decide
    obtain ⟨d, t, hbody⟩ := n.exists_body_eq
    change ∃ c t, (if n.negative then '-' :: n.body else n.body) = c :: t ∧ markOf c = '0'
    split
    · exact ⟨_, _, rfl, rfl⟩
    · exact ⟨_, t, hbody, hdigit d⟩
  | string ps => exact ⟨_, _, rfl, rfl⟩

theorem Value.exists_text_cons (v : Value) : ∃ c t, v.text = c :: t ∧ markOf c = v.mark := by
  cases v with
  | atom a => rw [Value.text]; exact a.exists_text_cons
  | emptyArray gap => rw [Value.text]; exact ⟨_, _, rfl, rfl⟩
  | array items => rw [Value.text]; exact ⟨_, _, rfl, rfl⟩
  | emptyObject gap => rw [Value.text]; exact ⟨_, _, rfl, rfl⟩
  | object members => rw [Value.text]; exact ⟨_, _, rfl, rfl⟩

/-- no mark is white space or ends anything -/
theorem Value.mark_mem (v : Value) : v.mark ∈ ['n', 't', 'f', '0', '\x22', '[', '\x7b'] := by
  unfold mark
  split
  · unfold Atom.mark
    split <;> decide
  all_goals decide

section Marks

variable {v w : Value} {c : Char} {r s : List Char}

theorem Value.mark_eq (h : v.text ++ r = w.text ++ s) : v.mark = w.mark := by
  obtain ⟨c, t, hv, hvmark⟩ := v.exists_text_cons
  obtain ⟨c', t', hw, hwmark⟩ := w.exists_text_cons
  rw [hv, hw] at h
  rw [← hvmark, ← hwmark, (List.cons.inj h).1]

theorem Value.text_ne_cons (hc : markOf c ∉ ['n', 't', 'f', '0', '\x22', '[', '\x7b']) :
    v.text ++ r ≠ c :: s := by
  obtain ⟨c', t, hv, hmark⟩ := v.exists_text_cons
  rw [hv]
  intro h
  rw [← (List.cons.inj h).1, hmark] at hc
  exact hc v.mark_mem

theorem Value.stops_isBlank (v : Value) (r : List Char) : Stops isBlank (v.text ++ r) := by
  obtain ⟨c, t, hv, hmark⟩ := v.exists_text_cons
  rw [hv]
  refine stops_cons.2 (Bool.eq_false_iff.2 fun hblank => ?_)
  have hall : ∀ c ∈ [' ', '\t', '\n', '\r'], markOf c ∉ ['n', 't', 'f', '0', '\x22', '[', '\x7b'] :=
    Yaml.forall_mem_of_all (by decide)
  exact hall c (List.contains_iff_mem.1 hblank) (hmark ▸ v.mark_mem)

/-- behind white space a number does not go on -/
theorem Gap.ends (g : Gap) (hr : Number.Ends r) : Number.Ends (g.text ++ r) := by
  refine g.stops (fun c hc => ?_) hr
  have hall : ∀ c ∈ [' ', '\t', '\n', '\r'], numberMarks.contains c = false := Yaml.forall_mem_of_all (by decide)
  exact hall c (List.contains_iff_mem.1 hc)

end Marks

theorem Atom.cuts (a : Atom) : Cuts Atom.text Number.Ends a := by
  intro b r s hr hs h
  have hmark : a.mark = b.mark := Value.mark_eq (v := .atom a) (w := .atom b) (by rwa [Value.text, Value.text])
  match a, b, hmark with
  | .null, .null, _ => exact ⟨rfl, List.append_cancel_left h⟩
  | .bool true, .bool true, _ => exact ⟨rfl, List.append_cancel_left h⟩
  | .bool false, .bool false, _ => exact ⟨rfl, List.append_cancel_left h⟩
  | .number n, .number k, _ =>
    obtain ⟨rfl, hrest⟩ := n.cuts hr hs h
    exact ⟨rfl, hrest⟩
  | .string ps, .string qs, _ =>
    obtain ⟨rfl, hrest⟩ := cuts_quoted ps trivial trivial h
    exact ⟨rfl, hrest⟩

theorem Key.cuts (k : Key) : Cuts Key.text (fun _ => True) k := by
  rintro l r s - - h
  obtain ⟨before, name, after⟩ := k
  obtain ⟨before', name', after'⟩ := l
  have hquote (ps : List Piece) (t : List Char) : Stops isBlank (quoted ps ++ t) := stops_cons.2 rfl
  simp only [Key.text, List.append_assoc, List.cons_append, List.nil_append] at h
  obtain ⟨rfl, hname⟩ := before.cuts (hquote name _) (hquote name' _) h
  obtain ⟨rfl, hafter⟩ := cuts_quoted name trivial trivial hname
  obtain ⟨rfl, hcolon⟩ := after.cuts (stops_cons.2 rfl) (stops_cons.2 rfl) hafter
  exact ⟨rfl, (List.cons.inj hcolon).2⟩

/-- a value with the white space around it and a character behind that -/
theorem cuts_around {v w : Value} (hv : Cuts Value.text Number.Ends v) {before before' after after' : Gap}
    {c c' : Char} {r s : List Char} (hc : isBlank c = false ∧ numberMarks.contains c = false)
    (hc' : isBlank c' = false ∧ numberMarks.contains c' = false)
    (h : before.text ++ (v.text ++ (after.text ++ c :: r)) =
      before'.text ++ (w.text ++ (after'.text ++ c' :: s))) :
    before = before' ∧ v = w ∧ after = after' ∧ c = c' ∧ r = s := by
  obtain ⟨hbefore, h⟩ := before.cuts (v.stops_isBlank _) (w.stops_isBlank _) h
  obtain ⟨hvalue, h⟩ := hv (after.ends (stops_cons.2 hc.2)) (after'.ends (stops_cons.2 hc'.2)) h
  obtain ⟨hafter, h⟩ := after.cuts (stops_cons.2 hc.1) (stops_cons.2 hc'.1) h
  obtain ⟨hchar, hrest⟩ := List.cons.inj h
  exact ⟨hbefore, hvalue, hafter, hchar, hrest⟩

/-- an array with items is none without -/
theorem Items.text_append_ne (is : Items) (gap : Gap) (r s : List Char) : is.text ++ r ≠ gap.text ++ ']' :: s := by
  have hne {before : Gap} {v : Value} {t : List Char} : before.text ++ (v.text ++ t) ≠ gap.text ++ ']' :: s :=
    fun h => Value.text_ne_cons (by decide) (before.cuts (v.stops_isBlank _) (stops_cons.2 rfl) h).2
  cases is with
  | last before v after => simpa only [Items.text, List.append_assoc] using hne
  | more before v after rest => simpa only [Items.text, List.append_assoc] using hne

/-- an object with members is none without -/
theorem Members.text_append_ne (ms : Members) (gap : Gap) (r s : List Char) :
    ms.text ++ r ≠ gap.text ++ '\x7d' :: s := by
  have hne {k : Key} {t : List Char} : k.text ++ t ≠ gap.text ++ '\x7d' :: s := by
    intro h
    simp only [Key.text, List.append_assoc] at h
    have hquote := (k.before.cuts (stops_cons.2 rfl) (stops_cons.2 rfl) h).2
    exact absurd (List.cons.inj hquote).1 (by decide)
  cases ms with
  | last k before v after => simpa only [Members.text, List.append_assoc] using hne
  | more k before v after rest => simpa only [Members.text, List.append_assoc] using hne

/-- behind the parts of a collection its end comes -/
def EndsWith (c : Char) (r : List Char) : Prop := ∃ t, r = c :: t

theorem Atom.mark_ne (a : Atom) : a.mark ≠ '[' ∧ a.mark ≠ '\x7b' := by
  unfold mark
  split <;> decide

mutual

theorem Value.cuts (v : Value) : Cuts Value.text Number.Ends v := by
  intro w r s hr hs h
  have hmark := Value.mark_eq h
  match v, w, hmark with
  | .atom a, .atom b, _ =>
    rw [Value.text, Value.text] at h
    obtain ⟨rfl, hrest⟩ := a.cuts hr hs h
    exact ⟨rfl, hrest⟩
  | .atom a, .emptyArray _, hmark | .atom a, .array _, hmark => exact absurd hmark a.mark_ne.1
  | .atom a, .emptyObject _, hmark | .atom a, .object _, hmark => exact absurd hmark a.mark_ne.2
  | .emptyArray _, .atom a, hmark | .array _, .atom a, hmark => exact absurd hmark.symm a.mark_ne.1
  | .emptyObject _, .atom a, hmark | .object _, .atom a, hmark => exact absurd hmark.symm a.mark_ne.2
  | .emptyArray gap, .emptyArray gap', _ =>
    simp only [Value.text, List.cons_append, List.append_assoc] at h
    obtain ⟨rfl, hend⟩ := gap.cuts (stops_cons.2 rfl) (stops_cons.2 rfl) (List.cons.inj h).2
    exact ⟨rfl, (List.cons.inj hend).2⟩
  | .emptyArray gap, .array items, _ =>
    simp only [Value.text, List.cons_append, List.append_assoc] at h
    exact absurd (List.cons.inj h).2.symm (items.text_append_ne gap _ _)
  | .array items, .emptyArray gap, _ =>
    simp only [Value.text, List.cons_append, List.append_assoc] at h
    exact absurd (List.cons.inj h).2 (items.text_append_ne gap _ _)
  | .array items, .array items', _ =>
    simp only [Value.text, List.cons_append, List.append_assoc] at h
    obtain ⟨rfl, hend⟩ := items.cuts ⟨_, rfl⟩ ⟨_, rfl⟩ (List.cons.inj h).2
    exact ⟨rfl, (List.cons.inj hend).2⟩
  | .emptyObject gap, .emptyObject gap', _ =>
    simp only [Value.text, List.cons_append, List.append_assoc] at h
    obtain ⟨rfl, hend⟩ := gap.cuts (stops_cons.2 rfl) (stops_cons.2 rfl) (List.cons.inj h).2
    exact ⟨rfl, (List.cons.inj hend).2⟩
  | .emptyObject gap, .object members, _ =>
    simp only [Value.text, List.cons_append, List.append_assoc] at h
    exact absurd (List.cons.inj h).2.symm (members.text_append_ne gap _ _)
  | .object members, .emptyObject gap, _ =>
    simp only [Value.text, List.cons_append, List.append_assoc] at h
    exact absurd (List.cons.inj h).2 (members.text_append_ne gap _ _)
  | .object members, .object members', _ =>
    simp only [Value.text, List.cons_append, List.append_assoc] at h
    obtain ⟨rfl, hend⟩ := members.cuts ⟨_, rfl⟩ ⟨_, rfl⟩ (List.cons.inj h).2
    exact ⟨rfl, (List.cons.inj hend).2⟩

theorem Items.cuts (is : Items) : Cuts Items.text (EndsWith ']') is := by
  have hend : isBlank ']' = false ∧ numberMarks.contains ']' = false := by decide
  have hcomma : isBlank ',' = false ∧ numberMarks.contains ',' = false := by decide
  rintro js _ _ ⟨r, rfl⟩ ⟨s, rfl⟩ h
  match is, js with
  | .last before v after, .last before' w after' =>
    simp only [Items.text, List.append_assoc] at h
    obtain ⟨rfl, rfl, rfl, -, rfl⟩ := cuts_around v.cuts hend hend h
    exact ⟨rfl, rfl⟩
  | .last before v after, .more before' w after' rest =>
    simp only [Items.text, List.append_assoc] at h
    exact absurd (cuts_around v.cuts hend hcomma h).2.2.2.1 (by decide)
  | .more before v after rest, .last before' w after' =>
    simp only [Items.text, List.append_assoc] at h
    exact absurd (cuts_around v.cuts hcomma hend h).2.2.2.1 (by decide)
  | .more before v after rest, .more before' w after' rest' =>
    simp only [Items.text, List.append_assoc] at h
    obtain ⟨rfl, rfl, rfl, -, htail⟩ := cuts_around v.cuts hcomma hcomma h
    obtain ⟨rfl, hrest⟩ := rest.cuts ⟨_, rfl⟩ ⟨_, rfl⟩ htail
    exact ⟨rfl, hrest⟩

theorem Members.cuts (ms : Members) : Cuts Members.text (EndsWith '\x7d') ms := by
  have hend : isBlank '\x7d' = false ∧ numberMarks.contains '\x7d' = false := by decide
  have hcomma : isBlank ',' = false ∧ numberMarks.contains ',' = false := by decide
  rintro ns _ _ ⟨r, rfl⟩ ⟨s, rfl⟩ h
  match ms, ns with
  | .last k before v after, .last l before' w after' =>
    simp only [Members.text, List.append_assoc] at h
    obtain ⟨rfl, hvalue⟩ := k.cuts trivial trivial h
    obtain ⟨rfl, rfl, rfl, -, rfl⟩ := cuts_around v.cuts hend hend hvalue
    exact ⟨rfl, rfl⟩
  | .last k before v after, .more l before' w after' rest =>
    simp only [Members.text, List.append_assoc] at h
    exact absurd (cuts_around v.cuts hend hcomma (k.cuts trivial trivial h).2).2.2.2.1 (by decide)
  | .more k before v after rest, .last l before' w after' =>
    simp only [Members.text, List.append_assoc] at h
    exact absurd (cuts_around v.cuts hcomma hend (k.cuts trivial trivial h).2).2.2.2.1 (by decide)
  | .more k before v after rest, .more l before' w after' rest' =>
    simp only [Members.text, List.append_assoc] at h
    obtain ⟨rfl, hvalue⟩ := k.cuts trivial trivial h
    obtain ⟨rfl, rfl, rfl, -, htail⟩ := cuts_around v.cuts hcomma hcomma hvalue
    obtain ⟨rfl, hrest⟩ := rest.cuts ⟨_, rfl⟩ ⟨_, rfl⟩ htail
    exact ⟨rfl, hrest⟩

end

/-- **One reading.**  A text of JSON is the text of one tree only. -/
theorem Document.eq_of_text_eq {d d' : Document} (h : d.text = d'.text) : d = d' := by
  obtain ⟨before, root, after, hroot⟩ := d
  obtain ⟨before', root', after', hroot'⟩ := d'
  have hends (g : Gap) : Number.Ends g.text := by
    have := g.ends (r := []) stops_nil
    rwa [List.append_nil] at this
  simp only [text, List.append_assoc] at h
  obtain ⟨rfl, hvalue⟩ := before.cuts (root.stops_isBlank _) (root'.stops_isBlank _) h
  obtain ⟨rfl, htail⟩ := root.cuts (hends after) (hends after') hvalue
  obtain ⟨rfl, -⟩ := after.cuts stops_nil stops_nil (congrArg (· ++ []) htail)
  rfl

end MeshOperator.Json
