import MeshOperator.Proofs.Json.Syntax
import MeshOperator.Proofs.Yaml.Words

/-!
# The tokens of JSON

A reader of YAML finds in a text of JSON the tokens that its tree has: the marks of arrays and objects, a
key mark before each key, strings as scalars in quotes and all other atoms as plain ones.

* `Value.tokens`: the tokens of a value.
* `quotes_quoted`: a string is read as the characters it denotes.
* `Document.tokens_ofText`: the tokens of a text that is readable.
-/

namespace MeshOperator.Json

open Yaml

/-! ### Strings -/

theorem charsOf_eq_map {ps : List Piece} (h : hasPair ps = false) : charsOf ps = ps.map Piece.char := by
  fun_induction charsOf ps with
  | case1 => rfl
  | case2 p => rfl
  | case3 p q ps c hc ih => simp [hasPair, hc] at h
  | case4 p q ps hc ih =>
    simp only [hasPair, Bool.or_eq_false_iff] at h
    rw [ih h.2]
    rfl

namespace HexDigit

variable (d : HexDigit)

theorem range : 0x30 ≤ d.char.toNat ∧ d.char.toNat ≤ 0x7a := by
  have hfits := d.fits
  unfold digitOfBase? isDigit at hfits
  simp only [Bool.and_eq_true, decide_eq_true_eq] at hfits
  split at hfits
  · omega
  · split at hfits
    · omega
    · split at hfits
      · omega
      · simp at hfits

theorem digitOfBase?_eq : digitOfBase? 16 d.char = some d.value := by
  obtain ⟨v, hv⟩ := Option.isSome_iff_exists.1 d.fits
  rw [value, hv]
  rfl

theorem value_lt : d.value < 16 := by
  have hvalue := d.digitOfBase?_eq
  simp only [digitOfBase?, Option.ite_none_right_eq_some, Option.some.injEq] at hvalue
  rw [← hvalue.2]
  exact hvalue.1

end HexDigit

theorem not_isBreak_of_range {ch : Char} (hlow : 0x20 ≤ ch.toNat) (hhigh : ch.toNat ≤ 0x7e) :
    isBreak ch = false := by
  have hne : ch ≠ '\n' ∧ ch ≠ '\r' := by
    constructor <;> rintro rfl <;> exact absurd hlow (by decide)
  simp only [isBreak, hne.1, hne.2, decide_false, Bool.false_or, Bool.or_eq_false_iff,
    decide_eq_false_iff_not]
  omega

theorem isAllowed_of_range {ch : Char} (hlow : 0x20 ≤ ch.toNat) (hhigh : ch.toNat ≤ 0x7e) :
    isAllowed ch = true := by
  have hcode : codePoint ch = ch.toNat := by
    have hlow : ¬ halfShift ≤ ch.toNat := by
      rw [halfShift]
      omega
    exact codePoint_of_not_holdsHalf (by simp [holdsHalf, hlow])
  simp only [isAllowed, hcode, Bool.or_eq_true, Bool.and_eq_true, decide_eq_true_eq]
  omega

namespace Piece

variable {p : Piece}

/-- A piece is not empty, and begins with nothing that would end the string or be folded. -/
theorem exists_text_eq (hp : p.isReadable = true) :
    ∃ ch t, p.text = ch :: t ∧ 0x20 ≤ ch.toNat ∧ isBreak ch = false ∧ ch ≠ '\x22' ∧
      (ch = ' ' → p.text = [' ']) := by
  cases p with
  | plain c fits =>
    simp only [isReadable, Bool.and_eq_true, Bool.not_eq_true'] at hp
    simp only [isPlain, Bool.and_eq_true, decide_eq_true_eq, ne_eq] at fits
    exact ⟨c, [], rfl, fits.1.1, hp.2, fits.1.2, fun h => congrArg (fun c => [c]) h⟩
  | escape e => exact ⟨'\\', [e.letter], rfl, by decide, by decide, by decide, nofun⟩
  | unit a b c d =>
    exact ⟨'\\', ['u', a.char, b.char, c.char, d.char], rfl, by decide, by decide, by decide, nofun⟩

theorem char_of_space (h : p.text = [' ']) : p.char = ' ' := by
  cases p with
  | plain c fits => simpa [text, char] using h
  | escape e => simp [text] at h
  | unit a b c d => simp [text] at h

/-- what stands there is allowed and breaks no line -/
theorem isAllowed_of_mem (hp : p.isReadable = true) :
    ∀ ch ∈ p.text, isAllowed ch = true ∧ isBreak ch = false := by
  have hascii {ch : Char} (hlow : 0x20 ≤ ch.toNat) (hhigh : ch.toNat ≤ 0x7e) :
      isAllowed ch = true ∧ isBreak ch = false :=
    ⟨isAllowed_of_range hlow hhigh, not_isBreak_of_range hlow hhigh⟩
  have hdigit (d : HexDigit) : isAllowed d.char = true ∧ isBreak d.char = false := by
    have hrange := d.range
    exact hascii (by omega) (by omega)
  cases p with
  | plain c fits =>
    simp only [isReadable, Bool.and_eq_true, Bool.not_eq_true'] at hp
    simpa [text] using hp
  | escape e =>
    simp only [text, List.forall_mem_cons]
    refine ⟨by decide, ?_, by simp⟩
    cases e <;> decide
  | unit a b c d =>
    simp only [text, List.forall_mem_cons]
    exact ⟨by decide, by decide, hdigit a, hdigit b, hdigit c, hdigit d, by simp⟩

/-- an escape is read as the character that the piece denotes -/
theorem exists_quotedEscape {c : Cursor} {t r : List Char} (hp : p.text = '\\' :: t)
    (h : c.rest = t ++ r) :
    ∃ d, quotedEscape c = .ok ([p.char], d) ∧ c.Passes t d ∧ d.rest = r := by
  cases p with
  | plain ch fits =>
    simp only [text, List.cons.injEq] at hp
    obtain ⟨rfl, -⟩ := hp
    simp [isPlain] at fits
  | escape e =>
    simp only [text, List.cons.injEq, true_and] at hp
    subst hp
    obtain ⟨hpass, hrest⟩ := Cursor.passes_step h
    have hvalue : escapeValue? e.letter = some e.char := by cases e <;> rfl
    refine ⟨_, ?_, hpass, hrest⟩
    rw [quotedEscape, Cursor.peek_zero h, hvalue]
    rfl
  | unit a b c' d =>
    simp only [text, List.cons.injEq, true_and] at hp
    subst hp
    obtain ⟨hpass, hrest⟩ := Cursor.passes_step h
    obtain ⟨hpass', hrest'⟩ := Cursor.passes_forward (s := [a.char, b.char, c'.char, d.char]) hrest
    have hvalue : escapeValue? 'u' = none := rfl
    have hwidth : escapeWidth? 'u' = some 4 := rfl
    have hhex : hexValue? 4 c.step.rest =
        some (((a.value * 16 + b.value) * 16 + c'.value) * 16 + d.value) := by
      rw [hrest]
      simp [hexValue?, a.digitOfBase?_eq, b.digitOfBase?_eq, c'.digitOfBase?_eq, d.digitOfBase?_eq]
    refine ⟨_, ?_, hpass.trans hpass', hrest'⟩
    have hsmall : ¬ 0x110000 ≤ ((a.value * 16 + b.value) * 16 + c'.value) * 16 + d.value := by
      have := a.value_lt
      have := b.value_lt
      have := c'.value_lt
      have := d.value_lt
      omega
    rw [quotedEscape, Cursor.peek_zero h, hvalue, hwidth]
    simp only [hhex, charOfNumber, if_neg hsmall]
    rfl

/-- a piece other than a space is read by itself -/
theorem exists_quotedRest {c : Cursor} {r : List Char} (hp : p.isReadable = true) (hspace : p.text ≠ [' '])
    (h : c.rest = p.text ++ r) :
    ∃ e, c.Passes p.text e ∧ e.rest = r ∧ ∀ fuel t d, quotedRest true fuel e = .ok (t, d) →
      quotedRest true (fuel + 1) c = .ok (p.char :: t, d) := by
  by_cases hescape : ∃ t, p.text = '\\' :: t
  · obtain ⟨t, ht⟩ := hescape
    rw [ht, List.cons_append] at h
    obtain ⟨hpass, hrest⟩ := Cursor.passes_step h
    obtain ⟨e, hread, hpass', he⟩ := exists_quotedEscape ht hrest
    refine ⟨e, ?_, he, fun fuel t d hd => Cursor.quotedRest_escape h hread hd⟩
    rw [ht]
    exact hpass.trans hpass'
  · cases p with
    | plain ch fits =>
      obtain ⟨hpass, hrest⟩ := Cursor.passes_step h
      refine ⟨_, hpass, hrest, fun fuel t d hd => ?_⟩
      simp only [isReadable, Bool.and_eq_true, Bool.not_eq_true'] at hp
      simp only [isPlain, Bool.and_eq_true, decide_eq_true_eq, ne_eq] at fits
      have hne : ch ≠ ' ' := fun hch => hspace (congrArg (fun ch => [ch]) hch)
      have htab : ch ≠ '\t' := by
        rintro rfl
        exact absurd fits.1.1 (by decide)
      have hend : ch.toNat ≠ 0 := by omega
      exact Cursor.quotedRest_char h fits.1.2 fits.2 hne htab hp.2 hend hd
    | escape e => exact absurd ⟨_, rfl⟩ hescape
    | unit a b c d => exact absurd ⟨_, rfl⟩ hescape

end Piece

/-- the spaces that a string goes on with, and the character behind them -/
theorem exists_spacePieces {ps : List Piece} (hps : ∀ p ∈ ps, p.isReadable = true) :
    ∃ spaces rest, ps = spaces ++ rest ∧ (∀ p ∈ spaces, p.text = [' ']) ∧
      ∃ ch t, rest.flatMap Piece.text ++ ['\x22'] = ch :: t ∧ ch ≠ ' ' ∧ 0x20 ≤ ch.toNat ∧
        isBreak ch = false := by
  induction ps with
  | nil => exact ⟨[], [], rfl, by simp, '\x22', [], rfl, by decide, by decide, by decide⟩
  | cons p ps ih =>
    rw [List.forall_mem_cons] at hps
    obtain ⟨ch, t, htext, hlow, hbreak, -, hspace⟩ := p.exists_text_eq hps.1
    by_cases hch : ch = ' '
    · obtain ⟨spaces, rest, rfl, hspaces, hrest⟩ := ih hps.2
      exact ⟨p :: spaces, rest, rfl, List.forall_mem_cons.2 ⟨hspace hch, hspaces⟩, hrest⟩
    · refine ⟨[], p :: ps, rfl, by simp, ch, t ++ (ps.flatMap Piece.text ++ ['\x22']), ?_, hch, hlow, hbreak⟩
      rw [List.flatMap_cons, htext, List.append_assoc, List.cons_append]

theorem flatMap_text_of_spaces {ps : List Piece} (h : ∀ p ∈ ps, p.text = [' ']) :
    ps.flatMap Piece.text = ps.map Piece.char := by
  induction ps with
  | nil => rfl
  | cons p ps ih =>
    rw [List.forall_mem_cons] at h
    rw [List.flatMap_cons, h.1, ih h.2, List.map_cons, Piece.char_of_space h.1]
    rfl

theorem exists_quotedRest {ps : List Piece} (hps : ∀ p ∈ ps, p.isReadable = true) {fuel : Nat}
    {c : Cursor} {r : List Char} (h : c.rest = ps.flatMap Piece.text ++ '\x22' :: r)
    (hfuel : ps.length < fuel) :
    ∃ d, quotedRest true fuel c = .ok (ps.map Piece.char, d) ∧
      c.Passes (ps.flatMap Piece.text ++ ['\x22']) d ∧ d.rest = r := by
  -- on the pieces that are read at once: spaces in a row, or one piece
  induction fuel generalizing ps c with
  | zero => omega
  | succ fuel ih =>
    obtain ⟨spaces, rest, rfl, hspaces, b, u, hnext, hb, hlow, hbreak⟩ := exists_spacePieces hps
    rw [List.forall_mem_append] at hps
    rw [List.length_append] at hfuel
    by_cases hne : spaces = []
    · subst hne
      rw [List.nil_append] at h ⊢
      cases rest with
      | nil => exact ⟨_, Cursor.quotedRest_quote h, Cursor.passes_step h⟩
      | cons p ps =>
        rw [List.forall_mem_cons] at hps
        rw [List.flatMap_cons, List.append_assoc] at h hnext
        have hspace : p.text ≠ [' '] := by
          intro hp
          rw [hp, List.cons_append, List.cons.injEq] at hnext
          exact hb hnext.1.symm
        obtain ⟨e, hpass, he, hread⟩ := p.exists_quotedRest hps.2.1 hspace h
        obtain ⟨d, hd, hpass', hdr⟩ := ih hps.2.2 he (by simpa using hfuel)
        refine ⟨d, hread _ _ _ hd, ?_, hdr⟩
        rw [List.flatMap_cons, List.append_assoc]
        exact hpass.trans hpass'
    · rw [List.flatMap_append, flatMap_text_of_spaces hspaces, List.append_assoc] at h
      obtain ⟨hpass, hrest⟩ := Cursor.passes_forward h
      have hpos := List.length_pos_iff.2 hne
      obtain ⟨d, hread, hpass', hd⟩ := ih hps.2 hrest (by omega)
      have hfollow : rest.flatMap Piece.text ++ '\x22' :: r = b :: (u ++ r) := by
        rw [← List.cons_append, ← hnext, List.append_assoc]
        rfl
      rw [hfollow] at h
      have hblank : ∀ ch ∈ spaces.map Piece.char, ch = ' ' := by
        intro ch hch
        obtain ⟨p, hp, rfl⟩ := List.mem_map.1 hch
        exact Piece.char_of_space (hspaces p hp)
      have htab : b ≠ '\t' := by
        rintro rfl
        exact absurd hlow (by decide)
      refine ⟨d, ?_, ?_, hd⟩
      · rw [List.map_append]
        exact Cursor.quotedRest_spaces h hblank (by simpa using hne) hb htab hbreak (by omega) hread
      · rw [List.flatMap_append, flatMap_text_of_spaces hspaces, List.append_assoc]
        exact hpass.trans hpass'

section Strings

variable {ps : List Piece} (h : isReadableString ps = true)
include h

theorem forall_isReadable : ∀ p ∈ ps, p.isReadable = true := by
  simp only [isReadableString, Bool.and_eq_true, List.all_eq_true] at h
  exact h.1

/-- **Strings.**  A string without surrogate pairs is read as the characters that it denotes. -/
theorem quotes_quoted : Lexer.Quotes (quoted ps) (charsOf ps) := by
  refine ⟨⟨_, rfl⟩, fun c r hc hcounts => ?_⟩
  have hpair : hasPair ps = false := by
    simp only [isReadableString, Bool.and_eq_true, Bool.not_eq_true'] at h
    exact h.2
  have hrest : c.rest = '\x22' :: (ps.flatMap Piece.text ++ '\x22' :: r) := by
    rw [hc, quoted, List.cons_append, List.cons_append, List.append_assoc]
    rfl
  obtain ⟨hpass, hstep⟩ := Cursor.passes_step hrest
  have hlength (ps : List Piece) : ps.length ≤ (ps.flatMap Piece.text).length := by
    induction ps with
    | nil => rfl
    | cons p ps ih =>
      have hpos : 0 < p.text.length := by cases p <;> simp [Piece.text]
      rw [List.flatMap_cons, List.length_append, List.length_cons]
      omega
  have hfuel : ps.length < c.left + 1 := by
    have := hlength ps
    rw [hcounts, hrest, List.length_cons, List.length_append]
    omega
  obtain ⟨d, hread, hpass', hd⟩ := exists_quotedRest (forall_isReadable h) hstep hfuel
  refine ⟨d, ?_, hpass.trans hpass', hd⟩
  rw [quotedScalar, hread, charsOf_eq_map hpair]

theorem isAllowed_quoted : ∀ ch ∈ quoted ps, isAllowed ch = true ∧ isBreak ch = false := by
  have hquote : isAllowed '\x22' = true ∧ isBreak '\x22' = false := by decide
  simp only [quoted, List.cons_append, List.forall_mem_cons, List.forall_mem_append, List.mem_flatMap]
  refine ⟨hquote, ?_, hquote, by simp⟩
  rintro ch ⟨p, hp, hch⟩
  exact p.isAllowed_of_mem (forall_isReadable h p hp) ch hch

end Strings

/-! ### Numbers -/

/-- the characters that numbers are written with -/
def numberMarks : List Char :=
  ['0', '1', '2', '3', '4', '5', '6', '7', '8', '9', '+', '-', '.', 'e', 'E']

theorem Digits.mem_numberMarks {ds : List (Fin 10)} : ∀ ch ∈ Digits.text ds, ch ∈ numberMarks := by
  have hall : ∀ d : Fin 10, hexDigit d.val ∈ numberMarks := by decide
  intro ch hch
  obtain ⟨d, -, rfl⟩ := List.mem_map.1 hch
  exact hall d

theorem Exponent.mem_numberMarks (e : Exponent) : ∀ ch ∈ e.text, ch ∈ numberMarks := by
  have hdigits := @Digits.mem_numberMarks e.digits.1
  unfold Exponent.text
  rw [List.forall_mem_cons]
  refine ⟨by split <;> decide, ?_⟩
  split
  · exact List.forall_mem_cons.2 ⟨by decide, hdigits⟩
  · exact List.forall_mem_cons.2 ⟨by decide, hdigits⟩
  · exact hdigits

namespace Number

variable (n : Number)

theorem mem_numberMarks_body : ∀ ch ∈ n.body, ch ∈ numberMarks := by
  unfold body
  simp only [List.forall_mem_append]
  refine ⟨⟨Digits.mem_numberMarks, ?_⟩, ?_⟩
  · split
    · exact List.forall_mem_cons.2 ⟨by decide, Digits.mem_numberMarks⟩
    · simp
  · cases n.exponent with
    | none => simp
    | some e => exact e.mem_numberMarks

theorem mem_numberMarks : ∀ ch ∈ n.text, ch ∈ numberMarks := by
  unfold text
  split
  · exact List.forall_mem_cons.2 ⟨by decide, n.mem_numberMarks_body⟩
  · exact n.mem_numberMarks_body

/-- a number begins with a digit, behind the sign -/
theorem exists_body_eq : ∃ (d : Fin 10) (t : List Char), n.body = hexDigit d.val :: t := by
  obtain ⟨d, ds, hds⟩ := List.exists_cons_of_ne_nil n.whole.2
  unfold body
  rw [hds]
  exact ⟨d, _, rfl⟩

theorem isWord : Lexer.IsWord n.text := by
  have hmarks : ∀ ch ∈ numberMarks, isGap ch = false ∧ ":,?[]\x7b\x7d".toList.contains ch = false :=
    forall_mem_of_all (by decide)
  have hdigit : ∀ d : Fin 10, isWordChar (hexDigit d.val) = true ∧ hexDigit d.val ≠ '-' := by decide
  refine ⟨fun ch hch => hmarks ch (n.mem_numberMarks ch hch), ?_⟩
  obtain ⟨d, t, hbody⟩ := n.exists_body_eq
  unfold text
  split
  · exact ⟨['-'], _, t, by rw [hbody]; rfl, .inr rfl, (hdigit d).1, (hdigit d).2⟩
  · exact ⟨[], _, t, hbody, .inl rfl, (hdigit d).1, (hdigit d).2⟩

end Number

/-! ### Atoms -/

namespace Atom

/-- the token of an atom -/
def token : Atom → Token
  | string ps => .scalar (String.ofList (charsOf ps)) false
  | a => .scalar (String.ofList a.text) true

theorem isAllowed_text {a : Atom} (ha : a.isReadable = true) : ∀ ch ∈ a.text, isAllowed ch = true := by
  have hmarks : ∀ ch ∈ numberMarks, isAllowed ch = true := forall_mem_of_all (by decide)
  cases a with
  | null => exact forall_mem_of_all (by decide)
  | bool b => cases b <;> exact forall_mem_of_all (by decide)
  | number n => exact fun ch hch => hmarks ch (n.mem_numberMarks ch hch)
  | string ps => exact fun ch hch => (isAllowed_quoted ha ch hch).1

/-- an atom becomes its token -/
theorem comes {a : Atom} (ha : a.isReadable = true) {x : Lexer} {found : List Token} {flow : Nat}
    {s r : List Char} (hs : ∀ ch ∈ s, isPassed ch = true) (hr : Lexer.Closing r)
    (h : x.Stands found (flow + 1) (a.text ++ (s ++ r))) :
    x.Comes fun y => y.Stands (a.token :: found) (flow + 1) r := by
  have hname : ∀ w ∈ ["null", "true", "false"], Lexer.IsWord w.toList := by
    intro w hw
    simp only [List.mem_cons, List.not_mem_nil, or_false] at hw
    rcases hw with rfl | rfl | rfl
    · exact ⟨forall_mem_of_all (by decide), [], 'n', _, rfl, .inl rfl, by decide, by decide⟩
    · exact ⟨forall_mem_of_all (by decide), [], 't', _, rfl, .inl rfl, by decide, by decide⟩
    · exact ⟨forall_mem_of_all (by decide), [], 'f', _, rfl, .inl rfl, by decide, by decide⟩
  cases a with
  | null => exact Lexer.comes_plain (hname "null" (by simp)) hs hr h
  | bool b =>
    cases b with
    | true => exact Lexer.comes_plain (hname "true" (by simp)) hs hr h
    | false => exact Lexer.comes_plain (hname "false" (by simp)) hs hr h
  | number n => exact Lexer.comes_plain n.isWord hs hr h
  | string ps => exact (Lexer.comes_quoted (quotes_quoted ha) h).mono fun y hy => hy.of_append hs

end Atom

/-! ### Values -/

theorem Gap.isPassed_text {g : Gap} (hg : g.isReadable = true) : ∀ ch ∈ g.text, isPassed ch = true := by
  intro ch hch
  obtain ⟨b, hb, rfl⟩ := List.mem_map.1 hch
  have hne := List.all_eq_true.1 hg b hb
  cases b
  · rfl
  · cases hne
  · rfl
  · rfl

theorem isAllowed_of_isPassed {ch : Char} (h : isPassed ch = true) : isAllowed ch = true := by
  simp only [isPassed, Bool.or_eq_true, decide_eq_true_eq] at h
  rcases h with (rfl | rfl) | rfl <;> decide

/-- the tokens of a key, with those of the marks before and behind it -/
def Key.tokens (k : Key) : List Token := [.key, .scalar k.string false, .value]

mutual

/-- the tokens of a value -/
def Value.tokens : Value → List Token
  | .atom a => [a.token]
  | .emptyArray _ => [.flowSequence, .flowSequenceEnd]
  | .array items => .flowSequence :: items.tokens ++ [.flowSequenceEnd]
  | .emptyObject _ => [.flowMapping, .flowMappingEnd]
  | .object members => .flowMapping :: members.tokens ++ [.flowMappingEnd]

/-- the tokens of the items of an array -/
def Items.tokens : Items → List Token
  | .last _ v _ => v.tokens
  | .more _ v _ rest => v.tokens ++ .flowEntry :: rest.tokens

/-- the tokens of the members of an object -/
def Members.tokens : Members → List Token
  | .last k _ v _ => k.tokens ++ v.tokens
  | .more k _ v _ rest => k.tokens ++ v.tokens ++ .flowEntry :: rest.tokens

end

theorem closing_comma (r : List Char) : Lexer.Closing (',' :: r) := ⟨_, r, rfl, by decide⟩

theorem closing_bracket (r : List Char) : Lexer.Closing (']' :: r) := ⟨_, r, rfl, by decide⟩

theorem closing_brace (r : List Char) : Lexer.Closing ('\x7d' :: r) := ⟨_, r, rfl, by decide⟩

/-- a key becomes its tokens -/
theorem Key.comes {k : Key} (hk : k.isReadable = true) {x : Lexer} {found : List Token} {flow : Nat}
    {r : List Char} (h : x.Stands found (flow + 1) (k.text ++ r)) (hkey : x.keyAllowed = true) :
    x.Comes fun y => y.Stands (k.tokens.reverse ++ found) (flow + 1) r := by
  simp only [Key.isReadable, Bool.and_eq_true, decide_eq_true_eq, List.all_eq_true] at hk
  obtain ⟨⟨⟨hbefore, hname⟩, hafter⟩, hlength⟩ := hk
  have hspaces : ∀ ch ∈ k.after.text, ch = ' ' := by
    intro ch hch
    obtain ⟨b, hb, rfl⟩ := List.mem_map.1 hch
    rw [hafter b hb]
    rfl
  have htext : k.text ++ r = k.before.text ++ (quoted k.name ++ (k.after.text ++ ':' :: r)) := by
    simp [Key.text]
  rw [htext] at h
  refine Lexer.comes_key (quotes_quoted hname) (fun ch hch => (isAllowed_quoted hname ch hch).2) hspaces ?_
    (h.of_append (Gap.isPassed_text hbefore)) hkey
  simpa [Gap.text] using hlength

mutual

/-- A value becomes its tokens. An object may stand by itself, any other only within a collection. -/
theorem Value.comes (v : Value) (hv : v.isReadable = true) {x : Lexer} {found : List Token} {flow : Nat}
    {s r : List Char} (hs : ∀ ch ∈ s, isPassed ch = true)
    (hr : v.isObject = true ∨ flow ≠ 0 ∧ Lexer.Closing r)
    (h : x.Stands found flow (v.text ++ (s ++ r))) :
    x.Comes fun y => y.Stands (v.tokens.reverse ++ found) flow r := by
  match v with
  | .atom a =>
    rcases hr with hobject | ⟨hflow, hr⟩
    · cases hobject
    · obtain ⟨flow, rfl⟩ := Nat.exists_eq_succ_of_ne_zero hflow
      exact a.comes hv hs hr h
  | .emptyArray gap =>
    simp only [Value.text, List.cons_append, List.append_assoc, List.nil_append] at h
    refine (Lexer.comes_flowStart (.inl ⟨rfl, rfl⟩) h).trans fun y hy => ?_
    have hend := hy.1.of_append (Gap.isPassed_text hv)
    exact (Lexer.comes_flowEnd (.inl ⟨rfl, rfl⟩) hend).mono fun z hz => hz.of_append hs
  | .array items =>
    simp only [Value.text, List.cons_append, List.append_assoc, List.nil_append] at h
    refine (Lexer.comes_flowStart (.inl ⟨rfl, rfl⟩) h).trans fun y hy => ?_
    refine (items.comes hv hy.1).trans fun z hz => ?_
    refine (Lexer.comes_flowEnd (.inl ⟨rfl, rfl⟩) hz).mono fun w hw => ?_
    simpa [Value.tokens] using hw.of_append hs
  | .emptyObject gap =>
    simp only [Value.text, List.cons_append, List.append_assoc, List.nil_append] at h
    refine (Lexer.comes_flowStart (.inr ⟨rfl, rfl⟩) h).trans fun y hy => ?_
    have hend := hy.1.of_append (Gap.isPassed_text hv)
    exact (Lexer.comes_flowEnd (.inr ⟨rfl, rfl⟩) hend).mono fun z hz => hz.of_append hs
  | .object members =>
    simp only [Value.text, List.cons_append, List.append_assoc, List.nil_append] at h
    refine (Lexer.comes_flowStart (.inr ⟨rfl, rfl⟩) h).trans fun y hy => ?_
    refine (members.comes hv hy.1 hy.2).trans fun z hz => ?_
    refine (Lexer.comes_flowEnd (.inr ⟨rfl, rfl⟩) hz).mono fun w hw => ?_
    simpa [Value.tokens] using hw.of_append hs

/-- the items of an array become their tokens -/
theorem Items.comes (is : Items) (hi : is.isReadable = true) {x : Lexer} {found : List Token}
    {flow : Nat} {r : List Char} (h : x.Stands found (flow + 1) (is.text ++ ']' :: r)) :
    x.Comes fun y => y.Stands (is.tokens.reverse ++ found) (flow + 1) (']' :: r) := by
  match is with
  | .last before v after =>
    simp only [Items.isReadable, Bool.and_eq_true] at hi
    simp only [Items.text, List.append_assoc] at h
    exact v.comes hi.1.2 (Gap.isPassed_text hi.2) (.inr ⟨Nat.succ_ne_zero _, closing_bracket r⟩)
      (h.of_append (Gap.isPassed_text hi.1.1))
  | .more before v after rest =>
    simp only [Items.isReadable, Bool.and_eq_true] at hi
    simp only [Items.text, List.append_assoc, List.cons_append] at h
    refine (v.comes hi.1.1.2 (Gap.isPassed_text hi.1.2) (.inr ⟨Nat.succ_ne_zero _, closing_comma _⟩)
      (h.of_append (Gap.isPassed_text hi.1.1.1))).trans fun y hy => ?_
    refine (Lexer.comes_flowEntry hy).trans fun z hz => ?_
    refine (rest.comes hi.2 hz.1).mono fun w hw => ?_
    simpa [Items.tokens] using hw

/-- the members of an object become their tokens -/
theorem Members.comes (ms : Members) (hm : ms.isReadable = true) {x : Lexer} {found : List Token}
    {flow : Nat} {r : List Char} (h : x.Stands found (flow + 1) (ms.text ++ '\x7d' :: r))
    (hkey : x.keyAllowed = true) :
    x.Comes fun y => y.Stands (ms.tokens.reverse ++ found) (flow + 1) ('\x7d' :: r) := by
  match ms with
  | .last k before v after =>
    simp only [Members.isReadable, Bool.and_eq_true] at hm
    simp only [Members.text, List.append_assoc] at h
    refine (k.comes hm.1.1.1 h hkey).trans fun y hy => ?_
    refine (v.comes hm.1.2 (Gap.isPassed_text hm.2) (.inr ⟨Nat.succ_ne_zero _, closing_brace r⟩)
      (hy.of_append (Gap.isPassed_text hm.1.1.2))).mono fun z hz => ?_
    simpa [Members.tokens] using hz
  | .more k before v after rest =>
    simp only [Members.isReadable, Bool.and_eq_true] at hm
    simp only [Members.text, List.append_assoc, List.cons_append] at h
    refine (k.comes hm.1.1.1.1 h hkey).trans fun y hy => ?_
    refine (v.comes hm.1.1.2 (Gap.isPassed_text hm.1.2) (.inr ⟨Nat.succ_ne_zero _, closing_comma _⟩)
      (hy.of_append (Gap.isPassed_text hm.1.1.1.2))).trans fun z hz => ?_
    refine (Lexer.comes_flowEntry hz).trans fun w hw => ?_
    refine (rest.comes hm.2 hw.1 hw.2).mono fun u hu => ?_
    simpa [Members.tokens] using hu

end

/-! ### Texts -/

mutual

theorem Value.isAllowed_text (v : Value) (hv : v.isReadable = true) :
    ∀ ch ∈ v.text, isAllowed ch = true := by
  have hopen : isAllowed '[' = true ∧ isAllowed ']' = true ∧ isAllowed '\x7b' = true ∧
      isAllowed '\x7d' = true := by decide
  match v with
  | .atom a => exact a.isAllowed_text hv
  | .emptyArray gap =>
    simp only [Value.text, List.cons_append, List.forall_mem_cons, List.forall_mem_append]
    exact ⟨hopen.1, fun ch hch => isAllowed_of_isPassed (Gap.isPassed_text hv ch hch), hopen.2.1, by simp⟩
  | .array items =>
    simp only [Value.text, List.cons_append, List.forall_mem_cons, List.forall_mem_append]
    exact ⟨hopen.1, items.isAllowed_text hv, hopen.2.1, by simp⟩
  | .emptyObject gap =>
    simp only [Value.text, List.cons_append, List.forall_mem_cons, List.forall_mem_append]
    exact ⟨hopen.2.2.1, fun ch hch => isAllowed_of_isPassed (Gap.isPassed_text hv ch hch), hopen.2.2.2,
      by simp⟩
  | .object members =>
    simp only [Value.text, List.cons_append, List.forall_mem_cons, List.forall_mem_append]
    exact ⟨hopen.2.2.1, members.isAllowed_text hv, hopen.2.2.2, by simp⟩

theorem Items.isAllowed_text (is : Items) (hi : is.isReadable = true) :
    ∀ ch ∈ is.text, isAllowed ch = true := by
  have hgap {g : Gap} (hg : g.isReadable = true) : ∀ ch ∈ g.text, isAllowed ch = true :=
    fun ch hch => isAllowed_of_isPassed (Gap.isPassed_text hg ch hch)
  match is with
  | .last before v after =>
    simp only [Items.isReadable, Bool.and_eq_true] at hi
    simp only [Items.text, List.forall_mem_append]
    exact ⟨⟨hgap hi.1.1, v.isAllowed_text hi.1.2⟩, hgap hi.2⟩
  | .more before v after rest =>
    simp only [Items.isReadable, Bool.and_eq_true] at hi
    simp only [Items.text, List.forall_mem_cons, List.forall_mem_append]
    exact ⟨⟨⟨hgap hi.1.1.1, v.isAllowed_text hi.1.1.2⟩, hgap hi.1.2⟩, by decide, rest.isAllowed_text hi.2⟩

theorem Members.isAllowed_text (ms : Members) (hm : ms.isReadable = true) :
    ∀ ch ∈ ms.text, isAllowed ch = true := by
  have hgap {g : Gap} (hg : g.isReadable = true) : ∀ ch ∈ g.text, isAllowed ch = true :=
    fun ch hch => isAllowed_of_isPassed (Gap.isPassed_text hg ch hch)
  have hkey {k : Key} (hk : k.isReadable = true) : ∀ ch ∈ k.text, isAllowed ch = true := by
    simp only [Key.isReadable, Bool.and_eq_true, decide_eq_true_eq, List.all_eq_true] at hk
    obtain ⟨⟨⟨hbefore, hname⟩, hafter⟩, -⟩ := hk
    have hspaces : Gap.isReadable k.after = true := by
      rw [Gap.isReadable, List.all_eq_true]
      intro b hb
      rw [hafter b hb]
      rfl
    simp only [Key.text, List.forall_mem_cons, List.forall_mem_append]
    exact ⟨⟨⟨hgap hbefore, fun ch hch => (isAllowed_quoted hname ch hch).1⟩, hgap hspaces⟩, by decide, by simp⟩
  match ms with
  | .last k before v after =>
    simp only [Members.isReadable, Bool.and_eq_true] at hm
    simp only [Members.text, List.forall_mem_append]
    exact ⟨⟨⟨hkey hm.1.1.1, hgap hm.1.1.2⟩, v.isAllowed_text hm.1.2⟩, hgap hm.2⟩
  | .more k before v after rest =>
    simp only [Members.isReadable, Bool.and_eq_true] at hm
    simp only [Members.text, List.forall_mem_cons, List.forall_mem_append]
    exact ⟨⟨⟨⟨hkey hm.1.1.1.1, hgap hm.1.1.1.2⟩, v.isAllowed_text hm.1.1.2⟩, hgap hm.1.2⟩, by decide,
      rest.isAllowed_text hm.2⟩

end

namespace Document

/-- the tokens of a text -/
def tokens (d : Document) : List Token := d.root.tokens ++ [.textEnd]

/-- **Tokens.**  The text is read into its tokens, and nothing is wrong behind them. -/
theorem tokens_ofText {d : Document} (h : d.isReadable = true) :
    Tokens.ofText d.text = ⟨d.tokens, none⟩ := by
  obtain ⟨before, root, after, hroot⟩ := d
  simp only [isReadable, Bool.and_eq_true] at h
  obtain ⟨⟨⟨hbefore, hv⟩, hafter⟩, -⟩ := h
  have hgap {g : Gap} (hg : g.isReadable = true) : ∀ ch ∈ g.text, isAllowed ch = true :=
    fun ch hch => isAllowed_of_isPassed (Gap.isPassed_text hg ch hch)
  have hallowed : (text ⟨before, root, after, hroot⟩).all isAllowed = true := by
    rw [List.all_eq_true]
    simp only [text, List.forall_mem_append]
    exact ⟨⟨hgap hbefore, root.isAllowed_text hv⟩, hgap hafter⟩
  have hstart : (Lexer.start (text ⟨before, root, after, hroot⟩)).Stands [] 0
      (root.text ++ (after.text ++ [])) := by
    refine Lexer.Stands.of_append (s := before.text) (Lexer.At.stands ⟨rfl, rfl, ?_, rfl, rfl, rfl, rfl, rfl,
      by simp [Lexer.start]⟩) (Gap.isPassed_text hbefore)
    simp [Lexer.start, Cursor.start, text]
  obtain ⟨fuel, taken, y, hy, hleft, hrun⟩ :=
    root.comes hv (Gap.isPassed_text hafter) (.inl hroot) hstart _ 0 (Nat.le_refl _)
  rw [Tokens.ofText, if_pos hallowed]
  change Lexer.run ((Lexer.start _).cursor.left + 2) 0 _ = _
  rw [hrun, hy.run_eq hleft]
  simp [tokens]

end Document

end MeshOperator.Json
