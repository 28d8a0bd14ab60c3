import Mathlib.Data.List.Forall2
import MeshOperator.Proofs.Json.Spelling
import MeshOperator.Text.Escaped

/-!
# Written texts

What is written for a text is a string of JSON, in printable ASCII characters. A reader takes it for the text,
with the halves of a surrogate pair that stand next to each other made one character.

* `joined`, `isUnsplit`, `joined_eq_iff`: what a reader takes a text for, and which texts for themselves.
* `exists_pieces`: the written form of a text.
-/

namespace MeshOperator

/-! ### Surrogate pairs -/

/-- the character that two others stand for, the halves of a surrogate pair -/
def joinHalves? (c d : Char) : Option Char :=
  if 0xd800 ≤ codePoint c && codePoint c ≤ 0xdbff && 0xdc00 ≤ codePoint d && codePoint d ≤ 0xdfff then
    some (ofCodePoint (0x10000 + (codePoint c - 0xd800) * 0x400 + (codePoint d - 0xdc00)))
  else none

/-- a text with one character for the halves of a surrogate pair that stand next to each other -/
def joined : List Char → List Char
  | [] => []
  | [c] => [c]
  | c :: d :: s =>
    match joinHalves? c d with
    | some e => e :: joined s
    | none => c :: joined (d :: s)

/-- whether no halves of a surrogate pair stand next to each other -/
def isUnsplit : List Char → Bool
  | c :: d :: s => (joinHalves? c d).isNone && isUnsplit (d :: s)
  | _ => true

theorem length_joined_le (s : List Char) : (joined s).length ≤ s.length := by
  fun_induction joined s with
  | case1 => exact Nat.le_refl 0
  | case2 c => exact Nat.le_refl 1
  | case3 c d s e _ ih => exact Nat.succ_le_succ (Nat.le_succ_of_le ih)
  | case4 c d s _ ih => exact Nat.succ_le_succ ih

theorem joined_of_isUnsplit {s : List Char} (h : isUnsplit s = true) : joined s = s := by
  fun_induction joined s with
  | case1 => rfl
  | case2 c => rfl
  | case3 c d s e he ih => simp [isUnsplit, he] at h
  | case4 c d s hnone ih => rw [ih (by simpa [isUnsplit, hnone] using h)]

/-- a text with a surrogate pair in halves gets shorter -/
theorem length_joined_lt {s : List Char} (h : isUnsplit s = false) : (joined s).length < s.length := by
  fun_induction joined s with
  | case1 => cases h
  | case2 c => cases h
  | case3 c d s e he ih => exact Nat.succ_lt_succ (Nat.lt_succ_of_le (length_joined_le s))
  | case4 c d s hnone ih => exact Nat.succ_lt_succ (ih (by simpa [isUnsplit, hnone] using h))

theorem joined_eq_iff (s : List Char) : joined s = s ↔ isUnsplit s = true := by
  refine ⟨fun h => ?_, joined_of_isUnsplit⟩
  by_contra hsplit
  have hlt := length_joined_lt (Bool.eq_false_iff.2 hsplit)
  rw [h] at hlt
  exact Nat.lt_irrefl _ hlt

theorem joinHalves?_of_low {c d : Char} (h : codePoint c < 0xd800 ∨ codePoint d < 0xd800) :
    joinHalves? c d = none := by
  rw [joinHalves?, if_neg]
  simp only [Bool.and_eq_true, decide_eq_true_eq]
  omega

theorem joinHalves?_of_far {c d : Char} (h : 0xffff < codePoint c ∨ 0xffff < codePoint d) :
    joinHalves? c d = none := by
  rw [joinHalves?, if_neg]
  simp only [Bool.and_eq_true, decide_eq_true_eq]
  omega

/-- a text without halves has no pair of them -/
theorem isUnsplit_of_low {s : List Char} (h : ∀ c ∈ s, codePoint c < 0xd800) : isUnsplit s = true := by
  induction s with
  | nil => rfl
  | cons c s ih =>
    obtain ⟨hc, hs⟩ := List.forall_mem_cons.1 h
    cases s with
    | nil => rfl
    | cons d s => simp [isUnsplit, joinHalves?_of_low (.inl hc), ih hs]

namespace Json

/-! ### Pieces -/

/-- a hexadecimal digit by its value -/
theorem exists_hexDigit {v : ℕ} (hv : v < 16) : ∃ d : HexDigit, d.char = hexDigit v ∧ d.value = v := by
  have hall : ∀ v : Fin 16, digitOfBase? 16 (hexDigit v.val) = some v.val := by decide
  have hdigit := hall ⟨v, hv⟩
  exact ⟨⟨hexDigit v, by rw [hdigit]; rfl⟩, rfl, by rw [HexDigit.value, hdigit]; rfl⟩

/-- a code unit as it is written -/
theorem exists_unit {n : ℕ} (hn : n < 0x10000) :
    ∃ p : Piece, p.text = Text.unitEscape n ∧ p.number? = some n ∧ p.char = ofCodePoint n := by
  obtain ⟨a, ha, ha'⟩ := exists_hexDigit (v := n / 16 / 16 / 16 % 16) (Nat.mod_lt _ (by decide))
  obtain ⟨b, hb, hb'⟩ := exists_hexDigit (v := n / 16 / 16 % 16) (Nat.mod_lt _ (by decide))
  obtain ⟨c, hc, hc'⟩ := exists_hexDigit (v := n / 16 % 16) (Nat.mod_lt _ (by decide))
  obtain ⟨d, hd, hd'⟩ := exists_hexDigit (v := n % 16) (Nat.mod_lt _ (by decide))
  have hvalue : ((a.value * 16 + b.value) * 16 + c.value) * 16 + d.value = n := by omega
  refine ⟨.unit a b c d, ?_, congrArg some hvalue, congrArg ofCodePoint hvalue⟩
  simp [Piece.text, Text.unitEscape, hexText, ha, hb, hc, hd]

/-- whether a character is a printable one of ASCII -/
def isPrintableAscii (c : Char) : Bool := 0x20 ≤ c.toNat && c.toNat ≤ 0x7e

theorem isPrintableAscii_hexDigit : ∀ v < 16, isPrintableAscii (hexDigit v) = true := by decide

theorem isPrintableAscii_unitEscape (n : ℕ) : ∀ c ∈ Text.unitEscape n, isPrintableAscii c = true := by
  have hdigit (v : ℕ) : isPrintableAscii (hexDigit (v % 16)) = true :=
    isPrintableAscii_hexDigit _ (Nat.mod_lt _ (by decide))
  simp [Text.unitEscape, hexText, hdigit]
  decide

/-! ### Pieces of a text -/

/-- a code point of no more than sixteen bits that is no half is a character by its number -/
theorem toNat_of_codePoint_lt {c : Char} (h : codePoint c < 0xd800) : c.toNat = codePoint c := by
  unfold codePoint at h ⊢
  split_ifs at h ⊢ with hhalf
  · simp only [holdsHalf, isHalf, Bool.and_eq_true, decide_eq_true_eq] at hhalf
    omega
  · rfl

theorem codePoint_lt (c : Char) : codePoint c < 0x110000 := by
  have hlt : c.toNat < 0x110000 := by
    rcases c.valid with h | h
    · exact Nat.lt_trans h (by decide)
    · exact h.2
  unfold codePoint
  split_ifs <;> omega

theorem ofCodePoint_codePoint (c : Char) : ofCodePoint (codePoint c) = c := by
  have hvalid := c.valid
  unfold ofCodePoint codePoint
  by_cases hhalf : holdsHalf c = true
  · simp only [holdsHalf, Bool.and_eq_true, decide_eq_true_eq] at hhalf
    have hholds : holdsHalf c = true := by simp [holdsHalf, hhalf]
    rw [if_pos hholds, if_pos hhalf.2, Nat.sub_add_cancel hhalf.1, Char.ofNat_toNat]
  · have hnot : isHalf c.toNat = false := by
      simp only [isHalf, Bool.and_eq_false_iff, decide_eq_false_iff_not]
      simp only [UInt32.isValidChar, Nat.isValidChar] at hvalid
      change c.toNat < _ ∨ _ < c.toNat ∧ c.toNat < _ at hvalid
      omega
    rw [if_neg hhalf, hnot, if_neg Bool.false_ne_true, Char.ofNat_toNat]

/-- The pieces of a character: one that denotes it, or two that do so together. -/
inductive Forms (c : Char) : List Piece → Prop
  | one {p : Piece} (char : p.char = c)
      (number : p.number? = some (codePoint c) ∨ p.number? = none ∧ codePoint c < 0xd800) : Forms c [p]
  | two {p q : Piece} (pair : p.pair? q = some c) (first : ∀ r : Piece, r.pair? p = none)
      (far : 0xffff < codePoint c) : Forms c [p, q]

/-- The text is made of pieces of the character, and printable. -/
def IsWritten (c : Char) (t : List Char) : Prop :=
  ∃ ps, Forms c ps ∧ ps.flatMap Piece.text = t ∧ ∀ d ∈ t, isPrintableAscii d = true

section Characters

variable {c : Char}

theorem isWritten_escape (e : Escape) (hchar : e.char = c) (hlow : codePoint c < 0xd800) :
    IsWritten c ['\\', e.letter] := by
  refine ⟨[.escape e], .one hchar (.inr ⟨rfl, hlow⟩), rfl, ?_⟩
  cases e <;> exact Yaml.forall_mem_of_all (by decide)

theorem isWritten_plain (hquote : ¬ (c = '\x22' ∨ c = '\\')) (hplain : 0x20 ≤ codePoint c ∧ codePoint c ≤ 0x7e) :
    IsWritten c [c] := by
  have hnat := toNat_of_codePoint_lt (c := c) (by omega)
  have hfits : isPlain c = true := by simp [isPlain, hnat, hplain, not_or.1 hquote]
  exact ⟨[.plain c hfits], .one rfl (.inr ⟨rfl, by omega⟩), rfl, by simp [isPrintableAscii, hnat, hplain]⟩

theorem isWritten_unit (h : codePoint c ≤ 0xffff) : IsWritten c (Text.unitEscape (codePoint c)) := by
  obtain ⟨p, htext, hnumber, hchar⟩ := exists_unit (n := codePoint c) (by omega)
  exact ⟨[p], .one (hchar.trans (ofCodePoint_codePoint c)) (.inl hnumber), by simp [htext],
    isPrintableAscii_unitEscape _⟩

/-- a character that is too far for one code unit is written as a pair -/
theorem isWritten_pair (h : 0xffff < codePoint c) :
    IsWritten c (Text.unitEscape (0xd800 + (codePoint c - 0x10000) / 0x400) ++
      Text.unitEscape (0xdc00 + (codePoint c - 0x10000) % 0x400)) := by
  have hbound := codePoint_lt c
  obtain ⟨p, htext, hnumber, -⟩ := exists_unit (n := 0xd800 + (codePoint c - 0x10000) / 0x400) (by omega)
  obtain ⟨q, htext', hnumber', -⟩ := exists_unit (n := 0xdc00 + (codePoint c - 0x10000) % 0x400) (by omega)
  refine ⟨[p, q], .two ?_ (fun r => ?_) h, by simp [htext, htext'],
    List.forall_mem_append.2 ⟨isPrintableAscii_unitEscape _, isPrintableAscii_unitEscape _⟩⟩
  · unfold Piece.pair?
    rw [hnumber, hnumber']
    have hjoin : 0x10000 + (0xd800 + (codePoint c - 0x10000) / 0x400 - 0xd800) * 0x400 +
        (0xdc00 + (codePoint c - 0x10000) % 0x400 - 0xdc00) = codePoint c := by omega
    dsimp only
    rw [if_pos (by simp; omega), hjoin, ofCodePoint_codePoint]
  · -- a high half is the second one of no pair
    unfold Piece.pair?
    rw [hnumber]
    split
    · rename_i heq
      cases heq
      rw [if_neg (by simp; omega)]
    · rfl

theorem isWritten_escapeChar (c : Char) : IsWritten c (Text.escapeChar c) := by
  have hself := ofCodePoint_codePoint c
  unfold Text.escapeChar
  simp only [Bool.or_eq_true, Bool.and_eq_true, decide_eq_true_eq]
  split_ifs with hquote hline hreturn htab hback hfeed hplain hunit
  · rcases hquote with rfl | rfl
    · exact isWritten_escape .quote rfl (by decide)
    · exact isWritten_escape .backslash rfl (by decide)
  · subst hline
    exact isWritten_escape .lineFeed rfl (by decide)
  · subst hreturn
    exact isWritten_escape .carriageReturn rfl (by decide)
  · subst htab
    exact isWritten_escape .tab rfl (by decide)
  · rw [hback] at hself
    exact isWritten_escape .backspace hself (by omega)
  · rw [hfeed] at hself
    exact isWritten_escape .formFeed hself (by omega)
  · exact isWritten_plain hquote hplain
  · exact isWritten_unit hunit
  · exact isWritten_pair (not_le.1 hunit)

end Characters

/-- what is there for each item of a list is there for all of them in a row -/
theorem exists_forall₂ {α β : Type} {R : α → β → Prop} {as : List α} (h : ∀ a ∈ as, ∃ b, R a b) :
    ∃ bs, List.Forall₂ R as bs := by
  induction as with
  | nil => exact ⟨[], .nil⟩
  | cons a as ih =>
    obtain ⟨ha, has⟩ := List.forall_mem_cons.1 h
    obtain ⟨b, hb⟩ := ha
    obtain ⟨bs, hbs⟩ := ih has
    exact ⟨b :: bs, .cons hb hbs⟩

section Pairs

variable {c d : Char} {p q : Piece} {ps qs : List Piece}

/-- a pair of pieces is one of characters -/
theorem Forms.pair?_eq (hc : Forms c [p]) (hd : Forms d (q :: qs)) : p.pair? q = joinHalves? c d := by
  cases hc with
  | one hchar hnumber =>
    cases hd with
    | two hpair hfirst hfar => rw [hfirst p, joinHalves?_of_far (.inr hfar)]
    | one hchar' hnumber' =>
      unfold Piece.pair?
      rcases hnumber with h | ⟨h, hlow⟩
      · rcases hnumber' with h' | ⟨h', hlow'⟩
        · rw [h, h']
          rfl
        · rw [h, h', joinHalves?_of_low (.inr hlow')]
      · rw [h, joinHalves?_of_low (.inl hlow)]

/-- a character whose half is joined to another has one piece -/
theorem Forms.eq_single (hc : Forms c ps) (h : codePoint c ≤ 0xffff) : ∃ p, ps = [p] ∧ p.char = c := by
  cases hc with
  | one hchar _ => exact ⟨_, rfl, hchar⟩
  | two _ _ hfar => omega

theorem Forms.exists_cons (hc : Forms c ps) : ∃ p t, ps = p :: t := by
  cases hc with
  | one => exact ⟨_, _, rfl⟩
  | two => exact ⟨_, _, rfl⟩

end Pairs

/-- a reader takes the pieces of a text for the text with its surrogate pairs joined -/
theorem charsOf_flatten (s : List Char) {pss : List (List Piece)} (h : List.Forall₂ Forms s pss) :
    charsOf pss.flatten = joined s := by
  fun_induction joined s generalizing pss with
  | case1 =>
    cases h
    rfl
  | case2 c =>
    obtain ⟨ps, -, hps, ⟨⟩, rfl⟩ := List.forall₂_cons_left_iff.1 h
    cases hps with
    | one hchar _ => simpa [charsOf] using hchar
    | two hpair _ _ => simp [charsOf, hpair]
  | case3 c d s e he ih =>
    obtain ⟨ps, qss, hps, hqss, rfl⟩ := List.forall₂_cons_left_iff.1 h
    obtain ⟨qs, pss, hqs, hpss, rfl⟩ := List.forall₂_cons_left_iff.1 hqss
    have hnear : codePoint c ≤ 0xffff ∧ codePoint d ≤ 0xffff := by
      by_contra hfar
      rw [joinHalves?_of_far (by omega)] at he
      cases he
    obtain ⟨p, rfl, -⟩ := hps.eq_single hnear.1
    obtain ⟨q, rfl, -⟩ := hqs.eq_single hnear.2
    have hpair := (hps.pair?_eq hqs).trans he
    simp [charsOf, hpair, ih hpss]
  | case4 c d s hnone ih =>
    obtain ⟨ps, qss, hps, hqss, rfl⟩ := List.forall₂_cons_left_iff.1 h
    have hrest := ih hqss
    cases hps with
    | two hpair _ _ => simp [charsOf, hpair, hrest]
    | @one p hchar hnumber =>
      obtain ⟨qs, pss, hqs, -, rfl⟩ := List.forall₂_cons_left_iff.1 hqss
      obtain ⟨q, t, rfl⟩ := hqs.exists_cons
      have hpair := ((Forms.one hchar hnumber).pair?_eq hqs).trans hnone
      rw [List.flatten_cons, List.cons_append] at hrest
      rw [List.flatten_cons, List.flatten_cons, List.cons_append, List.cons_append, List.nil_append, charsOf,
        hpair]
      exact congrArg₂ List.cons hchar hrest

/-- **Texts.**  The written form of a text is a string of printable characters, and denotes the text with its
surrogate pairs joined. Its characters U+10D800 to U+10DFFF are halves (`holdsHalf`). -/
theorem exists_pieces (s : List Char) : ∃ ps, quoted ps = Text.escaped s ∧ charsOf ps = joined s := by
  obtain ⟨pss, hpss⟩ := exists_forall₂ fun c (_ : c ∈ s) => isWritten_escapeChar c
  have htext : pss.flatten.flatMap Piece.text = s.flatMap Text.escapeChar := by
    induction hpss with
    | nil => rfl
    | cons hc _ ih => rw [List.flatten_cons, List.flatMap_append, hc.2.1, ih, List.flatMap_cons]
  exact ⟨pss.flatten, by rw [quoted, htext]; rfl, charsOf_flatten s (hpss.imp fun _ _ h => h.1)⟩

theorem isPrintableAscii_escaped (s : List Char) : ∀ c ∈ Text.escaped s, isPrintableAscii c = true := by
  have hquote : isPrintableAscii '\x22' = true := by decide
  simp only [Text.escaped, List.cons_append, List.forall_mem_cons, List.forall_mem_append, List.mem_flatMap]
  refine ⟨hquote, ?_, hquote, List.forall_mem_nil _⟩
  rintro d ⟨c, -, hd⟩
  obtain ⟨-, -, -, hprintable⟩ := isWritten_escapeChar c
  exact hprintable d hd

end Json

end MeshOperator
