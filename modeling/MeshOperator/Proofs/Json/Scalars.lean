import MeshOperator.Proofs.Json.Spelling
import MeshOperator.Proofs.Yaml.Filling

/-!
# What the scalars of JSON mean

The node of an atom is tagged by its spelling, and its text is read again under that tag: an integer gives the
integer, a number with a point the nearest double-precision number, and a number that is spelled as a text
the text.

* `Number.integerValue_text`, `Number.doubleValue_text`: written numbers are read.
* `Atom.means`: what the node of an atom is read as.
-/

namespace MeshOperator

/-! ### Doubles of decimals -/

theorem Double.negate_ofDecimal (digits : Nat) (exponent : Int) :
    (ofDecimal false digits exponent).negate = ofDecimal true digits exponent := by
  unfold ofDecimal ofRatio pack zero
  dsimp only
  split_ifs <;> rfl

theorem Double.ofDecimal_ne_nan (negative : Bool) (digits : Nat) (exponent : Int) :
    ofDecimal negative digits exponent ≠ .nan := by
  have hpack (m : Nat) (e : Int) : pack negative m e ≠ .nan := by
    unfold pack
    dsimp only
    split_ifs <;> exact Double.noConfusion
  have hratio (num den : Nat) : ofRatio negative num den ≠ .nan := by
    unfold ofRatio
    split
    · exact Double.noConfusion
    · exact hpack _ _
  unfold ofDecimal
  split_ifs
  · exact Double.noConfusion
  · exact Double.noConfusion
  · exact Double.noConfusion
  · exact hratio _ _
  · exact hratio _ _

namespace Json

open Yaml

/-! ### Written digits -/

namespace Digits

variable {ds : List (Fin 10)} {r : List Char}

theorem map_toNat (ds : List (Fin 10)) : (text ds).map (fun d => d.toNat - 0x30) = ds.map Fin.val := by
  have hall : ∀ d : Fin 10, (hexDigit d.val).toNat - 0x30 = d.val := by decide
  simp [text, hall, Function.comp_def]

/-- the digits of base ten are read one by one -/
theorem digits?_text {after : Bool} (h : after = true ∨ ds ≠ []) :
    Literal.digits? 10 after (text ds) = some (ds.map Fin.val, []) := by
  have hall : ∀ d : Fin 10, hexDigit d.val ≠ '_' ∧ digitOfBase? 10 (hexDigit d.val) = some d.val := by
    decide
  induction ds generalizing after with
  | nil =>
    obtain rfl := h.resolve_right (by simp)
    rfl
  | cons d ds ih =>
    have hrest := ih (.inl rfl)
    simp only [text, List.map_cons] at hrest ⊢
    rw [Literal.digits?, if_neg (hall d).1, (hall d).2]
    simp [hrest]

end Digits

/-- characters of numbers are taken for themselves -/
theorem normalize_eq {s : List Char} (hs : ∀ ch ∈ s, ch ∈ numberMarks) : Literal.normalize s = s := by
  have hblank : ∀ ch ∈ numberMarks, isNumberBlank ch = false := forall_mem_of_all (by decide)
  have hself : ∀ ch ∈ numberMarks, ∀ v ∈ digitValue? ch, hexDigit v = ch := forall_mem_of_all (by decide)
  have hstrip : ∀ t : List Char, (∀ ch ∈ t, ch ∈ numberMarks) → t.dropWhile isNumberBlank = t := by
    intro t ht
    cases t with
    | nil => rfl
    | cons c t => simp [hblank c (ht c (List.mem_cons_self ..))]
  rw [Literal.normalize, Text.stripBy, hstrip s hs,
    hstrip s.reverse fun ch hch => hs ch (List.mem_reverse.1 hch), List.reverse_reverse]
  refine (List.map_congr_left fun ch hch => ?_).trans (List.map_id _)
  split
  · rename_i v hv
    exact hself ch (hs ch hch) v hv
  · rfl

theorem ungrouped_eq {s : List Char} (hs : ∀ ch ∈ s, ch ∈ numberMarks) : ungrouped s = s := by
  have hgroup : ∀ ch ∈ numberMarks, (decide (ch ≠ '_')) = true := forall_mem_of_all (by decide)
  exact List.filter_eq_self.2 fun ch hch => hgroup ch (hs ch hch)

theorem underscoresFit_eq {s : List Char} {previous : Char} (hprevious : previous ≠ '_')
    (hs : ∀ ch ∈ s, ch ∈ numberMarks) : Literal.underscoresFit previous s = true := by
  have hmark : ∀ ch ∈ numberMarks, ch ≠ '_' := forall_mem_of_all (by decide)
  induction s generalizing previous with
  | nil => simpa [Literal.underscoresFit] using hprevious
  | cons c s ih =>
    obtain ⟨hc, hs⟩ := List.forall_mem_cons.1 hs
    simp [Literal.underscoresFit, hmark c hc, hprevious, ih (hmark c hc) hs]

/-- of the characters of numbers only the letter of an exponent can be a capital -/
theorem smallLetters_eq {s : List Char} (hs : ∀ ch ∈ s, ch ∈ numberMarks) :
    Text.smallLetters s = s.map fun ch => if ch = 'E' then 'e' else ch := by
  have hsmall : ∀ ch ∈ numberMarks, ch.toNat ≠ 0x130 ∧ ch.toNat ≠ 0x3a3 ∧
      smallLetter ch = if ch = 'E' then 'e' else ch := forall_mem_of_all (by decide)
  have hafter (before : List Char) : Text.smallLettersAfter before s =
      s.map fun ch => if ch = 'E' then 'e' else ch := by
    induction s generalizing before with
    | nil => rfl
    | cons c s ih =>
      obtain ⟨hc, hs⟩ := List.forall_mem_cons.1 hs
      obtain ⟨hdotted, hsigma, hletter⟩ := hsmall c hc
      rw [Text.smallLettersAfter, if_neg hdotted, if_neg hsigma, hletter, ih hs]
      rfl
  exact hafter []

/-! ### Written numbers -/

theorem sign_cons (d : Fin 10) (t : List Char) :
    Literal.sign (hexDigit d.val :: t) = (false, hexDigit d.val :: t) := by
  have hsign : ∀ d : Fin 10, hexDigit d.val ≠ '-' ∧ hexDigit d.val ≠ '+' := by decide
  unfold Literal.sign
  split
  · rename_i heq
    exact absurd (List.cons.inj heq).1 (hsign d).1
  · rename_i heq
    exact absurd (List.cons.inj heq).1 (hsign d).2
  · rfl

theorem Digits.sign_text (ds : Digits) : Literal.sign (text ds.1) = (false, text ds.1) := by
  obtain ⟨d, t, ht⟩ := List.exists_cons_of_ne_nil ds.2
  rw [ht, text, List.map_cons]
  exact sign_cons d _

theorem Exponent.exponent?_text (e : Exponent) : Literal.exponent? e.text = some e.value := by
  have hplain := e.digits.sign_text
  have hne := e.digits.isEmpty_text
  have hletter : (if e.capital then 'E' else 'e') = 'e' ∨ (if e.capital then 'E' else 'e') = 'E' := by
    cases e.capital <;> simp
  unfold Exponent.text Literal.exponent? Exponent.value
  obtain ⟨capital, sign, digits⟩ := e
  rcases sign with _ | ⟨⟨⟩ | ⟨⟩⟩
  · simp_all [Digits.all_isDigit, Digits.map_toNat, Digits.value]
  · simp_all [Literal.sign, Digits.all_isDigit, Digits.map_toNat, Digits.value]
  · simp_all [Literal.sign, Digits.all_isDigit, Digits.map_toNat, Digits.value]

namespace Number

variable (n : Number)

theorem exponent?_exponentText :
    Literal.exponent? n.exponentText = some ((n.exponent.map Exponent.value).getD 0) := by
  unfold exponentText
  cases n.exponent with
  | none => rfl
  | some e => exact e.exponent?_text

theorem takeSign_text : takeSign n.text = .ok (n.negative, n.body) := by
  have hsign : ∀ d : Fin 10, hexDigit d.val ≠ '-' ∧ hexDigit d.val ≠ '+' := by decide
  obtain ⟨d, t, hbody⟩ := n.exists_body_eq
  unfold text
  cases n.negative with
  | true => rfl
  | false => simp [hbody, takeSign, hsign d]

theorem sign_body : Literal.sign n.body = (false, n.body) := by
  obtain ⟨d, t, hbody⟩ := n.exists_body_eq
  rw [hbody]
  exact sign_cons d t

/-- an exponent does not begin with a point -/
theorem exponentText_ne (r : List Char) : n.exponentText ≠ '.' :: r := by
  intro hr
  unfold exponentText at hr
  cases he : n.exponent with
  | none =>
    rw [he] at hr
    cases hr
  | some e =>
    obtain ⟨c, t, ht, hc⟩ := e.exists_text_eq
    rw [he, Option.map_some, Option.getD_some, ht] at hr
    cases hr
    simp at hc

/-- the decimal that stands there is read, with its exponent -/
theorem decimal?_body : Literal.decimal? n.body =
    some (Digits.value (n.whole.1 ++ n.fractionDigits),
      (n.exponent.map Exponent.value).getD 0 - n.fractionDigits.length) := by
  have hvalue (es : List (Fin 10)) : Literal.value 10
      ((Digits.text n.whole.1 ++ Digits.text es).map fun d => d.toNat - 0x30) =
      Digits.value (n.whole.1 ++ es) := by
    rw [List.map_append, Digits.map_toNat, Digits.map_toNat, Digits.value, List.map_append]
  have hlength (es : List (Fin 10)) : (Digits.text es).length = es.length := List.length_map ..
  unfold Literal.decimal?
  cases hfraction : n.fraction with
  | none =>
    obtain ⟨htake, hdrop⟩ :=
      @Digits.takeWhile_text n.whole.1 _ isDigit (by decide) (n.head?_exponentText (by decide))
    rw [n.body_eq_of_no_fraction hfraction, htake, hdrop, fractionDigits, hfraction]
    dsimp only
    split
    · rename_i heq
      exact absurd heq (n.exponentText_ne _)
    · simp only [n.whole.isEmpty_text, n.exponent?_exponentText, Bool.false_and, Bool.false_eq_true, if_false,
        Option.map_some, Option.map_none, Option.getD_none, ← hvalue]
      rfl
  | some ds =>
    have hpoint : ((('.' :: (Digits.text ds.1 ++ n.exponentText)).head?).map isDigit).getD false = false :=
      rfl
    obtain ⟨htake, hdrop⟩ := @Digits.takeWhile_text n.whole.1 _ isDigit (by decide) hpoint
    obtain ⟨htake', hdrop'⟩ := @Digits.takeWhile_text ds.1 _ isDigit (by decide) (n.head?_exponentText (by decide))
    rw [n.body_eq_of_fraction hfraction, htake, hdrop, fractionDigits, hfraction]
    simp only [htake', hdrop', n.whole.isEmpty_text, n.exponent?_exponentText, hvalue, hlength, Bool.false_and,
      Bool.false_eq_true, if_false, Option.map_some, Option.getD_some]

/-- what stands there behind the sign is read as a number -/
theorem readDouble_body : readDouble n.body =
    .ok (.ofDecimal false (Digits.value (n.whole.1 ++ n.fractionDigits))
      ((n.exponent.map Exponent.value).getD 0 - n.fractionDigits.length)) := by
  have hlower : ∀ ch ∈ numberMarks, Literal.lowerAscii ch ∈ numberMarks := forall_mem_of_all (by decide)
  have hmarks := n.mem_numberMarks_body
  have hfilter : n.body.filter (· ≠ '_') = n.body := ungrouped_eq hmarks
  have hlowered : ∀ ch ∈ n.body.map Literal.lowerAscii, ch ∈ numberMarks := by
    intro ch hch
    obtain ⟨c, hc, rfl⟩ := List.mem_map.1 hch
    exact hlower c (hmarks c hc)
  have hname (w : String) (hw : w.toList.all numberMarks.contains = false) :
      (decide (String.ofList (n.body.map Literal.lowerAscii) = w)) = false := by
    rw [decide_eq_false_iff_not]
    rintro rfl
    rw [String.toList_ofList] at hw
    exact ne_of_mem_numberMarks hlowered hw rfl
  unfold readDouble
  simp only [normalize_eq hmarks, hfilter, n.sign_body, underscoresFit_eq (by decide : 'x' ≠ '_') hmarks,
    hname "inf" (by decide), hname "infinity" (by decide), Bool.not_true, Bool.or_false, Bool.false_eq_true,
    if_false, n.decimal?_body, if_neg (of_decide_eq_false (hname "nan" (by decide)))]

/-! ### Integers -/

/-- what stands there for an integer -/
theorem body_of_integer (h : n.isInteger = true) : n.body = Digits.text n.whole.1 := by
  obtain ⟨t, hbody, ⟨rfl, -⟩ | ⟨hfalse, -⟩⟩ := n.exists_body_eq_append
  · rw [hbody, List.append_nil]
  · rw [h] at hfalse
    cases hfalse

/-- an integer is read as it is -/
theorem integerValue_text (hinteger : n.isInteger = true) (hlength : n.whole.1.length ≤ maxDigits) :
    integerValue n.text =
      .ok (if n.negative then -(Digits.value n.whole.1 : Int) else Digits.value n.whole.1) := by
  have hbase : Literal.dropBase 10 (Digits.text n.whole.1) = Digits.text n.whole.1 := by
    unfold Literal.dropBase
    split <;> simp_all [Literal.baseLetters]
  have hread : integerOf 10 (Digits.text n.whole.1) = .ok (Digits.value n.whole.1 : Int) := by
    unfold integerOf readInteger
    rw [normalize_eq Digits.mem_numberMarks, n.whole.sign_text]
    simp only [hbase, Digits.digits?_text (.inr n.whole.2), List.length_map, true_and,
      if_neg (Nat.not_lt.2 hlength), ne_eq, not_true_eq_false, if_false, Bool.false_eq_true]
    rfl
  have hcolon : (Digits.text n.whole.1).contains ':' = false := by
    rw [Bool.eq_false_iff]
    exact fun h => Digits.notMem_text (by decide) (List.contains_iff_mem.1 h)
  unfold integerValue
  rw [ungrouped_eq n.mem_numberMarks, n.takeSign_text, n.body_of_integer hinteger]
  rcases n.whole_cases with h | ⟨c, t, h, hc⟩
  · rw [h]
    rfl
  · rw [h] at hcolon hread ⊢
    simp only [ok_bind]
    split
    case h_1 heq => cases heq
    case h_2 | h_3 | h_4 | h_5 =>
      rename_i heq
      exact absurd (List.cons.inj heq).1 hc
    case h_6 =>
      simp only [hcolon, Bool.false_eq_true, if_false, hread]
      rfl

/-! ### Numbers with a point -/

/-- the number with a small letter for its exponent -/
def small (n : Number) : Number := { n with exponent := n.exponent.map fun e => { e with capital := false } }

theorem value_small : n.small.exponent.map Exponent.value = n.exponent.map Exponent.value := by
  unfold small
  cases n.exponent <;> rfl

theorem smallLetters_text : Text.smallLetters n.text = n.small.text := by
  have hdigits (ds : List (Fin 10)) :
      (Digits.text ds).map (fun ch => if ch = 'E' then 'e' else ch) = Digits.text ds := by
    have hall : ∀ d : Fin 10, hexDigit d.val ≠ 'E' := by decide
    simp [Digits.text, hall]
  have hexponent : n.exponentText.map (fun ch => if ch = 'E' then 'e' else ch) = n.small.exponentText := by
    unfold exponentText small
    cases n.exponent with
    | none => rfl
    | some e =>
      obtain ⟨capital, sign, digits⟩ := e
      rcases sign with _ | ⟨⟨⟩ | ⟨⟩⟩ <;> cases capital <;> simp [Exponent.text, hdigits]
  have hbody : n.body.map (fun ch => if ch = 'E' then 'e' else ch) = n.small.body := by
    cases hfraction : n.fraction with
    | none =>
      rw [n.body_eq_of_no_fraction hfraction, n.small.body_eq_of_no_fraction hfraction, List.map_append,
        hdigits, hexponent]
      rfl
    | some ds =>
      rw [n.body_eq_of_fraction hfraction, n.small.body_eq_of_fraction hfraction]
      simp only [List.map_append, List.map_cons, hdigits, hexponent]
      rfl
  rw [smallLetters_eq n.mem_numberMarks]
  unfold text
  rw [← hbody]
  cases hnegative : n.negative <;> simp [small, hnegative]

theorem isNanName_text : isNanName n.text = false := by
  unfold isNanName
  rw [ungrouped_eq n.mem_numberMarks, n.smallLetters_text, n.small.takeSign_text]
  exact decide_eq_false (ne_of_mem_numberMarks n.small.mem_numberMarks_body (by decide))

/-- a number with a point is read as it is -/
theorem doubleValue_text : doubleValue n.text =
    .ok (.ofDecimal n.negative (Digits.value (n.whole.1 ++ n.fractionDigits))
      ((n.exponent.map Exponent.value).getD 0 - n.fractionDigits.length)) := by
  have hcolon : n.small.body.contains ':' = false := by
    rw [Bool.eq_false_iff]
    exact fun h => absurd (n.small.mem_numberMarks_body _ (List.contains_iff_mem.1 h)) (by decide)
  have hname : (decide (n.small.body = ['.', 'i', 'n', 'f'])) = false :=
    decide_eq_false (ne_of_mem_numberMarks n.small.mem_numberMarks_body (by decide))
  unfold doubleValue
  rw [ungrouped_eq n.mem_numberMarks, n.smallLetters_text, n.small.takeSign_text]
  simp only [ok_bind, n.isNanName_text, hcolon, n.small.readDouble_body, if_neg (of_decide_eq_false hname),
    Bool.false_eq_true, if_false, n.value_small]
  change (Except.ok (if n.negative then _ else _) : Except Fault Double) = _
  cases n.negative with
  | true => exact congrArg Except.ok (Double.negate_ofDecimal ..)
  | false => rfl

end Number

/-! ### Atoms -/

/-- **Scalars.**  The node of an atom that is readable is read as what the atom is taken for. -/
theorem Atom.means {a : Atom} (ha : a.isReadable = true) :
    ∃ s, a.node = ⟨a.node.tag, .scalar (String.ofList s)⟩ ∧ a.node.tag.Means s a.reading := by
  cases a with
  | null => exact ⟨_, rfl, Tag.means_null⟩
  | bool v =>
    cases v with
    | true => exact ⟨_, rfl, Tag.means_bool rfl⟩
    | false => exact ⟨_, rfl, Tag.means_bool rfl⟩
  | number n =>
    refine ⟨n.text, rfl, ?_⟩
    change (Tag.ofSpelling (String.ofList n.text)).Means n.text n.reading
    rw [n.ofSpelling_text, Number.reading]
    cases n.isKept with
    | false => exact Tag.means_text
    | true =>
      simp only [if_true]
      rw [Number.scalar]
      cases hinteger : n.isInteger with
      | true =>
        have hlength : n.whole.1.length ≤ maxDigits := by
          simpa [Atom.isReadable, Number.isReadable, hinteger] using ha
        exact Tag.means_int (n.integerValue_text hinteger hlength)
      | false => exact Tag.means_float n.doubleValue_text
  | string ps => exact ⟨_, rfl, Tag.means_text⟩

end Json

end MeshOperator
