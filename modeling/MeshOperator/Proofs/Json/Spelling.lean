import MeshOperator.Proofs.Json.Nodes
import MeshOperator.Proofs.Text.Cutting

/-!
# How numbers are spelled

The spelling of a number gives the tag of its node. To YAML an integer is spelled as in JSON, while a number
with an exponent needs a point and a sign in the exponent; without them it is spelled like any other text.

* `Number.isIntSpelling_text`, `Number.isFloatSpelling_text`: which numbers are spelled as numbers.
* `Number.ofSpelling_text`: the tag of the node of a number.
-/

namespace MeshOperator

namespace Yaml

/-! ### Tags by spelling -/

namespace Tag

variable {s : List Char}

theorem ofSpelling_eq_int (hend : s.getLast? ≠ some '\n') (hbool : isBoolSpelling s = false)
    (hfloat : isFloatSpelling s = false) (hint : isIntSpelling s = true) :
    Tag.ofSpelling (String.ofList s) = .int := by
  simp [ofSpelling, hend, hbool, hfloat, hint]

theorem ofSpelling_eq_float (hend : s.getLast? ≠ some '\n') (hbool : isBoolSpelling s = false)
    (hfloat : isFloatSpelling s = true) : Tag.ofSpelling (String.ofList s) = .float := by
  simp [ofSpelling, hend, hbool, hfloat]

theorem ofSpelling_eq_text (hend : s.getLast? ≠ some '\n') (hbool : isBoolSpelling s = false)
    (hfloat : isFloatSpelling s = false) (hint : isIntSpelling s = false) (hnull : isNullSpelling s = false)
    (htime : isTimestampSpelling s = false) (hempty : s ≠ [])
    (hmarks : ∀ m ∈ [['<', '<'], ['='], ['!'], ['&'], ['*']], s ≠ m) :
    Tag.ofSpelling (String.ofList s) = .text := by
  simp only [List.forall_mem_cons] at hmarks
  simp [ofSpelling, hend, hbool, hfloat, hint, hnull, htime, hempty, hmarks]

end Tag

/-- digits that are taken off are all that stands before the rest -/
theorem takeDigits?_eq_some {low high : Nat} {s ds r : List Char} (h : takeDigits? low high s = some (ds, r)) :
    low ≤ ds.length ∧ (∀ ch ∈ ds, isDigit ch = true) ∧ s = ds ++ r := by
  unfold takeDigits? at h
  dsimp only at h
  split at h
  · rename_i hlow
    cases h
    refine ⟨hlow, fun ch hch => List.mem_takeWhile_imp hch, ?_⟩
    have hprefix : (s.take high).takeWhile isDigit <+: s :=
      (List.takeWhile_prefix _).trans (List.take_prefix high s)
    exact (List.prefix_iff_eq_append.1 hprefix).symm
  · cases h

end Yaml

namespace Json

open Yaml

/-! ### Written digits -/

namespace Digits

variable {ds : List (Fin 10)} {r : List Char}

theorem all_isDigit (ds : List (Fin 10)) : (text ds).all isDigit = true := by
  have hall : ∀ d : Fin 10, isDigit (hexDigit d.val) = true := by decide
  rw [List.all_eq_true]
  intro ch hch
  obtain ⟨d, -, rfl⟩ := List.mem_map.1 hch
  exact hall d

theorem text_injective : Function.Injective text := by
  have hdigit : ∀ d e : Fin 10, hexDigit d.val = hexDigit e.val → d = e := by decide
  exact fun ds es h => (List.map_inj_right hdigit).1 h

/-- digits are taken off a text up to what is no digit -/
theorem takeWhile_text {p : Char → Bool} (hp : ∀ d : Fin 10, p (hexDigit d.val) = true)
    (hr : (r.head?.map p).getD false = false) :
    (text ds ++ r).takeWhile p = text ds ∧ (text ds ++ r).dropWhile p = r := by
  have hdigits : ∀ ch ∈ text ds, p ch = true := by
    intro ch hch
    obtain ⟨d, -, rfl⟩ := List.mem_map.1 hch
    exact hp d
  rw [List.takeWhile_append_of_pos hdigits, List.dropWhile_append_of_pos hdigits]
  cases r with
  | nil => simp
  | cons c r =>
    have hc : p c = false := hr
    simp [hc]

theorem notMem_text {ds : List (Fin 10)} {c : Char} (hc : isDigit c = false) : c ∉ text ds := by
  intro hmem
  have hdigit := List.all_eq_true.1 (all_isDigit ds) c hmem
  rw [hc] at hdigit
  cases hdigit

theorem isEmpty_text (ds : Digits) : (text ds.1).isEmpty = false := by
  obtain ⟨d, t, ht⟩ := List.exists_cons_of_ne_nil ds.2
  rw [ht]
  rfl

theorem isDigits_text (ds : Digits) : isDigits (text ds.1) = true := by
  obtain ⟨d, t, ht⟩ := List.exists_cons_of_ne_nil ds.2
  have hall := List.all_eq_true.1 (all_isDigit ds.1)
  have hhead := hall (hexDigit d.val) (by rw [ht]; exact List.mem_cons_self ..)
  rw [isDigits, Bool.and_eq_true, List.all_eq_true]
  refine ⟨?_, fun c hc => by rw [hall c hc]; rfl⟩
  rw [ht]
  exact hhead

end Digits

/-! ### Exponents -/

/-- an exponent begins with a letter -/
theorem Exponent.exists_text_eq (e : Exponent) : ∃ c t, e.text = c :: t ∧ (c = 'e' ∨ c = 'E') := by
  refine ⟨_, _, rfl, ?_⟩
  cases e.capital <;> simp

/-- YAML knows an exponent by its sign -/
theorem Exponent.isExponent_text (e : Exponent) : isExponent e.text = e.sign.isSome := by
  obtain ⟨capital, sign, digits⟩ := e
  have hne := digits.isEmpty_text
  rcases sign with _ | ⟨⟨⟩ | ⟨⟩⟩
  · have hsign : ∀ d : Fin 10, hexDigit d.val ≠ '-' ∧ hexDigit d.val ≠ '+' := by decide
    obtain ⟨d, t, ht⟩ := List.exists_cons_of_ne_nil digits.2
    simp [Exponent.text, ht, Digits.text, isExponent, hsign d]
  · cases capital <;> simp_all [Exponent.text, isExponent, Digits.all_isDigit]
  · cases capital <;> simp_all [Exponent.text, isExponent, Digits.all_isDigit]

/-! ### Written numbers -/

/-- a text in the characters of numbers is no text with another character -/
theorem ne_of_mem_numberMarks {s w : List Char} (hs : ∀ ch ∈ s, ch ∈ numberMarks)
    (hw : w.all numberMarks.contains = false) : s ≠ w := by
  rintro rfl
  have hall : s.all numberMarks.contains = true :=
    List.all_eq_true.2 fun ch hch => List.contains_iff_mem.2 (hs ch hch)
  cases hall.symm.trans hw

namespace Number

variable (n : Number)

/-- the exponent with its letter, if there is one -/
def exponentText : List Char := (n.exponent.map Exponent.text).getD []

/-- what comes behind the digits is no digit -/
theorem head?_exponentText {p : Char → Bool} (hp : p 'e' = false ∧ p 'E' = false) :
    (n.exponentText.head?.map p).getD false = false := by
  unfold exponentText
  cases n.exponent with
  | none => rfl
  | some e =>
    obtain ⟨c, t, ht, hc⟩ := e.exists_text_eq
    rw [Option.map_some, Option.getD_some, ht]
    rcases hc with rfl | rfl
    · exact hp.1
    · exact hp.2

theorem body_eq_of_fraction {ds : Digits} (h : n.fraction = some ds) :
    n.body = Digits.text n.whole.1 ++ '.' :: (Digits.text ds.1 ++ n.exponentText) := by
  simp [body, h, exponentText]

theorem body_eq_of_no_fraction (h : n.fraction = none) :
    n.body = Digits.text n.whole.1 ++ n.exponentText := by
  simp [body, h, exponentText]

/-- behind the digits of an integer nothing stands, behind those of other numbers a point or a letter -/
theorem exists_body_eq_append : ∃ t, n.body = Digits.text n.whole.1 ++ t ∧ (t = [] ∧ n.isInteger = true ∨
    n.isInteger = false ∧ ∃ c t', t = c :: t' ∧ (c = '.' ∨ c = 'e' ∨ c = 'E')) := by
  unfold isInteger
  cases hfraction : n.fraction with
  | some ds => exact ⟨_, n.body_eq_of_fraction hfraction, .inr ⟨rfl, _, _, rfl, .inl rfl⟩⟩
  | none =>
    refine ⟨_, n.body_eq_of_no_fraction hfraction, ?_⟩
    unfold exponentText
    cases hexponent : n.exponent with
    | none => exact .inl ⟨rfl, rfl⟩
    | some e =>
      obtain ⟨c, t, ht, hc⟩ := e.exists_text_eq
      exact .inr ⟨rfl, c, t, ht, .inr hc⟩

theorem dropSign_text : dropSign n.text = n.body := by
  have hsign : ∀ d : Fin 10, hexDigit d.val ≠ '-' ∧ hexDigit d.val ≠ '+' := by decide
  obtain ⟨d, t, hbody⟩ := n.exists_body_eq
  unfold text
  cases n.negative with
  | true => rfl
  | false => simp [hbody, dropSign, hsign d]

/-- a number begins with a zero only if the whole number is nothing else -/
theorem whole_cases : n.whole.1 = [0] ∨ ∃ c t, Digits.text n.whole.1 = c :: t ∧ c ≠ '0' := by
  have hzero : ∀ d : Fin 10, d ≠ 0 → hexDigit d.val ≠ '0' := by decide
  refine n.fits.imp id fun h => ?_
  obtain ⟨d, ds, hds⟩ := List.exists_cons_of_ne_nil n.whole.2
  refine ⟨hexDigit d.val, Digits.text ds, by rw [hds]; rfl, hzero d ?_⟩
  rintro rfl
  rw [hds] at h
  exact h rfl

/-! ### Spellings of other things -/

theorem getLast?_text : n.text.getLast? ≠ some '\n' := by
  intro h
  have hmark := n.mem_numberMarks _ (List.mem_of_getLast? h)
  exact absurd hmark (by decide)

/-- a number is spelled as no name -/
theorem contains_text_eq_false {names : List String}
    (hnames : ∀ w ∈ names, w.toList.all numberMarks.contains = false) :
    names.contains (String.ofList n.text) = false := by
  rw [Bool.eq_false_iff]
  intro h
  refine ne_of_mem_numberMarks n.mem_numberMarks (hnames _ (List.contains_iff_mem.1 h)) ?_
  rw [String.toList_ofList]

theorem isBoolSpelling_text : isBoolSpelling n.text = false := n.contains_text_eq_false (by decide)

theorem isNullSpelling_text : isNullSpelling n.text = false := n.contains_text_eq_false (by decide)

/-- a hyphen within a number stands in its exponent, not behind digits as in a date -/
theorem isTimestampSpelling_text : isTimestampSpelling n.text = false := by
  have hnone : timestampParts? n.text = none := by
    unfold timestampParts?
    cases htake : takeDigits? 4 4 n.text with
    | none => rfl
    | some taken =>
      obtain ⟨year, rest⟩ := taken
      obtain ⟨hlength, hyear, htext⟩ := takeDigits?_eq_some htake
      cases rest with
      | nil => rfl
      | cons ch rest =>
        have hhyphen : '-' ≠ ch := by
          rintro rfl
          obtain ⟨t, hbody, ht⟩ := n.exists_body_eq_append
          have hdrop : (Digits.text n.whole.1 ++ t).dropWhile isDigit = t := by
            refine (Digits.takeWhile_text (by decide) ?_).2
            rcases ht with ⟨rfl, -⟩ | ⟨-, c, t', rfl, rfl | rfl | rfl⟩ <;> rfl
          unfold text at htext
          split at htext
          · -- the sign is no digit of a year
            cases year with
            | nil => cases hlength
            | cons c year =>
              have hsign : '-' = c := (List.cons.inj htext).1
              have hdigit := hyear c (.head _)
              rw [← hsign] at hdigit
              cases hdigit
          · rw [hbody] at htext
            rw [htext, List.dropWhile_append_of_pos hyear] at hdrop
            change '-' :: rest = t at hdrop
            rcases ht with ⟨rfl, -⟩ | ⟨-, c, t', rfl, rfl | rfl | rfl⟩ <;> cases hdrop
        have hexpect : expect? '-' (ch :: rest) = none := if_neg hhyphen
        change (expect? '-' (ch :: rest) >>= _) = none
        rw [hexpect]
        rfl
  rw [isTimestampSpelling, hnone]

/-! ### Spellings of numbers -/

/-- To YAML the integers of JSON are integers, and no other numbers are. -/
theorem isIntSpelling_text : isIntSpelling n.text = n.isInteger := by
  obtain ⟨t, hbody, ht⟩ := n.exists_body_eq_append
  have hcut : Text.cut ':' n.body = [n.body] :=
    Text.cut_of_notMem fun h => absurd (n.mem_numberMarks_body _ h) (by decide)
  have hdigits : isDigits n.body = n.isInteger := by
    rcases ht with ⟨rfl, hinteger⟩ | ⟨hinteger, c, t', rfl, hc⟩
    · rw [hbody, List.append_nil, n.whole.isDigits_text, hinteger]
    · have hmark : (isDigit c || c = '_') = false := by rcases hc with rfl | rfl | rfl <;> rfl
      rw [hinteger, hbody, isDigits, List.all_append, List.all_cons, hmark, Bool.false_and, Bool.and_false,
        Bool.and_false]
  unfold isIntSpelling
  rw [n.dropSign_text]
  rcases n.whole_cases with h | ⟨c, t₀, h, hc⟩
  · rw [h] at hbody
    rcases ht with ⟨rfl, hinteger⟩ | ⟨hinteger, c, t', rfl, rfl | rfl | rfl⟩ <;> rw [hbody, hinteger] <;> rfl
  · rw [h] at hbody
    rw [← hdigits]
    rw [hbody] at hcut ⊢
    dsimp only [List.cons_append] at hcut ⊢
    -- only a text that begins with a zero can be of another base
    split
    case h_1 | h_2 | h_3 | h_4 =>
      rename_i heq
      exact absurd (List.cons.inj heq).1 hc
    case h_5 =>
      rw [hcut]
      simp

/-- To YAML a number has a point, and a sign in the exponent, if it has one. -/
theorem isFloatSpelling_text : isFloatSpelling n.text = (n.fraction.isSome && n.isKept) := by
  have hpoint : isDigit '.' = false := rfl
  unfold isFloatSpelling
  rw [n.dropSign_text]
  cases hfraction : n.fraction with
  | none =>
    have hexponent : '.' ∉ n.exponentText := by
      unfold exponentText
      cases n.exponent with
      | none => simp
      | some e =>
        obtain ⟨capital, sign, digits⟩ := e
        have hdigits := @Digits.notMem_text digits.1 '.' hpoint
        rcases sign with _ | ⟨⟨⟩ | ⟨⟩⟩ <;> cases capital <;> simpa [Exponent.text] using hdigits
    have hcut : Text.cutFirst? '.' n.body = none := by
      rw [n.body_eq_of_no_fraction hfraction]
      exact Text.cutFirst?_of_notMem fun h => (List.mem_append.1 h).elim (Digits.notMem_text hpoint) hexponent
    simp only [hcut]
    rfl
  | some ds =>
    have hcut : Text.cutFirst? '.' n.body =
        some (Digits.text n.whole.1, Digits.text ds.1 ++ n.exponentText) := by
      rw [n.body_eq_of_fraction hfraction]
      exact Text.cutFirst?_append (Digits.notMem_text hpoint) _
    have hparts : Text.cut ':' (Digits.text n.whole.1) = [Digits.text n.whole.1] :=
      Text.cut_of_notMem (Digits.notMem_text rfl)
    have hdrop : (Digits.text ds.1 ++ n.exponentText).dropWhile (fun c => isDigit c || c = '_') =
        n.exponentText :=
      (Digits.takeWhile_text (by decide) (n.head?_exponentText (by decide))).2
    have hexponent : isExponent n.exponentText = n.isKept := by
      unfold exponentText isKept
      cases n.exponent with
      | none => rfl
      | some e =>
        rw [hfraction]
        exact e.isExponent_text
    simp only [hcut, n.whole.isEmpty_text, hparts, n.whole.isDigits_text, isFraction, hdrop, hexponent]
    rfl

/-- **Tags.**  The node of a number is a number to YAML if its notation is kept, and else a text. -/
theorem ofSpelling_text : Tag.ofSpelling (String.ofList n.text) =
    if n.isKept then if n.isInteger then .int else .float else .text := by
  have hend := n.getLast?_text
  have hbool := n.isBoolSpelling_text
  have hfloat := n.isFloatSpelling_text
  have hint := n.isIntSpelling_text
  cases hkept : n.isKept with
  | true =>
    cases hinteger : n.isInteger with
    | true =>
      have hfraction : n.fraction.isSome = false := by
        rw [isInteger, Bool.and_eq_true, Option.isNone_iff_eq_none] at hinteger
        rw [hinteger.1]
        rfl
      exact Tag.ofSpelling_eq_int hend hbool (by rw [hfloat, hfraction]; rfl) (by rw [hint, hinteger])
    | false =>
      have hfraction : n.fraction.isSome = true := by
        cases hf : n.fraction with
        | some ds => rfl
        | none =>
          cases he : n.exponent with
          | none => simp [isInteger, hf, he] at hinteger
          | some e => simp [isKept, hf, he] at hkept
      exact Tag.ofSpelling_eq_float hend hbool (by rw [hfloat, hfraction, hkept]; rfl)
  | false =>
    have hinteger : n.isInteger = false := by
      cases he : n.exponent with
      | none => simp [isKept, he] at hkept
      | some e => simp [isInteger, he]
    have hmarks : ∀ m ∈ [['<', '<'], ['='], ['!'], ['&'], ['*']], m.all numberMarks.contains = false := by
      decide
    have hne : n.text ≠ [] := by
      obtain ⟨d, t, hbody⟩ := n.exists_body_eq
      unfold text
      split
      · exact List.cons_ne_nil _ _
      · rw [hbody]
        exact List.cons_ne_nil _ _
    exact Tag.ofSpelling_eq_text hend hbool (by rw [hfloat, hkept, Bool.and_false]) (by rw [hint, hinteger])
      n.isNullSpelling_text n.isTimestampSpelling_text hne fun m hm =>
        ne_of_mem_numberMarks n.mem_numberMarks (hmarks m hm)

end Number

end Json

end MeshOperator
