import MeshOperator.Number.Layout
import MeshOperator.Proofs.Json.Spelling
import MeshOperator.Proofs.Number.Shortest

/-!
# Written numbers

What is written for a number is a number of JSON, and denotes it. The digits of a natural stand for it and have
no zero in front. Those of a number are the fewest that are rounded to it, and the point stands where their
decimal has it, with or without a power of ten.

* `exists_digits`: the digits of a natural.
* `exists_integer`, `exists_double`: the written forms of integers and of finite numbers.
-/

namespace MeshOperator.Json

/-! ### Digits -/

namespace Digits

variable {ds : List (Fin 10)}

theorem value_append_single (ds : List (Fin 10)) (d : Fin 10) : value (ds ++ [d]) = value ds * 10 + d := by
  simp [value, Literal.value]

theorem value_append_zeros (ds : List (Fin 10)) (k : ℕ) :
    value (ds ++ List.replicate k 0) = value ds * 10 ^ k := by
  induction k with
  | zero => simp
  | succ k ih =>
    rw [List.replicate_succ', ← List.append_assoc, value_append_single, ih, pow_succ]
    simp [Nat.mul_assoc]

theorem value_zeros_append (k : ℕ) (ds : List (Fin 10)) : value (List.replicate k 0 ++ ds) = value ds := by
  have hzeros : value (List.replicate k 0) = 0 := by simpa [value, Literal.value] using value_append_zeros [] k
  simp only [value, Literal.value, List.map_append, List.foldl_append] at hzeros ⊢
  rw [hzeros]

@[simp] theorem text_append (ds es : List (Fin 10)) : text (ds ++ es) = text ds ++ text es := List.map_append

@[simp] theorem text_replicate (k : ℕ) : text (List.replicate k 0) = List.replicate k '0' := List.map_replicate

@[simp] theorem length_text (ds : List (Fin 10)) : (text ds).length = ds.length := List.length_map _

theorem text_take (k : ℕ) (ds : List (Fin 10)) : text (ds.take k) = (text ds).take k := List.map_take

theorem text_drop (k : ℕ) (ds : List (Fin 10)) : text (ds.drop k) = (text ds).drop k := List.map_drop

end Digits

/-- The digits of a natural: they stand for it, and there is no zero in front of others. -/
structure AreDigits (n : ℕ) (ds : List (Fin 10)) : Prop where
  text : Digits.text ds = decimalText n
  value : Digits.value ds = n
  ne_nil : ds ≠ []
  head : 0 < n → ds.head? ≠ some 0

theorem exists_digits (n : ℕ) : ∃ ds, AreDigits n ds := by
  have hdigit : ∀ d : Fin 10, hexDigit d.val = Nat.digitChar d.val := by decide
  induction n using Nat.strong_induction_on with
  | _ n ih =>
    rcases lt_or_ge n 10 with hlt | hge
    · refine ⟨[⟨n, hlt⟩], ?_, ?_, List.cons_ne_nil _ _, fun hn => ?_⟩
      · rw [decimalText, Nat.toDigits_of_lt_base hlt, ← hdigit ⟨n, hlt⟩]
        rfl
      · exact Nat.zero_add n
      · simpa [Fin.ext_iff] using hn.ne'
    · obtain ⟨ds, htext, hvalue, hne, hhead⟩ := ih (n / 10) (by omega)
      refine ⟨ds ++ [⟨n % 10, Nat.mod_lt _ (by decide)⟩], ?_, ?_, by simp, fun _ => ?_⟩
      · rw [Digits.text_append, htext, decimalText, decimalText, Nat.toDigits_of_base_le (by decide) hge,
          ← hdigit ⟨n % 10, Nat.mod_lt _ (by decide)⟩]
        rfl
      · rw [Digits.value_append_single, hvalue]
        exact Nat.div_add_mod' n 10
      · rw [List.head?_append_of_ne_nil _ hne]
        exact hhead (by omega)

/-! ### Integers -/

theorem AreDigits.fits {n : ℕ} {ds : List (Fin 10)} (h : AreDigits n ds) : ds = [0] ∨ ds.head? ≠ some 0 := by
  rcases Nat.eq_zero_or_pos n with rfl | hn
  · left
    have htext : Digits.text ds = Digits.text [0] := h.text
    exact Digits.text_injective htext
  · exact .inr (h.head hn)

/-- the written form of an integer denotes it -/
theorem exists_integer (i : ℤ) : ∃ n : Number, n.text = integerText i ∧ n.scalar = .int i := by
  obtain ⟨ds, hds⟩ := exists_digits i.natAbs
  refine ⟨⟨decide (i < 0), ⟨ds, hds.ne_nil⟩, hds.fits, none, none⟩, ?_, ?_⟩
  · simp [Number.text, Number.body, integerText, hds.text]
  · have hvalue := hds.value
    simp only [Number.scalar, Number.isInteger, Option.isNone_none, Bool.and_true, if_true, Scalar.int.injEq,
      hvalue]
    split_ifs with hi <;> simp at hi <;> omega

/-! ### Finite numbers -/

open NumberLayout Double

/-- the exponent with which a power of ten is written -/
theorem exists_exponent (i : ℤ) : ∃ e : Exponent, e.text = NumberLayout.powerText i ∧ e.value = i := by
  obtain ⟨ds, hds⟩ := exists_digits i.natAbs
  let padded : List (Fin 10) := List.replicate (2 - ds.length) 0 ++ ds
  have hpadded : Digits.text padded = paddedText 2 i.natAbs := by
    rw [Digits.text_append, Digits.text_replicate, paddedText, ← hds.text, Digits.length_text]
  have hvalue : Digits.value padded = i.natAbs := by rw [Digits.value_zeros_append, hds.value]
  refine ⟨⟨false, some (if i < 0 then .minus else .plus), ⟨padded, by simp [padded, hds.ne_nil]⟩⟩, ?_, ?_⟩
  · by_cases hi : i < 0 <;> simp [Exponent.text, NumberLayout.powerText, hi, hpadded]
  · unfold Exponent.value
    dsimp only
    rw [hvalue]
    split_ifs with hi hsign hsign <;> first | omega | exact absurd hsign (by decide)

section Doubles

variable {m : ℕ} {e : ℤ} {ds : List (Fin 10)} {negative : Bool}

/-- a number whose digits and exponent make the shortest decimal denotes the number that this is rounded to -/
theorem scalar_eq (hfits : Fits m e) (hm : 0 < m) {n : Number} (hinteger : n.isInteger = false)
    (hvalue : (Digits.value (n.whole.1 ++ n.fractionDigits) : ℚ) *
        10 ^ ((n.exponent.map Exponent.value).getD 0 - n.fractionDigits.length) = (Decimal.shortest m e).value) :
    n.scalar = .double (.finite n.negative m e) := by
  have hcatches := Decimal.catches_shortest hfits hm
  rw [← hvalue] at hcatches
  rw [Number.scalar, hinteger, if_neg Bool.false_ne_true, ofDecimal_of_catches n.negative hfits hm hcatches]

/-- so do digits on both sides of a point -/
theorem exists_pointed (hfits : Fits m e) (hm : 0 < m) (negative : Bool) {whole fraction : List (Fin 10)}
    (hwhole : whole ≠ []) (hhead : whole = [0] ∨ whole.head? ≠ some 0) (hfraction : fraction ≠ [])
    (hvalue : (Digits.value (whole ++ fraction) : ℚ) * 10 ^ (-(fraction.length : ℤ)) =
      (Decimal.shortest m e).value) :
    ∃ n : Number, n.negative = negative ∧ n.body = Digits.text whole ++ '.' :: Digits.text fraction ∧
      n.scalar = .double (.finite negative m e) := by
  let n : Number := ⟨negative, ⟨whole, hwhole⟩, hhead, some ⟨fraction, hfraction⟩, none⟩
  refine ⟨n, rfl, by simp [n, Number.body], scalar_eq hfits hm rfl ?_⟩
  rw [← hvalue]
  simp [n, Number.fractionDigits]

variable (hfits : Fits m e) (hm : 0 < m) (hds : AreDigits (Decimal.shortest m e).digits ds)
include hfits hm hds

theorem head_ne : ds.head? ≠ some 0 := by
  refine hds.head (Nat.pos_of_ne_zero fun hzero => ?_)
  have hpos := (Decimal.catches_shortest hfits hm).pos hm
  simp [Decimal.value, hzero] at hpos

/-- with zeros between the point and the digits -/
theorem exists_below (negative : Bool) {k : ℕ} (hk : ds.length + (Decimal.shortest m e).exponent = -k) :
    ∃ n : Number, n.negative = negative ∧ n.body = '0' :: '.' :: List.replicate k '0' ++ Digits.text ds ∧
      n.scalar = .double (.finite negative m e) := by
  have hvalue : Digits.value ([0] ++ (List.replicate k 0 ++ ds)) = (Decimal.shortest m e).digits := by
    rw [← List.replicate_one, Digits.value_zeros_append, Digits.value_zeros_append, hds.value]
  have hplaces : -((List.replicate k 0 ++ ds).length : ℤ) = (Decimal.shortest m e).exponent := by
    rw [List.length_append, List.length_replicate]
    omega
  have hfraction : List.replicate k 0 ++ ds ≠ [] := by simp [hds.ne_nil]
  obtain ⟨n, hnegative, hbody, hscalar⟩ := exists_pointed hfits hm negative (List.cons_ne_nil 0 []) (.inl rfl)
    hfraction (by rw [hvalue, hplaces, Decimal.value])
  refine ⟨n, hnegative, ?_, hscalar⟩
  rw [hbody]
  simp [Digits.text, hexDigit]

/-- with zeros between the digits and the point -/
theorem exists_above (negative : Bool) {k : ℕ} (hk : (Decimal.shortest m e).exponent = k) :
    ∃ n : Number, n.negative = negative ∧ n.body = Digits.text ds ++ List.replicate k '0' ++ ['.', '0'] ∧
      n.scalar = .double (.finite negative m e) := by
  have hten : (10 : ℚ) ≠ 0 := by norm_num
  have hvalue : Digits.value (ds ++ List.replicate k 0 ++ [0]) = (Decimal.shortest m e).digits * 10 ^ (k + 1) := by
    rw [← List.replicate_one, List.append_assoc, ← List.replicate_add, Digits.value_append_zeros, hds.value]
  have hdecimal : (((Decimal.shortest m e).digits * 10 ^ (k + 1) : ℕ) : ℚ) *
      10 ^ (-(([0] : List (Fin 10)).length : ℤ)) = (Decimal.shortest m e).value := by
    rw [Decimal.value, hk, List.length_singleton, Nat.cast_one, zpow_neg, zpow_one, zpow_natCast, Nat.cast_mul,
      Nat.cast_pow, Nat.cast_ofNat, pow_succ, mul_assoc, mul_assoc, mul_inv_cancel₀ hten, mul_one]
  have hwhole : ds ++ List.replicate k 0 ≠ [] := by simp [hds.ne_nil]
  have hhead : (ds ++ List.replicate k 0).head? ≠ some 0 := by
    rw [List.head?_append_of_ne_nil _ hds.ne_nil]
    exact head_ne hfits hm hds
  obtain ⟨n, hnegative, hbody, hscalar⟩ := exists_pointed hfits hm negative hwhole (.inr hhead)
    (List.cons_ne_nil 0 []) (by rw [hvalue, hdecimal])
  refine ⟨n, hnegative, ?_, hscalar⟩
  rw [hbody]
  simp [Digits.text, hexDigit]

/-- with the point among the digits -/
theorem exists_among (negative : Bool) {k : ℕ} (hk : ds.length + (Decimal.shortest m e).exponent = k)
    (hpos : 0 < k) (hlt : k < ds.length) :
    ∃ n : Number, n.negative = negative ∧ n.body = (Digits.text ds).take k ++ '.' :: (Digits.text ds).drop k ∧
      n.scalar = .double (.finite negative m e) := by
  have hvalue : Digits.value (ds.take k ++ ds.drop k) = (Decimal.shortest m e).digits := by
    rw [List.take_append_drop, hds.value]
  have hplaces : -((ds.drop k).length : ℤ) = (Decimal.shortest m e).exponent := by
    rw [List.length_drop]
    omega
  have hwhole : ds.take k ≠ [] := by simp [hds.ne_nil, hpos.ne']
  have hhead : (ds.take k).head? ≠ some 0 := by
    rw [List.head?_take, if_neg hpos.ne']
    exact head_ne hfits hm hds
  have hfraction : ds.drop k ≠ [] := by simp [hlt]
  obtain ⟨n, hnegative, hbody, hscalar⟩ := exists_pointed hfits hm negative hwhole (.inr hhead) hfraction
    (by rw [hvalue, hplaces, Decimal.value])
  refine ⟨n, hnegative, ?_, hscalar⟩
  rw [hbody, Digits.text_take, Digits.text_drop]

/-- with the point, if it is not far from the digits -/
theorem exists_positional (negative : Bool) : ∃ n : Number, n.negative = negative ∧
    n.body = positional (Digits.text ds) (ds.length + (Decimal.shortest m e).exponent) ∧
    n.scalar = .double (.finite negative m e) := by
  unfold positional
  rw [Digits.length_text]
  dsimp only
  split_ifs with hzero hmany
  · obtain ⟨k, hk⟩ := Int.eq_ofNat_of_zero_le (Int.neg_nonneg_of_nonpos hzero)
    rw [hk, Int.toNat_natCast]
    exact exists_below hfits hm hds negative (by omega)
  · obtain ⟨k, hk⟩ := Int.eq_ofNat_of_zero_le (Int.sub_nonneg.2 hmany)
    rw [hk, Int.toNat_natCast]
    exact exists_above hfits hm hds negative (by omega)
  · obtain ⟨k, hk⟩ := Int.eq_ofNat_of_zero_le (Int.le_of_lt (Int.not_le.1 hzero))
    rw [hk, Int.toNat_natCast]
    exact exists_among hfits hm hds negative hk (by omega) (by omega)

/-- with a power of ten, if it is -/
theorem exists_scientific (negative : Bool) : ∃ n : Number, n.negative = negative ∧
    n.body = json.scientific (Digits.text ds) (ds.length + (Decimal.shortest m e).exponent) ∧
    n.scalar = .double (.finite negative m e) := by
  have hhead := head_ne hfits hm hds
  obtain ⟨x, hxtext, hxvalue⟩ := exists_exponent (ds.length + (Decimal.shortest m e).exponent - 1)
  obtain ⟨d, t, rfl⟩ := List.exists_cons_of_ne_nil hds.ne_nil
  unfold scientific
  rw [← hxtext]
  cases t with
  | nil =>
    let n : Number := ⟨negative, ⟨[d], by simp⟩, .inr hhead, none, some x⟩
    refine ⟨n, rfl, by simp [n, Number.body, Digits.text, json], scalar_eq hfits hm rfl ?_⟩
    change (Digits.value [d] : ℚ) * 10 ^ (x.value - ((0 : ℕ) : ℤ)) = _
    rw [hds.value, hxvalue, Decimal.value]
    congr 2
    simp
  | cons c t =>
    let n : Number := ⟨negative, ⟨[d], by simp⟩, .inr hhead, some ⟨c :: t, by simp⟩, some x⟩
    refine ⟨n, rfl, by simp [n, Number.body, Digits.text], scalar_eq hfits hm rfl ?_⟩
    change (Digits.value (d :: c :: t) : ℚ) * 10 ^ (x.value - ((c :: t).length : ℤ)) = _
    rw [hds.value, hxvalue, Decimal.value]
    congr 2
    simp
    omega

end Doubles

/-- the written form of a finite number denotes it -/
theorem exists_double {m : ℕ} {e : ℤ} (hfits : Fits m e) (negative : Bool) :
    ∃ n : Number, n.text = json.text (.finite negative m e) ∧ n.scalar = .double (.finite negative m e) := by
  obtain ⟨n, hnegative, hbody, hscalar⟩ : ∃ n : Number, n.negative = negative ∧ n.body = json.magnitude m e ∧
      n.scalar = .double (.finite negative m e) := by
    unfold magnitude
    split_ifs with hm
    · subst hm
      obtain rfl : e = minExponent := hfits.full.resolve_left (by decide)
      exact ⟨⟨negative, ⟨[0], by simp⟩, .inl rfl, some ⟨[0], by simp⟩, none⟩, rfl, rfl, rfl⟩
    · obtain ⟨ds, hds⟩ := exists_digits (Decimal.shortest m e).digits
      have htext : (Decimal.shortest m e).digitText = Digits.text ds := hds.text.symm
      simp only [htext, Digits.length_text]
      split_ifs
      · exact exists_positional hfits (Nat.pos_of_ne_zero hm) hds negative
      · exact exists_scientific hfits (Nat.pos_of_ne_zero hm) hds negative
  refine ⟨n, ?_, hscalar⟩
  rw [Number.text, hnegative, hbody]
  rfl

end MeshOperator.Json
