import Mathlib.Data.Nat.Cast.Order.Field
import MeshOperator.Number.Shortest
import MeshOperator.Proofs.Number.Rounding

/-!
# The fewest digits

The decimals that round to a number are those in an interval around it. One with seventeen digits is always
among them, since its grid is finer than the interval is wide, so the search for the fewest digits ends with
one of them, and without its trailing zeros it is still the same decimal.

* `Decimal.catches_of_onGrid?`, `Decimal.exists_onGrid?`: what is found on one grid, and when something is.
* `Decimal.catches_shortest`: the decimal with the fewest digits is rounded to the number.
* `Double.ofDecimal_of_catches`: and read as this number.
-/

namespace MeshOperator

namespace Decimal

open Double

/-- the rational that a decimal is -/
def value (d : Decimal) : ℚ := d.digits * 10 ^ d.exponent

section Grids

variable {m c : ℕ} {e u : ℤ}

/-! ### One grid -/

theorem ten_pos (u : ℤ) : (0 : ℚ) < 10 ^ u := zpow_pos (by norm_num) u

/-- a power is a quotient of two powers with natural exponents -/
theorem zpow_mul_pow_toNat {x : ℚ} (hx : x ≠ 0) (k : ℤ) : x ^ k * x ^ (-k).toNat = x ^ k.toNat := by
  rw [← zpow_natCast x (-k).toNat, ← zpow_natCast x k.toNat, ← zpow_add₀ hx]
  congr 1
  omega

/-- the numerator of `10 ^ u` in quarters of `2 ^ e` -/
def stepNum (e u : ℤ) : ℕ := Nat.pow 10 u.toNat * Nat.pow 2 (-(e - 2)).toNat

/-- the denominator of `10 ^ u` in quarters of `2 ^ e` -/
def stepDen (e u : ℤ) : ℕ := Nat.pow 2 (e - 2).toNat * Nat.pow 10 (-u).toNat

theorem stepNum_pos (e u : ℤ) : 0 < stepNum e u :=
  Nat.mul_pos (Nat.pow_pos (by decide)) (Nat.pow_pos (by decide))

theorem stepDen_pos (e u : ℤ) : 0 < stepDen e u :=
  Nat.mul_pos (Nat.pow_pos (by decide)) (Nat.pow_pos (by decide))

theorem stepNum_mul (e u : ℤ) : (stepNum e u : ℚ) * 2 ^ (e - 2) = 10 ^ u * stepDen e u := by
  have htwo := zpow_mul_pow_toNat (x := 2) two_ne_zero (e - 2)
  have hten := zpow_mul_pow_toNat (x := 10) (by norm_num) u
  simp only [stepNum, stepDen, Nat.pow_eq]
  push_cast
  rw [← hten, ← htwo]
  ring

/-- two scales on which the same steps are counted compare alike -/
theorem mul_le_mul_iff_of_eq {a b s t : ℚ} (hb : 0 < b) (hs : 0 < s) (h : a * s = t * b) (p c : ℚ) :
    p * b ≤ c * a ↔ p * s ≤ c * t :=
  calc p * b ≤ c * a ↔ p * b * s ≤ c * a * s := (mul_le_mul_iff_left₀ hs).symm
    _ ↔ p * s * b ≤ c * t * b := by rw [mul_right_comm, mul_assoc c, h, mul_assoc c]
    _ ↔ p * s ≤ c * t := mul_le_mul_iff_left₀ hb

/-- a multiple of the grid is not below so many quarters -/
theorem quarters_le_iff (p c : ℕ) : p * stepDen e u ≤ c * stepNum e u ↔ (p : ℚ) * 2 ^ (e - 2) ≤ c * 10 ^ u := by
  have hden : (0 : ℚ) < stepDen e u := by exact_mod_cast stepDen_pos e u
  rw [← mul_le_mul_iff_of_eq hden (zpow_pos two_pos _) (stepNum_mul e u)]
  exact_mod_cast Iff.rfl

/-- a multiple of the grid is not above so many quarters -/
theorem le_quarters_iff (p c : ℕ) : c * stepNum e u ≤ p * stepDen e u ↔ (c : ℚ) * 10 ^ u ≤ p * 2 ^ (e - 2) := by
  have hnum : (0 : ℚ) < stepNum e u := by exact_mod_cast stepNum_pos e u
  have hsteps : (stepDen e u : ℚ) * 10 ^ u = 2 ^ (e - 2) * stepNum e u := by
    rw [mul_comm, ← stepNum_mul, mul_comm]
  rw [← mul_le_mul_iff_of_eq hnum (ten_pos u) hsteps]
  exact_mod_cast Iff.rfl

/-- how many quarters below a number the decimals are rounded to it -/
def quartersBelow (m : ℕ) (e : ℤ) : ℕ := if m = Nat.pow 2 52 ∧ minExponent < e then 1 else 2

theorem margin_eq (m : ℕ) (e : ℤ) : margin m e = quartersBelow m e / 4 := by
  unfold margin quartersBelow
  split_ifs with h h' h'
  · norm_num
  · exact absurd h h'
  · exact absurd h' h
  · norm_num

/-- whether a multiple of the grid is rounded to a number -/
def fits (m : ℕ) (e u : ℤ) (c : ℕ) : Bool :=
  if m % 2 = 0 then
    (4 * m - quartersBelow m e) * stepDen e u ≤ c * stepNum e u ∧ c * stepNum e u ≤ (4 * m + 2) * stepDen e u
  else
    (4 * m - quartersBelow m e) * stepDen e u < c * stepNum e u ∧ c * stepNum e u < (4 * m + 2) * stepDen e u

theorem fits_iff (hm : 0 < m) : fits m e u c = true ↔ Catches m e (c * 10 ^ u) := by
  have hfour : (2 : ℚ) ^ e = 4 * 2 ^ (e - 2) := by rw [zpow_sub₀ two_ne_zero]; norm_num; ring
  have hle : quartersBelow m e ≤ 4 * m := by unfold quartersBelow; split <;> omega
  have hlow : (m - margin m e) * 2 ^ e = ((4 * m - quartersBelow m e : ℕ) : ℚ) * 2 ^ (e - 2) := by
    rw [margin_eq, hfour, Nat.cast_sub hle]
    push_cast
    ring
  have hhigh : ((m : ℚ) + 1 / 2) * 2 ^ e = ((4 * m + 2 : ℕ) : ℚ) * 2 ^ (e - 2) := by
    rw [hfour]
    push_cast
    ring
  unfold fits
  split_ifs with heven
  · rw [decide_eq_true_iff, quarters_le_iff, le_quarters_iff, ← hlow, ← hhigh]
    exact ⟨fun ⟨h₁, h₂⟩ => ⟨h₁, h₂, fun hodd => by omega⟩, fun h => ⟨h.low, h.high⟩⟩
  · rw [decide_eq_true_iff, ← not_le, ← not_le, le_quarters_iff, quarters_le_iff, ← hlow, ← hhigh, not_le, not_le]
    exact ⟨fun ⟨h₁, h₂⟩ => ⟨h₁.le, h₂.le, fun _ => ⟨h₁.ne', h₂.ne⟩⟩, fun h =>
      ⟨lt_of_le_of_ne h.low (h.ends (by omega)).1.symm, lt_of_le_of_ne h.high (h.ends (by omega)).2⟩⟩

/-- the last multiple of the grid that is not above a number -/
def before (m : ℕ) (e u : ℤ) : ℕ := 4 * m * stepDen e u / stepNum e u

/-- which of two neighbours is taken, by whether each is rounded to a number and by how far it is from it -/
def pick (down up : Bool) (c gapDown gapUp : ℕ) : Option ℕ :=
  match down, up with
  | true, false => some c
  | false, true => some (c + 1)
  | true, true =>
    if gapDown < gapUp then some c
    else if gapUp < gapDown then some (c + 1)
    else some (c + c % 2)
  | false, false => none

theorem onGrid?_eq (m : ℕ) (e u : ℤ) : onGrid? m e u =
    pick (fits m e u (before m e u)) (fits m e u (before m e u + 1)) (before m e u)
      (4 * m * stepDen e u - before m e u * stepNum e u)
      ((before m e u + 1) * stepNum e u - 4 * m * stepDen e u) := rfl

theorem onGrid?_cases (m : ℕ) (e u : ℤ) :
    (fits m e u (before m e u) = false ∧ fits m e u (before m e u + 1) = false ∧ onGrid? m e u = none) ∨
      ∃ c, fits m e u c = true ∧ onGrid? m e u = some c := by
  rw [onGrid?_eq]
  cases hdown : fits m e u (before m e u) <;> cases hup : fits m e u (before m e u + 1)
  · exact .inl ⟨rfl, rfl, rfl⟩
  · exact .inr ⟨_, hup, rfl⟩
  · exact .inr ⟨_, hdown, rfl⟩
  · right
    unfold pick
    dsimp only
    split_ifs
    · exact ⟨_, hdown, rfl⟩
    · exact ⟨_, hup, rfl⟩
    · refine ⟨_, ?_, rfl⟩
      rcases Nat.mod_two_eq_zero_or_one (before m e u) with h | h <;> rw [h]
      · exact hdown
      · exact hup

theorem catches_of_onGrid? (hm : 0 < m) (h : onGrid? m e u = some c) : Catches m e (c * 10 ^ u) := by
  rcases onGrid?_cases m e u with ⟨-, -, hnone⟩ | ⟨c', hfits, hsome⟩
  · rw [hnone] at h
    cases h
  · rw [hsome] at h
    cases h
    exact (fits_iff hm).1 hfits

/-- A grid that is finer than the interval is wide has a multiple in it. -/
theorem exists_onGrid? (hm : 0 < m) (hfine : (10 : ℚ) ^ u < (margin m e + 1 / 2) * 2 ^ e) :
    ∃ c, onGrid? m e u = some c := by
  rcases onGrid?_cases m e u with ⟨hdown, hup, -⟩ | ⟨c, -, hsome⟩
  · exfalso
    rw [Bool.eq_false_iff, ne_eq, fits_iff hm] at hdown hup
    have hpow : (0 : ℚ) < 2 ^ e := zpow_pos two_pos e
    have hfour : (2 : ℚ) ^ e = 4 * 2 ^ (e - 2) := by rw [zpow_sub₀ two_ne_zero]; norm_num; ring
    have hbelow : (before m e u : ℚ) * 10 ^ u ≤ m * 2 ^ e := by
      have := (le_quarters_iff (u := u) (e := e) (4 * m) (before m e u)).1 (Nat.div_mul_le_self _ _)
      rw [hfour]
      push_cast at this
      linarith
    have habove : m * 2 ^ e < ((before m e u + 1 : ℕ) : ℚ) * 10 ^ u := by
      have hlt : 4 * m * stepDen e u < (before m e u + 1) * stepNum e u :=
        Nat.lt_mul_of_div_lt (Nat.lt_succ_self _) (stepNum_pos e u)
      rw [← not_le, le_quarters_iff, not_le] at hlt
      rw [hfour]
      push_cast at hlt ⊢
      linarith
    -- the one below is too far below, and so the next one is near enough
    have hlow : (before m e u : ℚ) * 10 ^ u ≤ (m - margin m e) * 2 ^ e := by
      by_contra hlt
      have hhigh : (before m e u : ℚ) * 10 ^ u < (m + 1 / 2) * 2 ^ e := by linarith
      exact hdown ⟨(not_le.1 hlt).le, hhigh.le, fun _ => ⟨(not_le.1 hlt).ne', hhigh.ne⟩⟩
    have hmargin := mul_pos (margin_pos m e) hpow
    have hhigh : ((before m e u + 1 : ℕ) : ℚ) * 10 ^ u < (m + 1 / 2) * 2 ^ e := by
      push_cast
      linarith
    have hlow' : (m - margin m e) * 2 ^ e < ((before m e u + 1 : ℕ) : ℚ) * 10 ^ u := by linarith
    exact hup ⟨hlow'.le, hhigh.le, fun _ => ⟨hlow'.ne', hhigh.ne⟩⟩
  · exact ⟨c, hsome⟩

end Grids

/-! ### The number of digits -/

theorem lt_pow_length (n : ℕ) : n < 10 ^ length n := by
  unfold length
  split_ifs with h
  · rw [h]
    decide
  · exact (Nat.length_toDigits_le_iff (by decide) Nat.length_toDigits_pos).1 le_rfl

theorem pow_length_le {n : ℕ} (hn : 0 < n) : 10 ^ (length n - 1) ≤ n := by
  unfold length
  rw [if_neg hn.ne']
  by_contra hlt
  rcases Nat.eq_zero_or_pos ((Nat.toDigits 10 n).length - 1) with hzero | hpos
  · rw [hzero] at hlt
    omega
  · have := (Nat.length_toDigits_le_iff (b := 10) (by decide) hpos).2 (not_le.1 hlt)
    omega

theorem pow_point_le {num den : ℕ} (hn : 0 < num) (hd : 0 < den) :
    (10 : ℚ) ^ (point num den - 1) ≤ num / den := by
  have hd' : (0 : ℚ) < den := by exact_mod_cast hd
  unfold point
  split_ifs with h
  · have hq : 0 < num / den := Nat.div_pos h hd
    have hlength : 0 < length (num / den) := by
      unfold length
      rw [if_neg hq.ne']
      exact Nat.length_toDigits_pos
    have hcast : ((length (num / den) : ℤ) - 1) = (length (num / den) - 1 : ℕ) := by omega
    rw [hcast, zpow_natCast]
    calc (10 : ℚ) ^ (length (num / den) - 1) ≤ (num / den : ℕ) := by exact_mod_cast pow_length_le hq
      _ ≤ num / den := Nat.cast_div_le
  · have hlt : den - 1 < 10 ^ length ((den - 1) / num) * num := Nat.lt_mul_of_div_lt (lt_pow_length _) hn
    have hle : den ≤ num * 10 ^ length ((den - 1) / num) := by
      rw [Nat.mul_comm]
      omega
    have hn' : (0 : ℚ) < num := by exact_mod_cast hn
    rw [show (1 : ℤ) - length ((den - 1) / num) - 1 = -(length ((den - 1) / num) : ℤ) by ring, zpow_neg,
      zpow_natCast, inv_le_comm₀ (by positivity) (div_pos hn' hd'), inv_div, div_le_iff₀ hn', mul_comm]
    exact_mod_cast hle

/-! ### The fewest digits -/

theorem value_trimZeros (fuel digits : ℕ) (u : ℤ) : (trimZeros fuel digits u).value = digits * 10 ^ u := by
  induction fuel generalizing digits u with
  | zero => rfl
  | succ fuel ih =>
    unfold trimZeros
    split_ifs with h
    · obtain ⟨c, hc⟩ := Nat.dvd_of_mod_eq_zero h.1
      rw [ih, hc, Nat.mul_div_cancel_left c (by decide), zpow_add_one₀ (by norm_num)]
      push_cast
      ring
    · rfl

section Digits

variable {m : ℕ} {e : ℤ}

/-- Seventeen digits are enough. -/
theorem point_sub_lt (hfits : Fits m e) (hm : 0 < m) :
    (10 : ℚ) ^ (point (shiftRatio m 1 e).1 (shiftRatio m 1 e).2 - (16 + 1 : ℕ)) <
      (margin m e + 1 / 2) * 2 ^ e := by
  have hpow : (0 : ℚ) < 2 ^ e := zpow_pos two_pos e
  have hcast := shiftRatio_one_cast m e
  have hnum : 0 < (shiftRatio m 1 e).1 := by
    have hm' : (0 : ℚ) < m := by exact_mod_cast hm
    have hpos : (0 : ℚ) < (shiftRatio m 1 e).1 / (shiftRatio m 1 e).2 := hcast ▸ mul_pos hm' hpow
    by_contra hzero
    rw [Nat.eq_zero_of_not_pos hzero] at hpos
    simp at hpos
  have hden : 0 < (shiftRatio m 1 e).2 := shiftRatio_pos one_pos e
  have hpoint := pow_point_le hnum hden
  rw [hcast] at hpoint
  have hwide : (m : ℚ) / 10 ^ 16 < margin m e + 1 / 2 := by
    have hlt : (m : ℚ) < 2 ^ 53 := by exact_mod_cast hfits.lt
    unfold margin
    split_ifs with h
    · rw [h.1]
      norm_num
    · rw [div_lt_iff₀ (by positivity)]
      linarith
  rw [show ((16 + 1 : ℕ) : ℤ) = 1 + 16 by norm_num, ← sub_sub, zpow_sub₀ (by norm_num) _ 16]
  calc _ ≤ m * 2 ^ e / (10 : ℚ) ^ (16 : ℤ) := div_le_div_of_nonneg_right hpoint (ten_pos 16).le
    _ = m / 10 ^ 16 * 2 ^ e := by norm_num; ring
    _ < _ := mul_lt_mul_of_pos_right hwide hpow

/-- **The fewest digits.**  The decimal with the fewest digits is one that is rounded to the number. -/
theorem catches_shortest (hfits : Fits m e) (hm : 0 < m) : Catches m e (shortest m e).value := by
  obtain ⟨c, hc⟩ := exists_onGrid? hm (point_sub_lt hfits hm)
  unfold shortest
  dsimp only
  split
  · rename_i c' unit hfound
    obtain ⟨i, -, hi⟩ := List.exists_of_findSome?_eq_some hfound
    obtain ⟨c'', hsome, heq⟩ := Option.map_eq_some_iff.1 hi
    cases heq
    rw [value_trimZeros]
    exact catches_of_onGrid? hm hsome
  · rename_i hfound
    have hlast := List.findSome?_eq_none_iff.1 hfound 16 (by decide)
    rw [hc] at hlast
    cases hlast

end Digits

end Decimal

namespace Double

/-! ### Decimals that are read -/

section Reading

variable {m digits : ℕ} {e u : ℤ}

/-- a natural has more bits than ten thirds of its digits -/
theorem pow_log2_le (digits : ℕ) (hdigits : 0 < digits) : 10 ^ (digits.log2 * 3 / 10) ≤ digits := by
  have hlog : 2 ^ digits.log2 ≤ digits := Nat.log2_self_le hdigits.ne'
  refine le_trans ?_ hlog
  refine le_of_not_gt fun hlt => absurd (Nat.pow_lt_pow_left hlt (n := 10) (by decide)) (not_lt.2 ?_)
  calc (10 ^ (digits.log2 * 3 / 10)) ^ 10 = 10 ^ (digits.log2 * 3 / 10 * 10) := (pow_mul ..).symm
    _ ≤ 10 ^ (digits.log2 * 3) := Nat.pow_le_pow_right (by decide) (Nat.div_mul_le_self ..)
    _ = 1000 ^ digits.log2 := by rw [mul_comm, pow_mul]; norm_num
    _ ≤ 1024 ^ digits.log2 := Nat.pow_le_pow_left (by decide) _
    _ = (2 ^ digits.log2) ^ 10 := by rw [← pow_mul, mul_comm, pow_mul]; norm_num

theorem Catches.digits_pos (h : Catches m e (digits * 10 ^ u)) (hm : 0 < m) : 0 < digits := by
  have hpos := h.pos hm
  by_contra hzero
  rw [Nat.eq_zero_of_not_pos hzero] at hpos
  simp at hpos

/-- what is past the largest number is far below the four hundredth power of ten -/
theorem two_pow_top_lt : (2 : ℚ) ^ 53 * 2 ^ maxExponent < 10 ^ (400 : ℤ) :=
  calc (2 : ℚ) ^ 53 * 2 ^ maxExponent = 2 ^ (3 * 341 + 1 : ℤ) := by
        rw [← zpow_natCast, ← zpow_add₀ two_ne_zero]
        rfl
    _ = 8 ^ (341 : ℤ) * 2 := by rw [zpow_add₀ two_ne_zero, zpow_mul, zpow_one]; norm_num
    _ ≤ 10 ^ (341 : ℤ) * 10 ^ (1 : ℤ) :=
      mul_le_mul (zpow_le_zpow_left₀ (by norm_num) (by norm_num) (by norm_num)) (by norm_num) (by norm_num)
        (by positivity)
    _ = 10 ^ (341 + 1 : ℤ) := (zpow_add₀ (by norm_num) ..).symm
    _ < 10 ^ (400 : ℤ) := zpow_lt_zpow_right₀ (by norm_num) (by norm_num)

/-- a decimal that is rounded to a number is not so large that none is computed -/
theorem Catches.size_le (h : Catches m e (digits * 10 ^ u)) (hfits : Fits m e) (hm : 0 < m) :
    ¬ 400 < (digits.log2 : ℤ) * 3 / 10 + u := by
  intro hfar
  have hlt : (m : ℚ) + 1 ≤ 2 ^ 53 := by exact_mod_cast hfits.lt
  have hcast : (digits.log2 : ℤ) * 3 / 10 = (digits.log2 * 3 / 10 : ℕ) := by omega
  have hle : (10 : ℚ) ^ ((digits.log2 : ℤ) * 3 / 10 + u) ≤ digits * 10 ^ u := by
    rw [zpow_add₀ (by norm_num), hcast, zpow_natCast]
    exact mul_le_mul_of_nonneg_right (by exact_mod_cast pow_log2_le digits (h.digits_pos hm)) (by positivity)
  refine lt_irrefl ((10 : ℚ) ^ (400 : ℤ)) ?_
  calc (10 : ℚ) ^ (400 : ℤ) ≤ 10 ^ ((digits.log2 : ℤ) * 3 / 10 + u) := zpow_le_zpow_right₀ (by norm_num) hfar.le
    _ ≤ digits * 10 ^ u := hle
    _ ≤ (m + 1 / 2) * 2 ^ e := h.high
    _ ≤ 2 ^ 53 * 2 ^ maxExponent :=
      mul_le_mul (by linarith) (two_zpow_le_iff.2 hfits.most) (by positivity) (by positivity)
    _ < 10 ^ (400 : ℤ) := two_pow_top_lt

/-- nor so small -/
theorem Catches.size_ge (h : Catches m e (digits * 10 ^ u)) (hfits : Fits m e) (hm : 0 < m) :
    ¬ (digits.log2 : ℤ) + 3 * u < -1100 := by
  intro hnear
  have hm' : (1 : ℚ) ≤ m := by exact_mod_cast hm
  have hmargin := margin_le m e
  have height : (10 : ℚ) ^ u ≤ 2 ^ (3 * u) := by
    have hu : u ≤ 0 := by omega
    obtain ⟨n, hn⟩ := Int.eq_ofNat_of_zero_le (Int.neg_nonneg_of_nonpos hu)
    rw [show u = -(n : ℤ) by omega, zpow_mul, zpow_neg, zpow_neg, zpow_natCast, zpow_natCast]
    exact inv_anti₀ (by positivity) (pow_le_pow_left₀ (by norm_num) (by norm_num) n)
  have hbits : (2 : ℚ) ^ (minExponent - 1) < 2 ^ ((digits.log2 + 1 : ℤ) + 3 * u) :=
    calc (2 : ℚ) ^ (minExponent - 1) = 1 / 2 * 2 ^ minExponent := by
          rw [zpow_sub_one₀ two_ne_zero, mul_comm, one_div]
      _ ≤ (m - margin m e) * 2 ^ e :=
        mul_le_mul (by linarith) (two_zpow_le_iff.2 hfits.least) (by positivity) (by linarith)
      _ ≤ digits * 10 ^ u := h.low
      _ ≤ digits * 2 ^ (3 * u) := mul_le_mul_of_nonneg_left height (Nat.cast_nonneg _)
      _ < 2 ^ (digits.log2 + 1 : ℤ) * 2 ^ (3 * u) :=
        mul_lt_mul_of_pos_right (log2_bounds (h.digits_pos hm)).2 (zpow_pos two_pos _)
      _ = 2 ^ ((digits.log2 + 1 : ℤ) + 3 * u) := (zpow_add₀ two_ne_zero ..).symm
  have hlt := two_zpow_lt_iff.1 hbits
  unfold minExponent at hlt
  omega

/-- **Reading back.**  A decimal that is rounded to a number is read as this number. -/
theorem ofDecimal_of_catches (s : Bool) (hfits : Fits m e) (hm : 0 < m) (h : Catches m e (digits * 10 ^ u)) :
    ofDecimal s digits u = .finite s m e := by
  rw [ofDecimal, if_neg (h.digits_pos hm).ne', if_neg (h.size_le hfits hm), if_neg (h.size_ge hfits hm)]
  split_ifs with hu
  · refine ofRatio_of_catches s hfits hm one_pos ?_
    obtain ⟨n, rfl⟩ := Int.eq_ofNat_of_zero_le hu
    simpa using h
  · refine ofRatio_of_catches s hfits hm (Nat.pow_pos (by decide)) ?_
    obtain ⟨n, hn⟩ := Int.eq_ofNat_of_zero_le (Int.neg_nonneg_of_nonpos (Int.le_of_lt (Int.not_le.1 hu)))
    rw [show u = -(n : ℤ) by omega] at h ⊢
    simpa [zpow_neg, div_eq_mul_inv] using h

end Reading

end Double

end MeshOperator
