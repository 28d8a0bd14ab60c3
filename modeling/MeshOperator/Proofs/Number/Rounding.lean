import Mathlib.Algebra.Order.Field.Power
import Mathlib.Data.Rat.Cast.Order
import Mathlib.Tactic.FieldSimp
import Mathlib.Tactic.Linarith
import Mathlib.Tactic.Positivity
import Mathlib.Tactic.Ring
import MeshOperator.Number.Double

/-!
# Rounding

A quotient is rounded on the grid of a power of two that leaves it a mantissa of fifty-three bits, or on the
finest grid there is. So what comes out is a number in its one form, and a quotient that is nearer to a number
than to its neighbours gives this number.

* `rounds_roundDiv`, `Rounds.unique`: the nearest natural, a half going to the even one.
* `Double.ratioLog_bounds`: the binary logarithm of a quotient.
* `Double.IsCanonical`, `Double.isCanonical_ofRatio`: numbers in their one form; rounding gives no others.
* `Double.Catches`, `Double.ofRatio_of_catches`: the quotients that are rounded to a number.
-/

namespace MeshOperator

/-! ### Naturals -/

/-- The natural is the nearest to a rational; of two that are equally near, the even one. -/
structure Rounds (x : ℚ) (c : ℕ) : Prop where
  near : |x - c| ≤ 1 / 2
  even : |x - c| = 1 / 2 → c % 2 = 0

section Naturals

variable {x : ℚ} {a b c n d : ℕ}

theorem Rounds.le (ha : Rounds x a) (hb : Rounds x b) : a ≤ b := by
  by_contra hlt
  have hnext : (b : ℚ) + 1 ≤ a := by exact_mod_cast Nat.lt_of_not_le hlt
  obtain ⟨hlow, -⟩ := abs_le.1 ha.near
  obtain ⟨-, hhigh⟩ := abs_le.1 hb.near
  -- the naturals are neighbours, and the rational is in the middle between them
  have heq : a = b + 1 := by
    have : (a : ℚ) = b + 1 := by linarith
    exact_mod_cast this
  have hmiddle : x = b + 1 / 2 := by linarith
  have hevenA : a % 2 = 0 := ha.even (by rw [hmiddle, heq]; push_cast; rw [abs_of_neg] <;> linarith)
  have hevenB : b % 2 = 0 := hb.even (by rw [hmiddle, abs_of_pos] <;> linarith)
  omega

theorem Rounds.unique (ha : Rounds x a) (hb : Rounds x b) : a = b := Nat.le_antisymm (ha.le hb) (hb.le ha)

theorem rounds_roundDiv (n : ℕ) (hd : 0 < d) : Rounds ((n : ℚ) / d) (roundDiv n d) := by
  have hd' : (0 : ℚ) < d := by exact_mod_cast hd
  have hsplit : (n : ℚ) = d * (n / d : ℕ) + (n % d : ℕ) := by exact_mod_cast (Nat.div_add_mod n d).symm
  have hx : (n : ℚ) / d = (n / d : ℕ) + (n % d : ℕ) / d := by
    rw [div_eq_iff hd'.ne', hsplit, add_mul, div_mul_cancel₀ _ hd'.ne']
    ring
  have hrest : (0 : ℚ) ≤ (n % d : ℕ) / d := by positivity
  have hbelow : ((n % d : ℕ) : ℚ) / d < 1 := by
    rw [div_lt_one hd']
    exact_mod_cast Nat.mod_lt n hd
  unfold roundDiv
  dsimp only
  split_ifs with hless hmore
  · have hhalf : ((n % d : ℕ) : ℚ) / d < 1 / 2 := by
      rw [div_lt_div_iff₀ hd' two_pos]
      exact_mod_cast (by omega : n % d * 2 < 1 * d)
    have habs : |(n : ℚ) / d - (n / d : ℕ)| = (n % d : ℕ) / d := by
      rw [hx, add_sub_cancel_left, abs_of_nonneg hrest]
    exact ⟨habs ▸ hhalf.le, fun h => absurd (habs ▸ h) hhalf.ne⟩
  · have hhalf : 1 / 2 < ((n % d : ℕ) : ℚ) / d := by
      rw [div_lt_div_iff₀ two_pos hd']
      exact_mod_cast (by omega : 1 * d < n % d * 2)
    have habs : |(n : ℚ) / d - (n / d + 1 : ℕ)| = 1 - (n % d : ℕ) / d := by
      rw [hx, abs_of_neg] <;> push_cast <;> linarith
    exact ⟨by rw [habs]; linarith, fun h => by rw [habs] at h; linarith⟩
  · have hhalf : ((n % d : ℕ) : ℚ) / d = 1 / 2 := by
      rw [div_eq_div_iff hd'.ne' two_ne_zero]
      exact_mod_cast (by omega : n % d * 2 = 1 * d)
    have habs : |(n : ℚ) / d - (n / d + n / d % 2 : ℕ)| = 1 / 2 := by
      rw [hx, hhalf]
      rcases Nat.mod_two_eq_zero_or_one (n / d) with h | h
      · rw [h, abs_of_pos] <;> push_cast <;> linarith
      · rw [h, abs_of_neg] <;> push_cast <;> linarith
    exact ⟨habs.le, fun _ => by omega⟩

/-- rounding does not pass a natural -/
theorem Rounds.le_of_le (h : Rounds x c) (ha : (a : ℚ) ≤ x) : a ≤ c := by
  obtain ⟨-, hhigh⟩ := abs_le.1 h.near
  have hlt : (a : ℚ) < c + 1 := by linarith
  exact Nat.lt_succ_iff.1 (by exact_mod_cast hlt)

theorem Rounds.ge_of_ge (h : Rounds x c) (ha : x ≤ a) : c ≤ a := by
  obtain ⟨hlow, -⟩ := abs_le.1 h.near
  have hlt : (c : ℚ) < a + 1 := by linarith
  exact Nat.lt_succ_iff.1 (by exact_mod_cast hlt)

theorem Rounds.eq_of_natCast (h : Rounds (a : ℚ) c) : c = a :=
  Nat.le_antisymm (h.ge_of_ge le_rfl) (h.le_of_le le_rfl)

end Naturals

namespace Double

/-! ### Quotients -/

section Quotients

variable {num den : ℕ}

theorem shiftRatio_pos (hd : 0 < den) (k : ℤ) : 0 < (shiftRatio num den k).2 := by
  unfold shiftRatio
  split
  · exact hd
  · exact Nat.mul_pos hd (Nat.pow_pos two_pos)

theorem shiftRatio_cast (num den : ℕ) (k : ℤ) :
    ((shiftRatio num den k).1 : ℚ) / (shiftRatio num den k).2 = num / den * 2 ^ k := by
  unfold shiftRatio
  split_ifs with hk
  · obtain ⟨n, rfl⟩ := Int.eq_ofNat_of_zero_le hk
    simp only [Int.toNat_natCast, Nat.pow_eq, zpow_natCast]
    push_cast
    ring
  · obtain ⟨n, hn⟩ := Int.eq_ofNat_of_zero_le (Int.neg_nonneg_of_nonpos (Int.le_of_lt (Int.not_le.1 hk)))
    rw [show k = -(n : ℤ) by omega]
    simp only [neg_neg, Int.toNat_natCast, Nat.pow_eq, zpow_neg, zpow_natCast]
    push_cast
    rw [div_mul_eq_div_div, div_eq_mul_inv]

theorem shiftRatio_one_cast (n : ℕ) (k : ℤ) : ((shiftRatio n 1 k).1 : ℚ) / (shiftRatio n 1 k).2 = n * 2 ^ k := by
  rw [shiftRatio_cast, Nat.cast_one, div_one]

theorem two_zpow_le_iff {k l : ℤ} : (2 : ℚ) ^ k ≤ 2 ^ l ↔ k ≤ l := zpow_le_zpow_iff_right₀ one_lt_two

theorem two_zpow_lt_iff {k l : ℤ} : (2 : ℚ) ^ k < 2 ^ l ↔ k < l := zpow_lt_zpow_iff_right₀ one_lt_two

/-- A natural between powers of two. -/
theorem log2_bounds {n : ℕ} (hn : 0 < n) : (2 : ℚ) ^ (n.log2 : ℤ) ≤ n ∧ (n : ℚ) < 2 ^ (n.log2 + 1 : ℤ) := by
  have hlow : 2 ^ n.log2 ≤ n := Nat.log2_self_le hn.ne'
  have hhigh : n < 2 ^ (n.log2 + 1) := Nat.lt_log2_self
  constructor
  · rw [zpow_natCast]
    exact_mod_cast hlow
  · rw [show (n.log2 + 1 : ℤ) = (n.log2 + 1 : ℕ) by push_cast; rfl, zpow_natCast]
    exact_mod_cast hhigh

theorem ratioLog_bounds (hn : 0 < num) (hd : 0 < den) :
    (2 : ℚ) ^ ratioLog num den ≤ num / den ∧ (num : ℚ) / den < 2 ^ (ratioLog num den + 1) := by
  obtain ⟨hnlow, hnhigh⟩ := log2_bounds hn
  obtain ⟨hdlow, hdhigh⟩ := log2_bounds hd
  have hd' : (0 : ℚ) < den := by exact_mod_cast hd
  have htwo : (2 : ℚ) ≠ 0 := two_ne_zero
  have hlow : (2 : ℚ) ^ ((num.log2 : ℤ) - den.log2 - 1) ≤ num / den := by
    rw [le_div_iff₀ hd', show (num.log2 : ℤ) - den.log2 - 1 = num.log2 - (den.log2 + 1) by ring,
      zpow_sub₀ htwo, div_mul_eq_mul_div, div_le_iff₀ (zpow_pos two_pos _)]
    exact mul_le_mul hnlow hdhigh.le hd'.le (Nat.cast_nonneg _)
  have hhigh : (num : ℚ) / den < 2 ^ ((num.log2 : ℤ) - den.log2 + 1) := by
    rw [div_lt_iff₀ hd', show (num.log2 : ℤ) - den.log2 + 1 = (num.log2 + 1) - den.log2 by ring,
      zpow_sub₀ htwo, div_mul_eq_mul_div, lt_div_iff₀ (zpow_pos two_pos _)]
    exact mul_lt_mul hnhigh hdlow (zpow_pos two_pos _) (zpow_pos two_pos _).le
  have hcompare : (shiftRatio num den (-((num.log2 : ℤ) - den.log2))).2 ≤
      (shiftRatio num den (-((num.log2 : ℤ) - den.log2))).1 ↔
      (2 : ℚ) ^ ((num.log2 : ℤ) - den.log2) ≤ num / den := by
    have hpos : (0 : ℚ) < (shiftRatio num den (-((num.log2 : ℤ) - den.log2))).2 := by
      exact_mod_cast shiftRatio_pos hd _
    rw [← Nat.cast_le (α := ℚ), ← one_le_div hpos, shiftRatio_cast, zpow_neg, ← div_eq_mul_inv,
      one_le_div (zpow_pos two_pos _)]
  unfold ratioLog
  dsimp only
  split_ifs with h
  · exact ⟨hcompare.1 h, hhigh⟩
  · exact ⟨hlow, by rw [sub_add_cancel]; exact lt_of_not_ge fun hge => h (hcompare.2 hge)⟩

end Quotients

/-! ### Numbers in their one form -/

/-- The mantissa has fifty-three bits, or fewer on the finest grid. -/
structure Fits (m : ℕ) (e : ℤ) : Prop where
  lt : m < 2 ^ 53
  full : 2 ^ 52 ≤ m ∨ e = minExponent
  least : minExponent ≤ e
  most : e ≤ maxExponent

instance (m : ℕ) (e : ℤ) : Decidable (Fits m e) :=
  decidable_of_iff (m < 2 ^ 53 ∧ (2 ^ 52 ≤ m ∨ e = minExponent) ∧ minExponent ≤ e ∧ e ≤ maxExponent)
    ⟨fun ⟨h₁, h₂, h₃, h₄⟩ => ⟨h₁, h₂, h₃, h₄⟩, fun ⟨h₁, h₂, h₃, h₄⟩ => ⟨h₁, h₂, h₃, h₄⟩⟩

/-- The number is in its one form. -/
def IsCanonical : Double → Prop
  | .finite _ m e => Fits m e
  | _ => True

instance : DecidablePred IsCanonical
  | .finite _ m e => inferInstanceAs (Decidable (Fits m e))
  | .nan => .isTrue trivial
  | .infinite _ => .isTrue trivial

section Forms

variable {num den m j : ℕ} {e f : ℤ} {s : Bool}

theorem fits_zero : Fits 0 minExponent := by decide

theorem pack_of_lt (hm : m < 2 ^ 53) (he : e ≤ maxExponent) : pack s m e = .finite s m e := by
  have hne : m ≠ Nat.pow 2 53 := hm.ne
  simp [pack, hne, he]

theorem pack_carried (he : e < maxExponent) : pack s (2 ^ 53) e = .finite s (2 ^ 52) (e + 1) := by
  have hpow : 2 ^ 53 = Nat.pow 2 53 := rfl
  have hle : ¬ maxExponent < e + 1 := by omega
  rw [pack]
  simp only [hpow, decide_true, if_true, if_neg hle]
  rfl

theorem pack_of_past (he : maxExponent < e) : pack s m e = .infinite s := by
  unfold pack
  dsimp only
  split_ifs <;> first | rfl | omega

theorem isCanonical_pack (hm : m ≤ 2 ^ 53) (hfull : 2 ^ 52 ≤ m ∨ e = minExponent) (he : minExponent ≤ e) :
    (pack s m e).IsCanonical := by
  rcases lt_or_ge maxExponent e with hpast | hmost
  · rw [pack_of_past hpast]
    trivial
  · rcases hm.lt_or_eq with hlt | rfl
    · rw [pack_of_lt hlt hmost]
      exact ⟨hlt, hfull, he, hmost⟩
    · rcases hmost.lt_or_eq with hlt | rfl
      · rw [pack_carried hlt]
        exact ⟨by norm_num, .inl le_rfl, by omega, hlt⟩
      · have hpast : pack s (2 ^ 53) maxExponent = .infinite s := rfl
        rw [hpast]
        trivial

/-! ### The grid of a quotient -/

/-- the exponent of the grid on which a quotient is rounded -/
def gridOf (num den : ℕ) : ℤ := max (ratioLog num den - 52) minExponent

theorem exists_ofRatio_eq (s : Bool) (hn : 0 < num) (hd : 0 < den) :
    ∃ c, Rounds (num / den / 2 ^ gridOf num den) c ∧ ofRatio s num den = pack s c (gridOf num den) := by
  have hpos : 0 < (shiftRatio num den (-gridOf num den)).2 := shiftRatio_pos hd _
  have hrounds := rounds_roundDiv (shiftRatio num den (-gridOf num den)).1 hpos
  rw [shiftRatio_cast, zpow_neg, ← div_eq_mul_inv] at hrounds
  exact ⟨_, hrounds, if_neg hn.ne'⟩

/-- on its grid a quotient needs no more than fifty-three bits -/
theorem div_gridOf_lt (hn : 0 < num) (hd : 0 < den) :
    (num : ℚ) / den / 2 ^ gridOf num den < (2 ^ 53 : ℕ) := by
  have hle : ratioLog num den + 1 ≤ 53 + gridOf num den := by
    unfold gridOf
    omega
  rw [div_lt_iff₀ (zpow_pos two_pos _)]
  calc (num : ℚ) / den < 2 ^ (ratioLog num den + 1) := (ratioLog_bounds hn hd).2
    _ ≤ 2 ^ (53 + gridOf num den) := two_zpow_le_iff.2 hle
    _ = (2 ^ 53 : ℕ) * 2 ^ gridOf num den := by rw [zpow_add₀ two_ne_zero]; norm_num

/-- and no fewer, unless the grid is the finest -/
theorem le_div_gridOf (hn : 0 < num) (hd : 0 < den) (hgrid : gridOf num den ≠ minExponent) :
    ((2 ^ 52 : ℕ) : ℚ) ≤ num / den / 2 ^ gridOf num den := by
  have heq : 52 + gridOf num den = ratioLog num den := by
    unfold gridOf at hgrid ⊢
    omega
  rw [le_div_iff₀ (zpow_pos two_pos _)]
  calc ((2 ^ 52 : ℕ) : ℚ) * 2 ^ gridOf num den = 2 ^ (52 + gridOf num den) := by
        rw [zpow_add₀ two_ne_zero]; norm_num
    _ = 2 ^ ratioLog num den := by rw [heq]
    _ ≤ num / den := (ratioLog_bounds hn hd).1

theorem isCanonical_ofRatio (s : Bool) (num : ℕ) (hd : 0 < den) : (ofRatio s num den).IsCanonical := by
  rcases Nat.eq_zero_or_pos num with rfl | hn
  · exact fits_zero
  · obtain ⟨c, hrounds, heq⟩ := exists_ofRatio_eq s hn hd
    rw [heq]
    refine isCanonical_pack (hrounds.ge_of_ge (div_gridOf_lt hn hd).le) ?_ (le_max_right ..)
    by_cases hgrid : gridOf num den = minExponent
    · exact .inr hgrid
    · exact .inl (hrounds.le_of_le (le_div_gridOf hn hd hgrid))

/-- A quotient that is a number is not rounded, unless it is past the largest. -/
theorem ofRatio_exact (s : Bool) (hd : 0 < den) (hj : 0 < j) (hj' : j < 2 ^ 53) (hf : minExponent ≤ f)
    (hx : (num : ℚ) / den = j * 2 ^ f) :
    (num / den < (2 : ℚ) ^ (1024 : ℤ) ∧ ∃ m e, ofRatio s num den = .finite s m e ∧ (m : ℚ) * 2 ^ e = num / den) ∨
      ((2 : ℚ) ^ (1024 : ℤ) ≤ num / den ∧ ofRatio s num den = .infinite s) := by
  have hj₀ : (0 : ℚ) < j := by exact_mod_cast hj
  have hpos : (0 : ℚ) < num / den := hx ▸ mul_pos hj₀ (zpow_pos two_pos _)
  have hn : 0 < num := by
    rcases Nat.eq_zero_or_pos num with rfl | hn
    · simp at hpos
    · exact hn
  obtain ⟨c, hrounds, heq⟩ := exists_ofRatio_eq s hn hd
  have hlt := div_gridOf_lt hn hd
  have hlog : ratioLog num den < 53 + f := by
    refine two_zpow_lt_iff.1 ((ratioLog_bounds hn hd).1.trans_lt ?_)
    rw [hx, zpow_add₀ two_ne_zero]
    exact mul_lt_mul_of_pos_right (by exact_mod_cast hj') (zpow_pos two_pos _)
  have hgrid : gridOf num den ≤ f := by
    unfold gridOf
    omega
  -- on the grid the quotient is a natural
  obtain ⟨k, hk⟩ := Int.eq_ofNat_of_zero_le (Int.sub_nonneg.2 hgrid)
  have hnat : (num : ℚ) / den / 2 ^ gridOf num den = (j * 2 ^ k : ℕ) := by
    rw [hx, mul_div_assoc, ← zpow_sub₀ two_ne_zero, hk]
    push_cast
    rw [zpow_natCast]
  rw [hnat] at hrounds hlt
  obtain rfl := hrounds.eq_of_natCast
  have hback : ((j * 2 ^ k : ℕ) : ℚ) * 2 ^ gridOf num den = num / den := by
    rw [← hnat, div_mul_cancel₀ _ (zpow_ne_zero _ two_ne_zero)]
  rcases lt_or_ge maxExponent (gridOf num den) with hpast | hmost
  · refine .inr ⟨?_, by rw [heq, pack_of_past hpast]⟩
    have hle : 1024 ≤ ratioLog num den := by
      unfold gridOf maxExponent minExponent at *
      omega
    exact (two_zpow_le_iff.2 hle).trans (ratioLog_bounds hn hd).1
  · refine .inl ⟨?_, _, _, by rw [heq, pack_of_lt (by exact_mod_cast hlt) hmost], hback⟩
    calc (num : ℚ) / den = (j * 2 ^ k : ℕ) * 2 ^ gridOf num den := hback.symm
      _ < (2 ^ 53 : ℕ) * 2 ^ gridOf num den := mul_lt_mul_of_pos_right hlt (zpow_pos two_pos _)
      _ = 2 ^ (53 + gridOf num den) := by rw [zpow_add₀ two_ne_zero]; norm_num
      _ ≤ 2 ^ (1024 : ℤ) := two_zpow_le_iff.2 (by unfold maxExponent at hmost; omega)

end Forms

/-! ### The quotients that are rounded to a number -/

/-- How far below a number the rationals are rounded to it, on its grid. Below a power of two the grid is finer. -/
def margin (m : ℕ) (e : ℤ) : ℚ := if m = 2 ^ 52 ∧ minExponent < e then 1 / 4 else 1 / 2

/-- The rational is as near to the number as to its neighbours, or nearer if the mantissa is odd. -/
structure Catches (m : ℕ) (e : ℤ) (x : ℚ) : Prop where
  low : (m - margin m e) * 2 ^ e ≤ x
  high : x ≤ (m + 1 / 2) * 2 ^ e
  ends : m % 2 = 1 → x ≠ (m - margin m e) * 2 ^ e ∧ x ≠ (m + 1 / 2) * 2 ^ e

section Catching

variable {num den m : ℕ} {e : ℤ} {x : ℚ}

theorem margin_pos (m : ℕ) (e : ℤ) : 0 < margin m e := by
  unfold margin
  split <;> norm_num

theorem margin_le (m : ℕ) (e : ℤ) : margin m e ≤ 1 / 2 := by
  unfold margin
  split <;> norm_num

theorem Catches.pos (h : Catches m e x) (hm : 0 < m) : 0 < x := by
  have hm' : (1 : ℚ) ≤ m := by exact_mod_cast hm
  have hmargin := margin_le m e
  exact (mul_pos (by linarith) (zpow_pos two_pos e)).trans_le h.low

/-- On its own grid such a rational is rounded to the mantissa. -/
theorem Catches.rounds (h : Catches m e x) : Rounds (x / 2 ^ e) m := by
  have hpow : (0 : ℚ) < 2 ^ e := zpow_pos two_pos e
  have hlow : (m : ℚ) - margin m e ≤ x / 2 ^ e := (le_div_iff₀ hpow).2 h.low
  have hhigh : x / 2 ^ e ≤ m + 1 / 2 := (div_le_iff₀ hpow).2 h.high
  have hmargin := margin_le m e
  refine ⟨abs_le.2 ⟨by linarith, by linarith⟩, fun hend => ?_⟩
  by_contra hodd
  obtain ⟨hne, hne'⟩ := h.ends (by omega)
  rcases abs_choice (x / 2 ^ e - m) with habs | habs
  · exact hne' ((div_eq_iff hpow.ne').1 (by linarith))
  · exact hne ((div_eq_iff hpow.ne').1 (by linarith))

/-! The grid of a quotient that is nearest to a number is that of the number, or the finer one below a power of
two, where the mantissa is carried. -/

theorem Catches.lt_top (h : Catches m e x) (hm : m < 2 ^ 53) : x < 2 ^ (53 + e) := by
  have hlt : (m : ℚ) + 1 ≤ 2 ^ 53 := by exact_mod_cast hm
  rw [zpow_add₀ two_ne_zero]
  refine h.high.trans_lt (mul_lt_mul_of_pos_right ?_ (zpow_pos two_pos e))
  norm_num at hlt ⊢
  linarith

theorem gridOf_eq (hn : 0 < num) (hd : 0 < den) (he : minExponent ≤ e)
    (hfull : (2 : ℚ) ^ (52 + e) ≤ num / den ∨ e = minExponent) (htop : (num : ℚ) / den < 2 ^ (53 + e)) :
    gridOf num den = e := by
  obtain ⟨hlow, hhigh⟩ := ratioLog_bounds hn hd
  have hlog : ratioLog num den < 53 + e := two_zpow_lt_iff.1 (hlow.trans_lt htop)
  unfold gridOf
  rcases hfull with hge | hmin
  · have hlog' : 52 + e < ratioLog num den + 1 := two_zpow_lt_iff.1 (hge.trans_lt hhigh)
    omega
  · omega

/-- only a power of two is the number nearest to one below the numbers on its grid -/
theorem Catches.mantissa_eq (h : Catches m e x) (hm : 2 ^ 52 ≤ m) (hlt : x < 2 ^ (52 + e)) : m = 2 ^ 52 := by
  have hmargin := margin_le m e
  have hbelow : (m : ℚ) - margin m e < (2 ^ 52 : ℕ) := by
    rw [zpow_add₀ two_ne_zero] at hlt
    have := lt_of_mul_lt_mul_right (h.low.trans_lt hlt) (zpow_pos two_pos e).le
    exact_mod_cast this
  have hnext : (m : ℚ) < (2 ^ 52 + 1 : ℕ) := by
    push_cast at hbelow ⊢
    linarith
  have := Nat.cast_lt.1 hnext
  omega

theorem margin_two_pow (he : minExponent < e) : margin (2 ^ 52) e = 1 / 4 := if_pos ⟨rfl, he⟩

theorem gridOf_eq_finer (hn : 0 < num) (hd : 0 < den) (he : minExponent < e) (h : Catches (2 ^ 52) e (num / den))
    (hlt : (num : ℚ) / den < 2 ^ (52 + e)) : gridOf num den = e - 1 := by
  refine gridOf_eq hn hd (by omega) (.inl (le_trans ?_ h.low)) ?_
  · rw [margin_two_pow he, show 52 + (e - 1) = 51 + e by ring, zpow_add₀ two_ne_zero]
    exact mul_le_mul_of_nonneg_right (by norm_num) (zpow_pos two_pos e).le
  · rwa [show 53 + (e - 1) = 52 + e by ring]

theorem Catches.rounds_finer (h : Catches (2 ^ 52) e x) (he : minExponent < e) (hlt : x < 2 ^ (52 + e)) :
    Rounds (x / 2 ^ (e - 1)) (2 ^ 53) := by
  have hpow : (0 : ℚ) < 2 ^ e := zpow_pos two_pos e
  have hdouble : x / 2 ^ (e - 1) = 2 * (x / 2 ^ e) := by
    rw [zpow_sub_one₀ two_ne_zero]
    field_simp
  have hlow := (le_div_iff₀ hpow).2 h.low
  have hhigh := (div_lt_iff₀ hpow).2 (by rwa [zpow_add₀ two_ne_zero] at hlt)
  rw [margin_two_pow he] at hlow
  rw [hdouble]
  norm_num at hlow hhigh
  refine ⟨abs_le.2 ⟨?_, ?_⟩, fun _ => by norm_num⟩ <;> norm_num <;> linarith

theorem ofRatio_of_catches (s : Bool) (hfits : Fits m e) (hm : 0 < m) (hd : 0 < den)
    (h : Catches m e ((num : ℚ) / den)) : ofRatio s num den = .finite s m e := by
  have hn : 0 < num := by
    rcases Nat.eq_zero_or_pos num with rfl | hn
    · exact absurd (h.pos hm) (by simp)
    · exact hn
  obtain ⟨c, hrounds, heq⟩ := exists_ofRatio_eq s hn hd
  by_cases hfull : (2 : ℚ) ^ (52 + e) ≤ num / den ∨ e = minExponent
  · rw [gridOf_eq hn hd hfits.least hfull (h.lt_top hfits.lt)] at hrounds heq
    rw [heq, hrounds.unique h.rounds, pack_of_lt hfits.lt hfits.most]
  · obtain ⟨hlt, hmin⟩ := not_or.1 hfull
    have hlt' := not_le.1 hlt
    have hmin' : minExponent < e := lt_of_le_of_ne hfits.least (Ne.symm hmin)
    obtain rfl := h.mantissa_eq (hfits.full.resolve_right hmin) hlt'
    have hmost : e - 1 < maxExponent := by
      have := hfits.most
      omega
    rw [gridOf_eq_finer hn hd hmin' h hlt'] at hrounds heq
    rw [heq, hrounds.unique (h.rounds_finer hmin' hlt'), pack_carried hmost, sub_add_cancel]

end Catching

end Double

end MeshOperator
