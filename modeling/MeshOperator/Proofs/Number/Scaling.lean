import Mathlib.Order.WithBot
import MeshOperator.Proofs.Data.Mappings
import MeshOperator.Proofs.Number.Rounding

/-!
# The order of numbers, and scaling

Numbers are compared by where they lie on the line of the rationals with both infinities. A number times a power
of two lies where it should, or at infinity if that is past the largest number: nothing is rounded.

* `Double.place`, `Double.lt_iff`, `Double.le_iff`: the order of numbers is that of their places.
* `Double.ofDyadic_exact`: a number by its mantissa and exponent, however they are chosen.
* `Double.scaled`, `Double.IsPositive.scaled_le`: a positive number times powers of two.
-/

namespace MeshOperator

/-! ### Places -/

/-- The rationals with both infinities. -/
abbrev Line := WithBot (WithTop ℚ)

/-- a rational on the line -/
def Line.of (x : ℚ) : Line := ((x : WithTop ℚ) : WithBot (WithTop ℚ))

theorem Line.of_lt_of {x y : ℚ} : Line.of x < Line.of y ↔ x < y := by
  rw [of, of, WithBot.coe_lt_coe, WithTop.coe_lt_coe]

theorem Line.of_le_of {x y : ℚ} : Line.of x ≤ Line.of y ↔ x ≤ y := by
  rw [of, of, WithBot.coe_le_coe, WithTop.coe_le_coe]

theorem Line.of_lt_top (x : ℚ) : Line.of x < ⊤ := WithBot.coe_lt_coe.2 (WithTop.coe_lt_top x)

theorem Line.bot_lt_of (x : ℚ) : ⊥ < Line.of x := WithBot.bot_lt_coe _

namespace Extended

variable {x y : Extended}

/-- where a point lies -/
def place : Extended → Line
  | .below => ⊥
  | .ratio num den => .of (num / den)
  | .above => ⊤

theorem lt_iff (hx : x.IsProper) (hy : y.IsProper) : x.lt y = true ↔ x.place < y.place := by
  cases x with
  | below => cases y <;> simp [lt, place, Line.bot_lt_of]
  | above => cases y <;> simp [lt, place]
  | ratio a b =>
    cases y with
    | below => simp [lt, place]
    | above => simp [lt, place, Line.of_lt_top]
    | ratio c d =>
      have hb : (0 : ℚ) < b := by exact_mod_cast Nat.pos_of_ne_zero hx
      have hd : (0 : ℚ) < d := by exact_mod_cast Nat.pos_of_ne_zero hy
      rw [place, place, Line.of_lt_of, div_lt_div_iff₀ hb hd, lt, decide_eq_true_eq]
      exact_mod_cast Iff.rfl

theorem equal_iff (hx : x.IsProper) (hy : y.IsProper) : x.equal y = true ↔ x.place = y.place := by
  cases x with
  | below => cases y <;> simp [equal, place, (Line.bot_lt_of _).ne]
  | above => cases y <;> simp [equal, place, (Line.of_lt_top _).ne']
  | ratio a b =>
    cases y with
    | below => simp [equal, place, (Line.bot_lt_of _).ne']
    | above => simp [equal, place, (Line.of_lt_top _).ne]
    | ratio c d =>
      have hb : (b : ℚ) ≠ 0 := by exact_mod_cast hx
      have hd : (d : ℚ) ≠ 0 := by exact_mod_cast hy
      rw [place, place, Line.of, Line.of, WithBot.coe_inj, WithTop.coe_inj, div_eq_div_iff hb hd, equal,
        decide_eq_true_eq]
      exact_mod_cast Iff.rfl

end Extended

namespace Double

variable {a b : Double} {m n j : ℕ} {e f k : ℤ}

/-- where a number lies; not-a-number, which lies nowhere, is put below all -/
def place (d : Double) : Line := (d.extended?.map Extended.place).getD ⊥

theorem exists_extended (h : a ≠ .nan) : ∃ x, a.extended? = some x ∧ x.IsProper ∧ a.place = x.place := by
  obtain ⟨x, hx⟩ : ∃ x, a.extended? = some x := by
    cases a with
    | nan => exact absurd rfl h
    | infinite negative => cases negative <;> exact ⟨_, rfl⟩
    | finite negative m e => exact ⟨_, rfl⟩
  exact ⟨x, hx, isProper_of_extended? hx, by rw [place, hx]; rfl⟩

theorem lt_iff (ha : a ≠ .nan) (hb : b ≠ .nan) : a.lt b = true ↔ a.place < b.place := by
  obtain ⟨x, hx, hproper, hplace⟩ := exists_extended ha
  obtain ⟨y, hy, hproper', hplace'⟩ := exists_extended hb
  rw [hplace, hplace', ← Extended.lt_iff hproper hproper', lt, hx, hy]

theorem le_iff (ha : a ≠ .nan) (hb : b ≠ .nan) : a.le b = true ↔ a.place ≤ b.place := by
  obtain ⟨x, hx, hproper, hplace⟩ := exists_extended ha
  obtain ⟨y, hy, hproper', hplace'⟩ := exists_extended hb
  have hequal : a.equal b = true ↔ a.place = b.place := by
    rw [hplace, hplace', ← Extended.equal_iff hproper hproper', equal, hx, hy]
  rw [le, Bool.or_eq_true, lt_iff ha hb, hequal, le_iff_lt_or_eq]

theorem not_lt_nan (a : Double) : a.lt .nan = false := by
  unfold lt
  cases a.extended? <;> rfl

theorem not_le_nan (a : Double) : a.le .nan = false := by
  have hequal : a.equal .nan = false := by
    unfold equal
    cases a.extended? <;> rfl
  rw [le, not_lt_nan, hequal]
  rfl

theorem place_finite (m : ℕ) (e : ℤ) : (finite false m e).place = .of (m * 2 ^ e) := by
  change Line.of ((((shiftRatio m 1 e).1 : ℤ) : ℚ) / (shiftRatio m 1 e).2) = _
  rw [Int.cast_natCast, shiftRatio_one_cast]

theorem place_infinite : (infinite false).place = ⊤ := rfl

theorem place_zero : (zero false).place = .of 0 := by
  rw [zero, place_finite]
  simp

/-- a number with a minus is not above zero -/
theorem place_negative (m : ℕ) (e : ℤ) : (finite true m e).place ≤ .of 0 := by
  change Line.of ((-((shiftRatio m 1 e).1 : ℤ) : ℤ) / ((shiftRatio m 1 e).2 : ℚ)) ≤ _
  rw [Line.of_le_of, Int.cast_neg, neg_div, neg_nonpos, Int.cast_natCast]
  positivity

/-! ### Numbers by mantissa and exponent -/

/-- A mantissa and an exponent that make a number are not rounded, unless it is past the largest. -/
theorem ofDyadic_exact (s : Bool) (hj : 0 < j) (hj' : j < 2 ^ 53) (hf : minExponent ≤ f)
    (hx : (m : ℚ) * 2 ^ e = j * 2 ^ f) :
    ((m : ℚ) * 2 ^ e < 2 ^ (1024 : ℤ) ∧
      ∃ n g, ofDyadic s m e = .finite s n g ∧ (n : ℚ) * 2 ^ g = m * 2 ^ e) ∨
      ((2 : ℚ) ^ (1024 : ℤ) ≤ m * 2 ^ e ∧ ofDyadic s m e = .infinite s) := by
  have hj₁ : (1 : ℚ) ≤ j := by exact_mod_cast hj
  have hpow : (0 : ℚ) < 2 ^ e := zpow_pos two_pos e
  have hpos : 0 < (m : ℚ) * 2 ^ e := hx ▸ mul_pos (by linarith) (zpow_pos two_pos f)
  have hm : 0 < m := by exact_mod_cast pos_of_mul_pos_left hpos hpow.le
  obtain ⟨hlow, hhigh⟩ := log2_bounds hm
  have hleast : (2 : ℚ) ^ f ≤ m * 2 ^ e := hx ▸ le_mul_of_one_le_left (zpow_pos two_pos f).le hj₁
  have hsize : f < m.log2 + 1 + e := by
    refine two_zpow_lt_iff.1 (hleast.trans_lt ?_)
    rw [zpow_add₀ two_ne_zero]
    exact mul_lt_mul_of_pos_right hhigh hpow
  have hnear : ¬ (m = 0 ∨ (m.log2 : ℤ) + e < -1100) := by
    unfold minExponent at hf
    omega
  unfold ofDyadic
  dsimp only
  rw [if_neg hnear]
  split_ifs with hfar
  · refine .inr ⟨?_, rfl⟩
    calc (2 : ℚ) ^ (1024 : ℤ) ≤ 2 ^ ((m.log2 : ℤ) + e) := two_zpow_le_iff.2 (by omega)
      _ = 2 ^ (m.log2 : ℤ) * 2 ^ e := zpow_add₀ two_ne_zero ..
      _ ≤ m * 2 ^ e := mul_le_mul_of_nonneg_right hlow hpow.le
  · rw [← shiftRatio_one_cast]
    exact ofRatio_exact s (shiftRatio_pos one_pos e) hj hj' hf ((shiftRatio_one_cast m e).trans hx)

/-- where a positive rational lies if what is past the largest number lies at infinity -/
def capped (x : ℚ) : Line := if x < 2 ^ (1024 : ℤ) then .of x else ⊤

theorem capped_mono {x y : ℚ} (h : x ≤ y) : capped x ≤ capped y := by
  unfold capped
  split_ifs with hx hy
  · exact Line.of_le_of.2 h
  · exact le_top
  · exact absurd (h.trans_lt ‹_›) hx
  · exact le_rfl

theorem capped_pos {x : ℚ} (h : 0 < x) : .of 0 < capped x := by
  unfold capped
  split_ifs
  · exact Line.of_lt_of.2 h
  · exact Line.of_lt_top 0

theorem place_ofDyadic (hj : 0 < j) (hj' : j < 2 ^ 53) (hf : minExponent ≤ f)
    (hx : (m : ℚ) * 2 ^ e = j * 2 ^ f) :
    ofDyadic false m e ≠ .nan ∧ (ofDyadic false m e).place = capped (j * 2 ^ f) := by
  rcases ofDyadic_exact false hj hj' hf hx with ⟨hlt, n, g, heq, hvalue⟩ | ⟨hge, heq⟩
  · rw [heq, place_finite, hvalue, ← hx, capped, if_pos hlt]
    exact ⟨Double.noConfusion, rfl⟩
  · rw [heq, place_infinite, ← hx, capped, if_neg hge.not_gt]
    exact ⟨Double.noConfusion, rfl⟩

/-! ### Powers of two -/

/-- a number is itself among the rationals that are rounded to it -/
theorem catches_self (m : ℕ) (e : ℤ) : Catches m e (m * 2 ^ e) := by
  have hpow : (0 : ℚ) < 2 ^ e := zpow_pos two_pos e
  have hmargin := margin_pos m e
  have hlow : (m - margin m e) * 2 ^ e < m * 2 ^ e := mul_lt_mul_of_pos_right (by linarith) hpow
  have hhigh : m * 2 ^ e < ((m : ℚ) + 1 / 2) * 2 ^ e := mul_lt_mul_of_pos_right (by linarith) hpow
  exact ⟨hlow.le, hhigh.le, fun _ => ⟨hlow.ne', hhigh.ne⟩⟩

/-- a power of two up to the largest is a number -/
theorem timesPowerOfTwo_one (hk : 0 ≤ k) (hk' : k < 1024) :
    timesPowerOfTwo k (ofInt 1) = .finite false (2 ^ 52) (k - 52) := by
  have hone : ofInt 1 = .finite false (2 ^ 52) (-52) := by decide
  have hlog : Nat.log2 (2 ^ 52) = 52 := Nat.log2_two_pow
  have hnear : ¬ (2 ^ 52 = 0 ∨ ((Nat.log2 (2 ^ 52) : ℕ) : ℤ) + (-52 + k) < -1100) := by
    rw [hlog]
    omega
  have hfar : ¬ 1100 < ((Nat.log2 (2 ^ 52) : ℕ) : ℤ) + (-52 + k) := by
    rw [hlog]
    omega
  rw [hone, timesPowerOfTwo, ofDyadic]
  dsimp only
  rw [if_neg hnear, if_neg hfar, show -52 + k = k - 52 by ring]
  refine ofRatio_of_catches false ⟨by norm_num, .inl le_rfl, ?_, ?_⟩ (by positivity) (shiftRatio_pos one_pos _) ?_
  · unfold minExponent
    omega
  · unfold maxExponent
    omega
  · rw [shiftRatio_one_cast]
    exact catches_self _ _

/-- a number times a power of two -/
def scaled (d : Double) (k : ℤ) : Double := d.mul (timesPowerOfTwo k (ofInt 1))

/-- The number is positive, and in its one form. -/
inductive IsPositive : Double → Prop
  | infinite : IsPositive (.infinite false)
  | finite {m : ℕ} {e : ℤ} (fits : Fits m e) (pos : 0 < m) : IsPositive (.finite false m e)

theorem isPositive_of_lt (ha : a.IsCanonical) (h : (zero false).lt a = true) : a.IsPositive := by
  have hne : a ≠ .nan := by
    rintro rfl
    rw [not_lt_nan] at h
    cases h
  rw [lt_iff Double.noConfusion hne, place_zero] at h
  match a with
  | .infinite true => exact absurd h (Line.bot_lt_of 0).not_gt
  | .infinite false => exact .infinite
  | .finite true m e => exact absurd h (place_negative m e).not_gt
  | .finite false m e =>
    refine .finite ha (Nat.pos_of_ne_zero ?_)
    rintro rfl
    rw [place_finite, Line.of_lt_of] at h
    simp at h

/-- a positive number times a power of two lies where it should -/
theorem place_scaled_finite (hfits : Fits m e) (hm : 0 < m) (hk : 0 ≤ k) (hk' : k < 1024) :
    (finite false m e).scaled k ≠ .nan ∧ ((finite false m e).scaled k).place = capped (m * 2 ^ (e + k)) := by
  rw [scaled, timesPowerOfTwo_one hk hk']
  refine place_ofDyadic hm hfits.lt (by have := hfits.least; omega) ?_
  rw [show e + (k - 52) = e + k - 52 by ring, zpow_sub₀ two_ne_zero]
  push_cast
  field_simp

theorem scaled_infinite (hk : 0 ≤ k) (hk' : k < 1024) : (infinite false).scaled k = infinite false := by
  rw [scaled, timesPowerOfTwo_one hk hk']
  rfl

theorem IsPositive.scaled_pos (h : a.IsPositive) (hk : 0 ≤ k) (hk' : k < 1024) :
    a.scaled k ≠ .nan ∧ .of 0 < (a.scaled k).place := by
  cases h with
  | infinite =>
    rw [scaled_infinite hk hk']
    exact ⟨Double.noConfusion, Line.of_lt_top 0⟩
  | @finite m e fits pos =>
    obtain ⟨hne, hplace⟩ := place_scaled_finite fits pos hk hk'
    refine ⟨hne, hplace ▸ capped_pos (mul_pos ?_ (zpow_pos two_pos _))⟩
    exact_mod_cast pos

/-- the larger the power, the larger the product -/
theorem IsPositive.scaled_le (h : a.IsPositive) {l : ℤ} (hk : 0 ≤ k) (hkl : k ≤ l) (hl : l < 1024) :
    (a.scaled k).place ≤ (a.scaled l).place := by
  cases h with
  | infinite => rw [scaled_infinite hk (hkl.trans_lt hl), scaled_infinite (hk.trans hkl) hl]
  | @finite m e fits pos =>
    rw [(place_scaled_finite fits pos hk (hkl.trans_lt hl)).2, (place_scaled_finite fits pos (hk.trans hkl) hl).2]
    exact capped_mono (mul_le_mul_of_nonneg_left (two_zpow_le_iff.2 (by omega)) (Nat.cast_nonneg m))

end Double

end MeshOperator
