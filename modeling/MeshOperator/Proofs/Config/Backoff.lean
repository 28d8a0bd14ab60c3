import MeshOperator.Config
import MeshOperator.Proofs.Number.Scaling

/-!
# The delays between tries

The delays of a configuration are sound if the least is positive and not above the greatest, and every delay
lies between zero and the greatest, none above the one after it. A configuration is checked by comparing its
delays, and not-a-number fails no comparison: the delays of what is accepted are sound exactly if they are numbers.

* `Config.BacksOff`: sound delays.
* `Config.isChecked_of_ofEnvironment`: what the check of a configuration leaves.
* `Config.backsOff_iff`: which accepted configurations have sound delays.
-/

namespace MeshOperator

/-! ### Numbers that are read -/

namespace Double

theorem isCanonical_ofDecimal (negative : Bool) (digits : ℕ) (exponent : ℤ) :
    (ofDecimal negative digits exponent).IsCanonical := by
  unfold ofDecimal
  split_ifs
  · exact fits_zero
  · trivial
  · exact fits_zero
  · exact isCanonical_ofRatio _ _ one_pos
  · exact isCanonical_ofRatio _ _ (Nat.pow_pos (by decide))

end Double

theorem isCanonical_of_readDouble {s : List Char} {d : Double} (h : readDouble s = .ok d) : d.IsCanonical := by
  unfold readDouble at h
  dsimp only at h
  split_ifs at h
  · cases h
    trivial
  · cases h
    trivial
  · split at h
    · cases h
      exact Double.isCanonical_ofDecimal ..
    · cases h

namespace Config

variable {env : List (String × String)} {c : Config} {retry : ℤ}

theorem isCanonical_of_double {setting : String} {default d : Double} (hdefault : default.IsCanonical)
    (h : double env setting default = .ok d) : d.IsCanonical := by
  unfold double at h
  split at h
  · cases h
    exact hdefault
  · exact isCanonical_of_readDouble (orFault_eq_ok.1 h)

/-! ### What is accepted -/

/-- The delays are in their one form, and no comparison tells that they are out of order. -/
structure IsChecked (c : Config) : Prop where
  base : c.backoffBase.IsCanonical
  base_gt : c.backoffBase.le (.zero false) = false
  max_ge : c.backoffMax.lt c.backoffBase = false

theorem isChecked_of_ofEnvironment (h : ofEnvironment env = .ok c) : c.IsChecked := by
  simp only [ofEnvironment, bind_eq_ok] at h
  obtain ⟨_, -, _, -, _, -, _, -, base, hbase, _, -, h⟩ := h
  have hstandard : standard.backoffBase.IsCanonical := by decide +kernel
  have hcanonical : base.IsCanonical := isCanonical_of_double hstandard hbase
  unfold check at h
  split_ifs at h with hworkers hdelays
  · cases h
  · cases h
  · cases h
    simp only [Bool.or_eq_true, not_or, Bool.not_eq_true] at hdelays
    exact ⟨hcanonical, hdelays.1, hdelays.2⟩

/-! ### Sound delays -/

/-- The delays are positive and at most the greatest, and none is above the one after it. -/
structure BacksOff (c : Config) : Prop where
  base_pos : (Double.zero false).lt c.backoffBase = true
  base_le_max : c.backoffBase.le c.backoffMax = true
  pos : ∀ retry, 0 ≤ retry → (Double.zero false).lt (c.backoff retry) = true
  le_max : ∀ retry, 0 ≤ retry → (c.backoff retry).le c.backoffMax = true
  mono : ∀ retry, 0 ≤ retry → (c.backoff retry).le (c.backoff (retry + 1)) = true

section Delays

variable (hbase : c.backoffBase.IsPositive) (hmax : c.backoffMax ≠ .nan)
include hbase hmax

/-- before the limit a delay is the lesser of the base doubled with each retry and the greatest -/
theorem backoff_of_lt (hretry : 0 ≤ retry) (hlimit : retry < retryLimit) :
    c.backoff retry ≠ .nan ∧
      (c.backoff retry).place = min (c.backoffBase.scaled retry).place c.backoffMax.place := by
  obtain ⟨hne, -⟩ := hbase.scaled_pos hretry hlimit
  have hscaled : c.backoff retry =
      if c.backoffMax.lt (c.backoffBase.scaled retry) then c.backoffMax else c.backoffBase.scaled retry :=
    if_neg (not_le.2 hlimit)
  rw [hscaled]
  split_ifs with h
  · rw [Double.lt_iff hmax hne] at h
    exact ⟨hmax, (min_eq_right h.le).symm⟩
  · rw [Double.lt_iff hmax hne] at h
    exact ⟨hne, (min_eq_left (not_lt.1 h)).symm⟩

omit hbase hmax in
/-- from the limit on a delay is the greatest -/
theorem backoff_of_ge (hlimit : retryLimit ≤ retry) : c.backoff retry = c.backoffMax := if_pos hlimit

theorem backoff_ne_nan (hretry : 0 ≤ retry) : c.backoff retry ≠ .nan := by
  rcases lt_or_ge retry retryLimit with hlt | hge
  · exact (backoff_of_lt hbase hmax hretry hlt).1
  · rwa [backoff_of_ge hge]

theorem place_backoff_le (hretry : 0 ≤ retry) : (c.backoff retry).place ≤ c.backoffMax.place := by
  rcases lt_or_ge retry retryLimit with hlt | hge
  · rw [(backoff_of_lt hbase hmax hretry hlt).2]
    exact min_le_right ..
  · rw [backoff_of_ge hge]

theorem place_backoff_pos (hpos : .of 0 < c.backoffMax.place) (hretry : 0 ≤ retry) :
    .of 0 < (c.backoff retry).place := by
  rcases lt_or_ge retry retryLimit with hlt | hge
  · rw [(backoff_of_lt hbase hmax hretry hlt).2]
    exact lt_min (hbase.scaled_pos hretry hlt).2 hpos
  · rwa [backoff_of_ge hge]

theorem place_backoff_mono (hretry : 0 ≤ retry) : (c.backoff retry).place ≤ (c.backoff (retry + 1)).place := by
  rcases lt_or_ge (retry + 1) retryLimit with hlt | hge
  · rw [(backoff_of_lt hbase hmax hretry (by omega)).2, (backoff_of_lt hbase hmax (by omega) hlt).2]
    exact min_le_min_right _ (hbase.scaled_le hretry (by omega) hlt)
  · rw [backoff_of_ge hge]
    exact place_backoff_le hbase hmax hretry

end Delays

/-- **Sound delays.**  The delays of an accepted configuration are sound exactly if both its delays are numbers. -/
theorem backsOff_iff (h : ofEnvironment env = .ok c) :
    c.BacksOff ↔ c.backoffBase ≠ .nan ∧ c.backoffMax ≠ .nan := by
  constructor
  · intro hsound
    have hle := hsound.base_le_max
    constructor <;> intro hnan <;> rw [hnan] at hle
    · cases hle
    · rw [Double.not_le_nan] at hle
      cases hle
  · rintro ⟨hbase, hmax⟩
    obtain ⟨hcanonical, hgt, hge⟩ := isChecked_of_ofEnvironment h
    have hzero : Double.zero false ≠ .nan := Double.noConfusion
    have hbase_pos : (Double.zero false).lt c.backoffBase = true := by
      rw [Double.lt_iff hzero hbase, ← not_le, ← Double.le_iff hbase hzero, hgt]
      exact Bool.false_ne_true
    have hbase_le : c.backoffBase.place ≤ c.backoffMax.place := by
      rw [← not_lt, ← Double.lt_iff hmax hbase, hge]
      exact Bool.false_ne_true
    have hpositive := Double.isPositive_of_lt hcanonical hbase_pos
    have hmax_pos : Line.of 0 < c.backoffMax.place := by
      rw [Double.lt_iff hzero hbase, Double.place_zero] at hbase_pos
      exact hbase_pos.trans_le hbase_le
    refine ⟨hbase_pos, (Double.le_iff hbase hmax).2 hbase_le, fun retry hretry => ?_, fun retry hretry => ?_,
      fun retry hretry => ?_⟩
    · rw [Double.lt_iff hzero (backoff_ne_nan hpositive hmax hretry), Double.place_zero]
      exact place_backoff_pos hpositive hmax hmax_pos hretry
    · rw [Double.le_iff (backoff_ne_nan hpositive hmax hretry) hmax]
      exact place_backoff_le hpositive hmax hretry
    · rw [Double.le_iff (backoff_ne_nan hpositive hmax hretry) (backoff_ne_nan hpositive hmax (by omega))]
      exact place_backoff_mono hpositive hmax hretry

/-- an environment with the least delay that can be written, and no greatest -/
def unbounded : List (String × String) :=
  [("ISTIO_OPERATOR_BACKOFF_BASE_SECONDS", "5e-324"), ("ISTIO_OPERATOR_BACKOFF_MAX_SECONDS", "inf")]

/-- Its delays are sound, also from the retry on past which two to its power is past all numbers. -/
theorem backsOff_unbounded : ∃ c, ofEnvironment unbounded = .ok c ∧ c.BacksOff ∧
    c.backoff 0 = .finite false 1 Double.minExponent ∧ c.backoff 1023 = .finite false (2 ^ 52) (-103) ∧
    c.backoff 1024 = .infinite false := by
  obtain ⟨c, hc⟩ : ∃ c, ofEnvironment unbounded = .ok c := exists_of_isOk (by decide +kernel)
  have hdelays : (ofEnvironment unbounded).toOption.map (fun c => (c.backoffBase, c.backoffMax)) =
      some (.finite false 1 Double.minExponent, .infinite false) := by decide +kernel
  rw [hc] at hdelays
  obtain ⟨hbase, hmax⟩ := Prod.mk.inj (Option.some.inj hdelays)
  refine ⟨c, hc, (backsOff_iff hc).2 ⟨by simp [hbase], by simp [hmax]⟩, ?_, ?_, ?_⟩ <;>
    (rw [backoff, hbase, hmax]; decide +kernel)

/-- an environment with not-a-number for a delay -/
def nameless : List (String × String) := [("ISTIO_OPERATOR_BACKOFF_BASE_SECONDS", "nan")]

/-- It is accepted, and the delay is not positive. -/
theorem not_backsOff_nameless : ∃ c, ofEnvironment nameless = .ok c ∧
    (Double.zero false).lt c.backoffBase = false ∧ ¬ c.BacksOff := by
  obtain ⟨c, hc⟩ : ∃ c, ofEnvironment nameless = .ok c := exists_of_isOk (by decide +kernel)
  have hdelay : (ofEnvironment nameless).toOption.map (·.backoffBase) = some .nan := by decide +kernel
  rw [hc] at hdelay
  have hbase : c.backoffBase = .nan := Option.some.inj hdelay
  have hpos : (Double.zero false).lt c.backoffBase = false := by rw [hbase, Double.not_lt_nan]
  exact ⟨c, hc, hpos, fun h => Bool.false_ne_true (hpos.symm.trans h.base_pos)⟩

end Config

end MeshOperator
