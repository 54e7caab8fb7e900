import SurvivalRules.Proofs.Numeric.Order

/-!
# What vanishes

Rounding leaves something positive of a number only if it is more than half of the smallest positive number of
the format.
-/
namespace SurvivalRules

open Numeric

theorem Numeric.one_le_nearestEven {q : ℚ} (h : 1 / 2 < q) : 1 ≤ nearestEven q := by
  have hbounds := (nearestEven_bounds q).1
  have hfloor : 0 ≤ q.floor := Rat.le_floor_iff.mpr (by simpa using (by norm_num : (0 : ℚ) ≤ 1 / 2).trans h.le)
  by_cases hzero : q.floor = 0
  · unfold nearestEven
    simp only [hzero, Int.cast_zero, sub_zero]
    rw [if_neg h.le.not_gt, if_pos h]
    decide
  · omega

namespace Binary64

theorem lastPlace_of_le {q : ℚ} (hq : q ≠ 0) (h : |q| ≤ (2 : ℚ) ^ (-1074 : ℤ)) : lastPlace q = -1074 := by
  have horder : binaryOrder q ≤ -1074 :=
    binaryOrder_le hq (h.trans_lt (zpow_lt_zpow_right₀ (by norm_num) (by norm_num)))
  unfold lastPlace
  omega

/-- Rounding gives something positive of what is more than half of the smallest positive number. -/
theorem roundedValue_nonpos_iff {q : ℚ} : roundedValue q ≤ 0 ↔ q ≤ (2 : ℚ) ^ (-1075 : ℤ) := by
  have hunit : (0 : ℚ) < (2 : ℚ) ^ (-1074 : ℤ) := by positivity
  have hstep : (2 : ℚ) ^ (-1075 : ℤ) = 1 / 2 * (2 : ℚ) ^ (-1074 : ℤ) := by
    rw [show (-1075 : ℤ) = -1 + -1074 by norm_num, zpow_add₀ (by norm_num)]
    norm_num
  have hplace : ∀ p : ℚ, 0 < p → p ≤ (2 : ℚ) ^ (-1074 : ℤ) →
      roundedValue p = nearestEven (p / (2 : ℚ) ^ (-1074 : ℤ)) * (2 : ℚ) ^ (-1074 : ℤ) := by
    intro p hp hle
    rw [roundedValue, lastPlace_of_le hp.ne' (by rwa [abs_of_pos hp])]
  constructor
  · intro h
    by_contra! hq
    -- up to the smallest positive number there is one step, and more than half of it is rounded up
    have hlow : 1 / 2 * (2 : ℚ) ^ (-1074 : ℤ) < min q ((2 : ℚ) ^ (-1074 : ℤ)) :=
      lt_min (hstep ▸ hq) (by linarith)
    have hround := hplace _ (by linarith) (min_le_right q _)
    have hone : 1 ≤ nearestEven (min q ((2 : ℚ) ^ (-1074 : ℤ)) / (2 : ℚ) ^ (-1074 : ℤ)) :=
      one_le_nearestEven ((lt_div_iff₀ hunit).mpr hlow)
    have hpos : 0 < roundedValue (min q ((2 : ℚ) ^ (-1074 : ℤ))) := by
      rw [hround]
      exact mul_pos (by exact_mod_cast hone) hunit
    have hmono := roundedValue_mono (min_le_left q ((2 : ℚ) ^ (-1074 : ℤ)))
    linarith
  · intro h
    have hhalf : roundedValue ((2 : ℚ) ^ (-1075 : ℤ)) = 0 := by
      rw [hplace _ (by positivity) (zpow_le_zpow_right₀ (by norm_num) (by norm_num)), hstep,
        mul_div_assoc, div_self hunit.ne', mul_one, show nearestEven (1 / 2) = 0 by decide +kernel]
      simp
    exact (roundedValue_mono h).trans hhalf.le

theorem nearest_le_zero_iff (q : ℚ) :
    (Amount.float (nearest q)).le .zero = true ↔ q ≤ (2 : ℚ) ^ (-1075 : ℤ) := by
  by_cases hrange : |roundedValue q| < (2 : ℚ) ^ (1024 : ℤ)
  · rw [Amount.zero, Amount.le_iff_of_point? (Amount.point?_float (toRat?_nearest hrange)) (Amount.point?_int 0),
      Int.cast_zero, roundedValue_nonpos_iff]
  · rw [nearest_of_beyond hrange]
    have htiny : (0 : ℚ) < (2 : ℚ) ^ (-1075 : ℤ) := by positivity
    by_cases hneg : q < 0
    · simp only [hneg, decide_true]
      exact iff_of_true (by decide) (hneg.trans htiny).le
    · have hbeyond : ¬ q ≤ (2 : ℚ) ^ (-1075 : ℤ) := by
        intro hle
        have hzero : roundedValue q = 0 :=
          le_antisymm (roundedValue_nonpos_iff.mpr hle) (roundedValue_nonneg (not_lt.mp hneg))
        rw [hzero, abs_zero] at hrange
        exact hrange (by positivity)
      simp only [hneg, decide_false]
      exact iff_of_false (by decide) hbeyond

end Binary64

end SurvivalRules
