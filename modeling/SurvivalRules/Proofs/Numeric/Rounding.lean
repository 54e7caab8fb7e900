import Mathlib
import SurvivalRules.Numeric.Binary64

/-!
# Laws of correct rounding

Rounding to the nearest number of the format is monotone, commutes with the change of sign and leaves
every number of the format as it is.
-/
namespace SurvivalRules

namespace Numeric

theorem magnitude_eq_abs (q : ℚ) : magnitude q = |q| := by
  unfold magnitude
  split
  next h => rw [abs_of_neg h]
  next h => rw [abs_of_nonneg (not_lt.mp h)]

theorem nearestEven_bounds (q : ℚ) : q.floor ≤ nearestEven q ∧ nearestEven q ≤ q.floor + 1 := by
  unfold nearestEven
  dsimp only
  split_ifs <;> omega

theorem nearestEven_mono {p q : ℚ} (h : p ≤ q) : nearestEven p ≤ nearestEven q := by
  have hfloor : p.floor ≤ q.floor := Rat.floor_monotone h
  rcases hfloor.lt_or_eq with hlt | heq
  · have hp := (nearestEven_bounds p).2
    have hq := (nearestEven_bounds q).1
    omega
  · -- the same whole part: a larger rest is not rounded down where a smaller one is rounded up
    have hrest : p - p.floor ≤ q - q.floor := by rw [heq]; linarith
    unfold nearestEven
    dsimp only
    rw [heq] at hrest ⊢
    split_ifs <;> first | omega | linarith

@[simp] theorem nearestEven_intCast (n : ℤ) : nearestEven (n : ℚ) = n := by
  simp [nearestEven]

theorem floor_neg_of_floor_lt {q : ℚ} (h : (q.floor : ℚ) < q) : (-q).floor = -q.floor - 1 := by
  have hup : q < q.floor + 1 := Int.lt_floor_add_one q
  have hneg : ⌊-q⌋ = -q.floor - 1 := by
    rw [Int.floor_eq_iff]
    push_cast
    constructor <;> linarith
  exact hneg

theorem nearestEven_neg (q : ℚ) : nearestEven (-q) = -nearestEven q := by
  rcases (Int.floor_le q).lt_or_eq with hlt | heq
  · have hneg := floor_neg_of_floor_lt hlt
    have hrest : -q - ((-q).floor : ℚ) = 1 - (q - q.floor) := by
      rw [hneg]
      push_cast
      ring
    unfold nearestEven
    dsimp only
    rw [hrest, hneg]
    split_ifs <;> first | omega | linarith
  · have hq : ((q.floor : ℤ) : ℚ) = q := heq
    rw [← hq, ← Int.cast_neg, nearestEven_intCast, nearestEven_intCast]

theorem two_pow_binaryOrder_le {q : ℚ} (h : q ≠ 0) : (2 : ℚ) ^ binaryOrder q ≤ |q| := by
  rw [← magnitude_eq_abs]
  unfold binaryOrder
  dsimp only
  split
  · assumption
  · have hnum : q.num.natAbs ≠ 0 := by simpa using h
    have hden : (0 : ℚ) < q.den := by exact_mod_cast q.den_pos
    have hn := two_pow_log2_le hnum
    have hd := natCast_lt_two_pow q.den
    rw [← magnitude_mul_den] at hn
    -- the numerator is at least a power of two and the denominator below the next one of its own
    have hsplit : (2 : ℚ) ^ ((q.num.natAbs.log2 : ℤ) - q.den.log2 - 1) * (2 : ℚ) ^ ((q.den.log2 : ℤ) + 1)
        = (2 : ℚ) ^ (q.num.natAbs.log2 : ℤ) := by
      rw [← zpow_add₀ (by norm_num)]
      congr 1
      ring
    have hle := mul_le_mul_of_nonneg_left hd.le
      (by positivity : (0 : ℚ) ≤ (2 : ℚ) ^ ((q.num.natAbs.log2 : ℤ) - q.den.log2 - 1))
    rw [hsplit] at hle
    exact le_of_mul_le_mul_right (hle.trans hn) hden

theorem abs_lt_two_pow (q : ℚ) : |q| < (2 : ℚ) ^ (binaryOrder q + 1) := by
  rw [← magnitude_eq_abs]
  exact magnitude_lt_two_pow q

theorem binaryOrder_le {q : ℚ} {k : ℤ} (hq : q ≠ 0) (h : |q| < (2 : ℚ) ^ (k + 1)) :
    binaryOrder q ≤ k := by
  have hlt := (two_pow_binaryOrder_le hq).trans_lt h
  have := (zpow_lt_zpow_iff_right₀ (by norm_num : (1 : ℚ) < 2)).mp hlt
  omega

theorem binaryOrder_mono {p q : ℚ} (hp : p ≠ 0) (h : |p| ≤ |q|) : binaryOrder p ≤ binaryOrder q :=
  binaryOrder_le hp (h.trans_lt (abs_lt_two_pow q))

theorem binaryOrder_neg (q : ℚ) : binaryOrder (-q) = binaryOrder q := by
  by_cases hq : q = 0
  · simp [hq]
  · exact le_antisymm (binaryOrder_mono (by simpa using hq) (by simp)) (binaryOrder_mono hq (by simp))

end Numeric

namespace Binary64

open Numeric

theorem lastPlace_neg (q : ℚ) : lastPlace (-q) = lastPlace q := by
  simp [lastPlace, binaryOrder_neg]

theorem roundedValue_neg (q : ℚ) : roundedValue (-q) = -roundedValue q := by
  simp [roundedValue, lastPlace_neg, neg_div, nearestEven_neg]

@[simp] theorem roundedValue_zero : roundedValue 0 = 0 := by
  have h := nearestEven_intCast 0
  simp only [Int.cast_zero] at h
  simp [roundedValue, h]

/-- A multiple of the last place kept is not changed. -/
theorem roundedValue_of_multiple {q : ℚ} {m : ℤ} (h : q = m * (2 : ℚ) ^ lastPlace q) :
    roundedValue q = q := by
  have hpos : (0 : ℚ) < (2 : ℚ) ^ lastPlace q := by positivity
  have hdiv : q / (2 : ℚ) ^ lastPlace q = m := by
    rw [div_eq_iff hpos.ne']
    exact h
  rw [roundedValue, hdiv, nearestEven_intCast]
  exact h.symm

theorem exists_multiple {m e k : ℤ} (h : k ≤ e) :
    ∃ j : ℤ, (m : ℚ) * (2 : ℚ) ^ e = j * (2 : ℚ) ^ k := by
  obtain ⟨n, hn⟩ := Int.le.dest h
  refine ⟨m * 2 ^ n, ?_⟩
  rw [← hn, zpow_add₀ (by norm_num), zpow_natCast]
  push_cast
  ring

/-- Rounding leaves the numbers of the format as they are. -/
theorem roundedValue_of_onGrid {q : ℚ} (h : OnGrid q) : roundedValue q = q := by
  obtain ⟨-, m, e, hm, he, hq⟩ := h
  by_cases hzero : q = 0
  · simp [hzero]
  have hpos : (0 : ℚ) < (2 : ℚ) ^ e := by positivity
  have habs : |q| = (m.natAbs : ℚ) * (2 : ℚ) ^ e := by
    rw [hq, abs_mul, abs_of_pos hpos]
    simp
  have hbound : ((significandBound : ℕ) : ℚ) = (2 : ℚ) ^ (53 : ℤ) := by norm_num [significandBound]
  rcases hm.lt_or_eq with hlt | heq
  · -- fewer than 53 bits: the last place kept is not above the exponent
    have horder : binaryOrder q ≤ 52 + e := by
      apply binaryOrder_le hzero
      have hmq : (m.natAbs : ℚ) < (2 : ℚ) ^ (53 : ℤ) := by
        rw [← hbound]
        exact_mod_cast hlt
      rw [habs, show (52 : ℤ) + e + 1 = 53 + e by ring, zpow_add₀ (by norm_num)]
      exact mul_lt_mul_of_pos_right hmq hpos
    obtain ⟨j, hj⟩ := exists_multiple (m := m) (show lastPlace q ≤ e by unfold lastPlace; omega)
    exact roundedValue_of_multiple (hq.trans hj)
  · -- a full significand is twice a smaller one
    have hsign : m = 2 * (m / 2) := by unfold significandBound at heq; omega
    have hq' : q = ((m / 2 : ℤ) : ℚ) * (2 : ℚ) ^ (e + 1) := by
      rw [hq, zpow_add₀ (by norm_num), zpow_one]
      conv_lhs => rw [hsign]
      push_cast
      ring
    have horder : binaryOrder q ≤ 53 + e := by
      apply binaryOrder_le hzero
      rw [habs, heq, hbound, ← zpow_add₀ (by norm_num)]
      exact zpow_lt_zpow_right₀ (by norm_num) (by omega)
    obtain ⟨j, hj⟩ := exists_multiple (m := m / 2) (show lastPlace q ≤ e + 1 by unfold lastPlace; omega)
    exact roundedValue_of_multiple (hq'.trans hj)

theorem roundedValue_le_two_pow {q : ℚ} {k : ℤ} (hk : lastPlace q ≤ k) (h : q ≤ (2 : ℚ) ^ k) :
    roundedValue q ≤ (2 : ℚ) ^ k := by
  have hpos : (0 : ℚ) < (2 : ℚ) ^ lastPlace q := by positivity
  obtain ⟨j, hj⟩ := exists_multiple (m := 1) hk
  rw [Int.cast_one, one_mul] at hj
  have hle : nearestEven (q / (2 : ℚ) ^ lastPlace q) ≤ j :=
    nearestEven_le ((div_le_iff₀ hpos).mpr (hj ▸ h))
  rw [roundedValue, hj]
  exact mul_le_mul_of_nonneg_right (by exact_mod_cast hle) hpos.le

theorem two_pow_le_roundedValue {q : ℚ} {k : ℤ} (hk : lastPlace q ≤ k) (h : (2 : ℚ) ^ k ≤ q) :
    (2 : ℚ) ^ k ≤ roundedValue q := by
  have hpos : (0 : ℚ) < (2 : ℚ) ^ lastPlace q := by positivity
  obtain ⟨j, hj⟩ := exists_multiple (m := 1) hk
  rw [Int.cast_one, one_mul] at hj
  have hle : j ≤ nearestEven (q / (2 : ℚ) ^ lastPlace q) :=
    le_nearestEven ((le_div_iff₀ hpos).mpr (hj ▸ h))
  rw [roundedValue, hj]
  exact mul_le_mul_of_nonneg_right (by exact_mod_cast hle) hpos.le

theorem roundedValue_nonneg {q : ℚ} (h : 0 ≤ q) : 0 ≤ roundedValue q := by
  have hpos : (0 : ℚ) < (2 : ℚ) ^ lastPlace q := by positivity
  have hle : (0 : ℤ) ≤ nearestEven (q / (2 : ℚ) ^ lastPlace q) :=
    le_nearestEven (by simpa using div_nonneg h hpos.le)
  exact mul_nonneg (by exact_mod_cast hle) hpos.le

theorem roundedValue_mono_of_pos {p q : ℚ} (hp : 0 < p) (h : p ≤ q) :
    roundedValue p ≤ roundedValue q := by
  have hq : 0 < q := hp.trans_le h
  have horder : binaryOrder p ≤ binaryOrder q :=
    binaryOrder_mono hp.ne' (by rwa [abs_of_pos hp, abs_of_pos hq])
  rcases (show lastPlace p ≤ lastPlace q by unfold lastPlace; omega).lt_or_eq with hlt | heq
  · -- different last places: a power of two lies between
    have hpq : binaryOrder p + 1 ≤ binaryOrder q ∧ lastPlace q ≤ binaryOrder q := by
      unfold lastPlace at hlt ⊢
      omega
    have hlow := abs_lt_two_pow p
    have hhigh := two_pow_binaryOrder_le hq.ne'
    rw [abs_of_pos hp] at hlow
    rw [abs_of_pos hq] at hhigh
    have hstep := zpow_le_zpow_right₀ (by norm_num : (1 : ℚ) ≤ 2) hpq.1
    exact (roundedValue_le_two_pow (hlt.le.trans hpq.2) (hlow.le.trans hstep)).trans
      (two_pow_le_roundedValue hpq.2 hhigh)
  · have hpos : (0 : ℚ) < (2 : ℚ) ^ lastPlace q := by positivity
    have hle := nearestEven_mono (div_le_div_of_nonneg_right h hpos.le)
    rw [roundedValue, roundedValue, heq]
    exact mul_le_mul_of_nonneg_right (by exact_mod_cast hle) hpos.le

theorem roundedValue_mono {p q : ℚ} (h : p ≤ q) : roundedValue p ≤ roundedValue q := by
  rcases lt_trichotomy p 0 with hp | rfl | hp
  · rcases lt_or_ge q 0 with hq | hq
    · have hneg := roundedValue_mono_of_pos (neg_pos.mpr hq) (neg_le_neg h)
      rw [roundedValue_neg, roundedValue_neg] at hneg
      exact neg_le_neg_iff.mp hneg
    · have hneg := roundedValue_nonneg (neg_nonneg.mpr hp.le)
      rw [roundedValue_neg] at hneg
      exact (neg_nonneg.mp hneg).trans (roundedValue_nonneg hq)
  · rw [roundedValue_zero]
    exact roundedValue_nonneg h
  · exact roundedValue_mono_of_pos hp h

end Binary64

end SurvivalRules
