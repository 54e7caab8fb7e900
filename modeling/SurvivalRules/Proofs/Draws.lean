import SurvivalRules.Proofs.Numeric.Order
import SurvivalRules.Proofs.Numeric.Small
import SurvivalRules.Resolve

/-!
# Draws and what they select

Every source gives numbers from zero up to but not including one. Such a number selects one of the whole
numbers of a range, and can be written in a trace.
-/
namespace SurvivalRules

open Binary64

theorem isDraw_cases {u : Amount} (h : isDraw u = true) :
    u = .int 0 ∨ ∃ x q, u = .float x ∧ x.toRat? = some q ∧ 0 ≤ q ∧ q < 1 := by
  simp only [isDraw, Bool.and_eq_true] at h
  obtain ⟨hlow, hhigh⟩ := h
  cases u with
  | int n =>
    rw [Amount.zero, Amount.le_int_iff] at hlow
    rw [Amount.lt_int_iff] at hhigh
    left
    rw [show n = 0 by omega]
  | float x =>
    right
    cases x with
    | nan => exact absurd hlow (by decide)
    | infinity negative =>
      cases negative with
      | true => exact absurd hlow (by decide)
      | false => exact absurd hhigh (by decide)
    | negativeZero => exact ⟨_, 0, rfl, rfl, le_rfl, zero_lt_one⟩
    | finite q hq =>
      have hpoint : (Amount.float (.finite q hq)).point? = some (.rational q) := rfl
      have hlow' := (Amount.le_iff_of_point? (Amount.point?_int 0) hpoint).mp hlow
      have hhigh' := (Amount.lt_iff_of_point? hpoint (Amount.point?_int 1)).mp hhigh
      exact ⟨_, q, rfl, rfl, by simpa using hlow', by simpa using hhigh'⟩

theorem isDraw_of_toRat? {x : Binary64} {q : ℚ} (h : x.toRat? = some q) (hlow : 0 ≤ q) (hhigh : q < 1) :
    isDraw (.float x) = true := by
  have hpoint := Amount.point?_float h
  simp only [isDraw, Bool.and_eq_true, Amount.zero]
  rw [Amount.le_iff_of_point? (Amount.point?_int 0) hpoint,
    Amount.lt_iff_of_point? hpoint (Amount.point?_int 1)]
  exact ⟨by simpa using hlow, by simpa using hhigh⟩

/-- A multiple of `2 ^ -53` below one is a number of the format. -/
theorem onGrid_fraction {m : ℕ} (h : m < significandBound) : OnGrid ((m : ℚ) / significandBound) := by
  have hscale : ((significandBound : ℕ) : ℚ) = (2 : ℚ) ^ (53 : ℤ) := by norm_num [significandBound]
  have hlt : (m : ℚ) / significandBound < 1 := by
    rw [div_lt_one (by rw [hscale]; positivity)]
    exact_mod_cast h
  refine ⟨?_, m, -53, by simpa using h.le, by decide, ?_⟩
  · rw [Numeric.magnitude_eq_abs, abs_of_nonneg (by positivity)]
    exact hlt.trans (one_lt_zpow₀ (by norm_num) (by norm_num))
  · rw [hscale, div_eq_mul_inv, ← zpow_neg]
    norm_cast

theorem Twister.isDraw_next (t : Twister) : isDraw (.float t.next.1) = true := by
  rcases ha : t.nextWord with ⟨a, t₁⟩
  rcases hb : t₁.nextWord with ⟨b, t₂⟩
  have hnext : t.next.1 = nearest ((numerator a b : ℚ) / significandBound) := by
    simp only [Twister.next, ha, hb]
  have hlt := numerator_lt a b
  have hgrid := onGrid_fraction hlt
  have hround := roundedValue_of_onGrid hgrid
  have hrat : t.next.1.toRat? = some ((numerator a b : ℚ) / significandBound) := by
    have hrange := hgrid.1
    rw [Numeric.magnitude_eq_abs] at hrange
    rw [hnext, toRat?_nearest (by rwa [hround]), hround]
  refine isDraw_of_toRat? hrat (by positivity) ?_
  rw [div_lt_one (by norm_num [significandBound])]
  exact_mod_cast hlt

theorem Draws.isDraw_next (d : Draws) : isDraw d.next.1 = true := by
  cases d with
  | replay r => exact Value.isDraw_drawn r.isDraw_nextValue
  | seeded t => exact t.isDraw_next

theorem exists_placesText_of_isDraw {u : Amount} (h : isDraw u = true) :
    ∃ text, placesText u = .ok text := by
  rcases isDraw_cases h with rfl | ⟨x, q, rfl, -⟩
  · have hzero := Amount.toBinary64_int (show (0 : ℤ).natAbs ≤ significandBound by decide)
    exact ⟨(ofInt 0).toPlaces 4, by simp only [placesText, hzero]; rfl⟩
  · exact ⟨x.toPlaces 4, rfl⟩

/-- A span that binary64 can hold, if not exactly, gives every draw a number of the range. -/
theorem RandomRange.exists_draw_of_toRat? (r : RandomRange) {m : ℚ} (hspan : (ofInt r.span).toRat? = some m)
    {u : Amount} (hu : isDraw u = true) : ∃ n, r.draw u = .ok n ∧ r.low ≤ n ∧ n ≤ r.high := by
  have hpos := r.span_pos
  have hselect : ∀ k : ℤ, 0 ≤ k →
      r.low ≤ r.low + min k (r.span - 1) ∧ r.low + min k (r.span - 1) ≤ r.high := by
    intro k hk
    have hdef : r.span = r.high - r.low + 1 := rfl
    omega
  rcases isDraw_cases hu with rfl | ⟨x, q, rfl, hq, hlow, hhigh⟩
  · have hscaled : (Amount.int 0).mul (.int r.span) = .ok (.int 0) := by
      rw [Amount.mul_int, zero_mul]
    refine ⟨r.low + min 0 (r.span - 1), ?_, hselect 0 le_rfl⟩
    simp only [RandomRange.draw, hscaled, bind, Except.bind]
    rfl
  · have hgrid := onGrid_of_toRat? hspan
    have hm : 0 ≤ m := by
      rw [roundedValue_of_nearest hspan]
      exact roundedValue_nonneg (by exact_mod_cast hpos.le)
    -- the exact product lies between zero and the rounded span, so rounding it stays there, too
    have hproduct_nonneg : 0 ≤ roundedValue (q * m) := roundedValue_nonneg (mul_nonneg hlow hm)
    have hproduct_le : roundedValue (q * m) ≤ m :=
      (roundedValue_mono (mul_le_of_le_one_left hm hhigh.le)).trans (roundedValue_of_onGrid hgrid).le
    have hrange : |roundedValue (q * m)| < (2 : ℚ) ^ (1024 : ℤ) := by
      have hbound := hgrid.1
      rw [Numeric.magnitude_eq_abs, abs_of_nonneg hm] at hbound
      rw [abs_of_nonneg hproduct_nonneg]
      exact hproduct_le.trans_lt hbound
    have hscaled : (Amount.float x).mul (.int r.span) = .ok (.float (mul x (ofInt r.span))) := by
      simp only [Amount.mul, Amount.combine, Amount.toBinary64_of_toRat? hspan]
      rfl
    have htruncated : 0 ≤ Numeric.truncated (roundedValue (q * m)) := by
      rw [Numeric.truncated, if_neg (not_lt.mpr hproduct_nonneg)]
      exact Int.floor_nonneg.mpr hproduct_nonneg
    refine ⟨_, ?_, hselect _ htruncated⟩
    simp only [RandomRange.draw, hscaled, Amount.truncate_float (toRat?_mul hq hspan hrange), bind, Except.bind]
    rfl

/-- A draw selects a number of the range. -/
theorem RandomRange.exists_draw (r : RandomRange) (hspan : r.span.natAbs ≤ significandBound) {u : Amount}
    (hu : isDraw u = true) : ∃ n, r.draw u = .ok n ∧ r.low ≤ n ∧ n ≤ r.high :=
  r.exists_draw_of_toRat? (toRat?_ofInt hspan) hu

end SurvivalRules
