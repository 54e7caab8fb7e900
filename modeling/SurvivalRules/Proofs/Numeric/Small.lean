import SurvivalRules.Proofs.Numeric.Binary64

/-!
# Numbers of bounded size

As long as magnitudes stay below a power of two that is far from the end of the format, no operation on
binary64 numbers leaves the format, and every rounding and every text of a number can be given.
-/
namespace SurvivalRules

/-- Powers of two up to this one are well inside the format, and so are sums and products below it. -/
def safeExponent : ℕ := 1000

namespace Binary64

/-- Rounding does not pass a power of two. -/
theorem abs_roundedValue_le_two_pow {q : ℚ} {k : ℕ} (h : |q| ≤ 2 ^ k) : |roundedValue q| ≤ 2 ^ k := by
  rcases eq_or_ne q 0 with rfl | hq
  · simp
  have hlast : lastPlace q ≤ k := by
    have horder : Numeric.binaryOrder q ≤ k := by
      refine Numeric.binaryOrder_le hq (h.trans_lt ?_)
      rw [← zpow_natCast]
      exact zpow_lt_zpow_right₀ (by norm_num) (by omega)
    unfold lastPlace
    omega
  have hup : ∀ p : ℚ, lastPlace p ≤ k → p ≤ 2 ^ k → roundedValue p ≤ 2 ^ k := by
    intro p hp hle
    have := roundedValue_le_two_pow hp (by rwa [zpow_natCast])
    rwa [zpow_natCast] at this
  obtain ⟨hlow, hhigh⟩ := abs_le.mp h
  have hneg := hup (-q) (by rwa [lastPlace_neg]) (by linarith)
  rw [roundedValue_neg] at hneg
  exact abs_le.mpr ⟨by linarith, hup q hlast hhigh⟩

/-- A finite number of magnitude at most `2 ^ k`. -/
def Below (x : Binary64) (k : ℕ) : Prop := ∃ q, x.toRat? = some q ∧ |q| ≤ 2 ^ k

instance (x : Binary64) (k : ℕ) : Decidable (x.Below k) :=
  match h : x.toRat? with
  | none => isFalse (by simp [Below, h])
  | some q => decidable_of_iff (|q| ≤ 2 ^ k) (by simp [Below, h])

variable {x y : Binary64} {j k : ℕ}

theorem Below.mono (h : x.Below j) (hjk : j ≤ k) : x.Below k := by
  obtain ⟨q, hq, hle⟩ := h
  exact ⟨q, hq, hle.trans (pow_le_pow_right₀ (by norm_num) hjk)⟩

theorem inRange_of_abs_le_two_pow {q : ℚ} (h : |q| ≤ 2 ^ k) (hk : k ≤ safeExponent) :
    |roundedValue q| < (2 : ℚ) ^ (1024 : ℤ) := by
  refine (abs_roundedValue_le_two_pow h).trans_lt ?_
  rw [← zpow_natCast]
  exact zpow_lt_zpow_right₀ (by norm_num) (by unfold safeExponent at hk; omega)

theorem below_ofInt {n : ℤ} (h : n.natAbs ≤ 2 ^ k) (hk : k ≤ 53) : (ofInt n).Below k := by
  have hfits : n.natAbs ≤ significandBound := h.trans (Nat.pow_le_pow_right (by norm_num) hk)
  refine ⟨n, toRat?_ofInt hfits, ?_⟩
  have habs : |(n : ℚ)| = (n.natAbs : ℚ) := by simp
  rw [habs]
  exact_mod_cast h

theorem Below.mul (hx : x.Below j) (hy : y.Below k) (hjk : j + k ≤ safeExponent) :
    (mul x y).Below (j + k) := by
  obtain ⟨p, hp, hpj⟩ := hx
  obtain ⟨q, hq, hqk⟩ := hy
  have hproduct : |p * q| ≤ 2 ^ (j + k) := by
    rw [abs_mul, pow_add]
    exact mul_le_mul hpj hqk (abs_nonneg q) (by positivity)
  exact ⟨_, toRat?_mul hp hq (inRange_of_abs_le_two_pow hproduct hjk),
    abs_roundedValue_le_two_pow hproduct⟩

theorem Below.sub (hx : x.Below k) (hy : y.Below k) (hk : k + 1 ≤ safeExponent) :
    (sub x y).Below (k + 1) := by
  obtain ⟨p, hp, hpk⟩ := hx
  obtain ⟨q, hq, hqk⟩ := hy
  have hdifference : |p - q| ≤ 2 ^ (k + 1) := by
    have hsum := (abs_sub p q).trans (add_le_add hpk hqk)
    rw [pow_succ]
    linarith
  exact ⟨_, toRat?_sub hp hq (inRange_of_abs_le_two_pow hdifference hk),
    abs_roundedValue_le_two_pow hdifference⟩

end Binary64

theorem natAbs_floor_le {q : ℚ} {n : ℕ} (h : |q| ≤ n) : q.floor.natAbs ≤ n := by
  obtain ⟨hlow, hhigh⟩ := abs_le.mp h
  have hup : ⌊q⌋ ≤ (n : ℤ) := by
    have hle : (⌊q⌋ : ℚ) ≤ n := (Int.floor_le q).trans hhigh
    exact_mod_cast hle
  have hdown : -(n : ℤ) ≤ ⌊q⌋ := Int.le_floor.mpr (by push_cast; exact hlow)
  have hfloor : q.floor = ⌊q⌋ := rfl
  omega

theorem Numeric.isWritable_of_le_two_pow {n : ℤ} {k : ℕ} (h : n.natAbs ≤ 2 ^ k)
    (hk : k ≤ safeExponent) : isWritable n = true := by
  have hgo := decimalLength_go_le n.natAbs.log2 n.natAbs
  have hlog : n.natAbs.log2 ≤ k := by
    by_cases hn : n.natAbs = 0
    · simp [hn]
    · have hlt := (Nat.log2_lt hn).mpr (h.trans_lt (Nat.pow_lt_pow_right (by norm_num) k.lt_succ_self))
      omega
  have hlength : decimalLength n.natAbs ≤ maxWholeDigits := by
    unfold safeExponent at hk
    unfold decimalLength maxWholeDigits
    omega
  exact decide_eq_true hlength

namespace Amount

open Binary64

theorem written_of_le_two_pow {n : ℤ} {k : ℕ} (h : n.natAbs ≤ 2 ^ k) (hk : k ≤ safeExponent) :
    (Amount.int n).written = .ok (Numeric.numeral n) :=
  written_of_isWritable (Numeric.isWritable_of_le_two_pow h hk)

theorem truncate_float {x : Binary64} {q : ℚ} (h : x.toRat? = some q) :
    (Amount.float x).truncate = .ok (Numeric.truncated q) := by
  cases x <;> simp_all [toRat?, truncate, wholePart]

theorem exists_floor {x : Binary64} {k : ℕ} (h : x.Below k) :
    ∃ n, (Amount.float x).floor = .ok n ∧ n.natAbs ≤ 2 ^ k := by
  obtain ⟨q, hq, hle⟩ := h
  exact ⟨_, floor_float hq, natAbs_floor_le (by exact_mod_cast hle)⟩

theorem exists_mul_float {n : ℤ} {x : Binary64} {j k : ℕ} (hn : n.natAbs ≤ 2 ^ j) (hj : j ≤ 53)
    (hx : x.Below k) (hjk : j + k ≤ safeExponent) :
    ∃ y, (Amount.int n).mul (.float x) = .ok (.float y) ∧ y.Below (j + k) := by
  have hfits : n.natAbs ≤ significandBound := hn.trans (Nat.pow_le_pow_right (by norm_num) hj)
  refine ⟨Binary64.mul (ofInt n) x, ?_, (below_ofInt hn hj).mul hx hjk⟩
  simp only [Amount.mul, combine, toBinary64_int hfits]
  rfl

theorem exists_divNat {n : ℤ} (h : n.natAbs ≤ significandBound) (m : ℕ) :
    ∃ x, (Amount.int n).divNat m = .ok x ∧ x.Below 53 := by
  have hle : |(n : ℚ) / m| ≤ 2 ^ 53 := by
    have habs : |(n : ℚ)| = (n.natAbs : ℚ) := by simp
    have hn : |(n : ℚ)| ≤ 2 ^ 53 := by
      rw [habs]
      exact_mod_cast h
    rcases Nat.eq_zero_or_pos m with rfl | hm
    · simp
    · rw [abs_div, Nat.abs_cast]
      exact (div_le_self (abs_nonneg _) (by exact_mod_cast hm)).trans hn
  have hrange := toRat?_nearest (inRange_of_abs_le_two_pow hle (by decide))
  unfold divNat
  simp only
  split
  next negative hinf =>
    rw [hinf] at hrange
    cases hrange
  next => exact ⟨_, rfl, _, hrange, abs_roundedValue_le_two_pow hle⟩

end Amount

end SurvivalRules
