import SurvivalRules.Proofs.Drawing
import SurvivalRules.Proofs.Numeric.Order
import SurvivalRules.Gate

/-!
# Discounted prices

A share between zero and one takes a price to a number between zero and the price, which is rounded down.
A payment is the discount of the negated price, so it is the same number rounded up.
-/
namespace SurvivalRules

open Binary64

/-- What is left of a price, or of a negated price, before it is rounded to a whole number. -/
def discounted (n : ℤ) (share : ℚ) : ℚ := roundedValue (n * roundedValue (1 - share))

theorem discounted_neg (n : ℤ) (share : ℚ) : discounted (-n) share = -discounted n share := by
  simp [discounted, roundedValue_neg]

theorem exists_toRat?_of_isShare {x : Binary64} (h : GeneralBonuses.isShare x = true) :
    ∃ q, x.toRat? = some q ∧ 0 ≤ q ∧ q ≤ 1 := by
  simp only [GeneralBonuses.isShare, Bool.and_eq_true] at h
  obtain ⟨hlow, hhigh⟩ := h
  cases x with
  | nan => exact absurd hlow (by decide)
  | infinity negative => cases negative <;> revert hlow hhigh <;> decide
  | negativeZero => exact ⟨0, rfl, le_rfl, zero_le_one⟩
  | finite q hq =>
    have hpoint : (Amount.float (.finite q hq)).point? = some (.rational q) := rfl
    have hlow' := (Amount.le_iff_of_point? (Amount.point?_int 0) hpoint).mp hlow
    have hhigh' := (Amount.le_iff_of_point? hpoint (Amount.point?_int 1)).mp hhigh
    exact ⟨q, rfl, by simpa using hlow', by simpa using hhigh'⟩

theorem one_sub_float (x : Binary64) : (Amount.int 1).sub (.float x) = .ok (.float (sub (ofInt 1) x)) := by
  simp only [Amount.sub, Amount.combine, Amount.toBinary64_int (show (1 : ℤ).natAbs ≤ _ by decide)]
  rfl

section

variable {share : ℚ} (h0 : 0 ≤ share) (h1 : share ≤ 1)
include h0 h1

theorem roundedValue_one_sub_bounds :
    0 ≤ roundedValue (1 - share) ∧ roundedValue (1 - share) ≤ 1 := by
  have hone : roundedValue ((1 : ℤ) : ℚ) = ((1 : ℤ) : ℚ) := roundedValue_intCast (by decide)
  simp only [Int.cast_one] at hone
  refine ⟨roundedValue_nonneg (by linarith), ?_⟩
  calc roundedValue (1 - share) ≤ roundedValue 1 := roundedValue_mono (by linarith)
    _ = 1 := hone

theorem abs_mul_factor_le (n : ℤ) :
    |(n : ℚ) * roundedValue (1 - share)| ≤ n.natAbs := by
  obtain ⟨hlow, hhigh⟩ := roundedValue_one_sub_bounds h0 h1
  have habs : |(n : ℚ)| = (n.natAbs : ℚ) := by simp
  rw [abs_mul, abs_of_nonneg hlow, habs]
  exact mul_le_of_le_one_right (by positivity) hhigh

theorem discounted_bounds {n : ℤ} (hn : 0 ≤ n) (hbound : n.natAbs ≤ significandBound) :
    0 ≤ discounted n share ∧ discounted n share ≤ n := by
  obtain ⟨hlow, hhigh⟩ := roundedValue_one_sub_bounds h0 h1
  have hn' : (0 : ℚ) ≤ n := by exact_mod_cast hn
  refine ⟨roundedValue_nonneg (mul_nonneg hn' hlow), ?_⟩
  calc discounted n share ≤ roundedValue n := roundedValue_mono (mul_le_of_le_one_right hn' hhigh)
    _ = n := roundedValue_intCast hbound

theorem toRat?_one_sub {x : Binary64} (hx : x.toRat? = some share) :
    (sub (ofInt 1) x).toRat? = some (roundedValue (1 - share)) := by
  have hrange : |roundedValue (((1 : ℤ) : ℚ) - share)| < (2 : ℚ) ^ (1024 : ℤ) := by
    apply inRange_of_abs_le
    rw [abs_le]
    constructor <;> norm_num [significandBound] <;> linarith
  simpa using toRat?_sub (toRat?_ofInt (by decide)) hx hrange

theorem adjustedCost_of_share {x : Binary64} (hx : x.toRat? = some share) {n : ℤ}
    (hn : n.natAbs ≤ significandBound) :
    adjustedCost (.int n) (some (.float x)) = .ok (.int (discounted n share).floor) := by
  have hfactor := toRat?_one_sub h0 h1 hx
  have hproduct : (mul (ofInt n) (sub (ofInt 1) x)).toRat? = some (discounted n share) := by
    apply toRat?_mul (toRat?_ofInt hn) hfactor
    apply inRange_of_abs_le
    exact (abs_mul_factor_le h0 h1 n).trans (by exact_mod_cast hn)
  have hsub := one_sub_float x
  have hmul : (Amount.int n).mul (.float (sub (ofInt 1) x)) =
      .ok (.float (mul (ofInt n) (sub (ofInt 1) x))) := by
    simp only [Amount.mul, Amount.combine, Amount.toBinary64_int hn]
    rfl
  have hfloor := Amount.floor_float hproduct
  simp only [adjustedCost, hsub, hmul, hfloor, bind, Except.bind, pure, Except.pure]

/-- What is paid for a price is the discounted price rounded up. -/
theorem payment_of_share {x : Binary64} (hx : x.toRat? = some share) {n : ℤ}
    (hn : n.natAbs ≤ significandBound) :
    adjustedCost (.int (-n)) (some (.float x)) = .ok (.int (-⌈discounted n share⌉)) := by
  have hneg : (discounted (-n) share).floor = -⌈discounted n share⌉ := by
    have h : ⌊-discounted n share⌋ = -⌈discounted n share⌉ := Int.floor_neg
    rw [discounted_neg]
    exact h
  rw [adjustedCost_of_share h0 h1 hx (by simpa using hn), hneg]

end

section

variable {x y z : Binary64} {listPrice price : Amount}

theorem exists_toRat?_of_floor {n : ℤ} (h : (Amount.float x).floor = .ok n) :
    ∃ q, x.toRat? = some q ∧ n = q.floor := by
  cases x with
  | nan => cases h
  | infinity negative => cases h
  | negativeZero => exact ⟨0, rfl, (Except.ok.inj h).symm⟩
  | finite q hq => exact ⟨q, rfl, (Except.ok.inj h).symm⟩

theorem nonNegative_toBinary64 (h0 : Amount.zero.le listPrice = true) (h : listPrice.toBinary64 = .ok y) :
    NonNegative y := by
  cases listPrice with
  | int n =>
    rw [Amount.eq_ofInt_of_toBinary64 h]
    apply nonNegative_nearest
    rw [Amount.zero, Amount.le_int_iff] at h0
    exact_mod_cast h0
  | float x =>
    cases h
    exact h0

theorem Amount.mul_float (a : Amount) (z : Binary64) :
    a.mul (.float z) = a.toBinary64 >>= fun y => .ok (.float (y.mul z)) := by
  cases a <;> rfl

theorem Amount.point?_of_same {a b : Amount} {p : Point} (hb : b.point? = some p) (h : a.same b = true) :
    a.point? = some p := by
  unfold same at h
  rw [hb] at h
  cases ha : a.point? with
  | none =>
    rw [ha] at h
    cases h
  | some q =>
    rw [ha] at h
    exact congrArg some (of_decide_eq_true h)

theorem exists_of_toRat?_one_sub {f : ℚ} (h : (sub (ofInt 1) x).toRat? = some f) :
    ∃ share, x.toRat? = some share ∧ f = roundedValue (1 - share) := by
  have hone : (ofInt 1).toRat? = some ((1 : ℤ) : ℚ) := toRat?_ofInt (by decide)
  obtain ⟨p, share, hp, hshare, rfl⟩ := exists_of_toRat?_sub h
  cases hone.symm.trans hp
  exact ⟨share, hshare, by rw [Int.cast_one]⟩

/-- A discounted price is rounded in each step, and all that it is computed from is finite. -/
theorem exists_of_adjustedCost (h : adjustedCost listPrice (some (.float x)) = .ok price) :
    ∃ y p share, listPrice.toBinary64 = .ok y ∧ y.toRat? = some p ∧ x.toRat? = some share ∧
      price = .int (roundedValue (p * roundedValue (1 - share))).floor := by
  obtain ⟨factor, hfactor, h⟩ := bind_eq_ok_iff.mp h
  cases (one_sub_float x).symm.trans hfactor
  obtain ⟨product, hproduct, h⟩ := bind_eq_ok_iff.mp h
  rw [Amount.mul_float] at hproduct
  obtain ⟨y, hy, hproduct⟩ := bind_eq_ok_iff.mp hproduct
  cases hproduct
  obtain ⟨n, hfloor, h⟩ := bind_eq_ok_iff.mp h
  cases pure_eq_ok_iff.mp h
  obtain ⟨r, hr, rfl⟩ := exists_toRat?_of_floor hfloor
  obtain ⟨p, f, hp, hf, rfl⟩ := exists_of_toRat?_mul hr
  obtain ⟨share, hshare, rfl⟩ := exists_of_toRat?_one_sub hf
  exact ⟨y, p, share, hy, hp, hshare, rfl⟩

theorem nonneg_of_toBinary64 {p : ℚ} (h0 : Amount.zero.le listPrice = true) (h : listPrice.toBinary64 = .ok y)
    (hp : y.toRat? = some p) : 0 ≤ p :=
  (nonNegative_iff_of_toRat? hp).mp (nonNegative_toBinary64 h0 h)

/-- A discount lets a price be neither negative nor above the list price, unless the list price itself is rounded. -/
theorem adjustedCost_bounds (hx : GeneralBonuses.isShare x = true) (h0 : Amount.zero.le listPrice = true)
    (h : adjustedCost listPrice (some (.float x)) = .ok price) :
    Amount.zero.le price = true ∧
      ∀ y, listPrice.toBinary64 = .ok y → listPrice.same (.float y) = true → price.le listPrice = true := by
  obtain ⟨share, hshare, hlow, hhigh⟩ := exists_toRat?_of_isShare hx
  obtain ⟨hfactor0, hfactor1⟩ := roundedValue_one_sub_bounds hlow hhigh
  obtain ⟨y, p, share', hy, hp, hshare', rfl⟩ := exists_of_adjustedCost h
  cases hshare.symm.trans hshare'
  have hp0 := nonneg_of_toBinary64 h0 hy hp
  have hfloor0 : 0 ≤ (roundedValue (p * roundedValue (1 - share))).floor :=
    Rat.le_floor_iff.mpr (by simpa using roundedValue_nonneg (mul_nonneg hp0 hfactor0))
  have hfloorp : ((roundedValue (p * roundedValue (1 - share))).floor : ℚ) ≤ p :=
    calc ((roundedValue (p * roundedValue (1 - share))).floor : ℚ)
        ≤ roundedValue (p * roundedValue (1 - share)) := Rat.floor_le _
      _ ≤ roundedValue p := roundedValue_mono (mul_le_of_le_one_right hp0 hfactor1)
      _ = p := roundedValue_of_onGrid (onGrid_of_toRat? hp)
  refine ⟨Amount.le_int_iff.mpr hfloor0, fun y' hy' hsame => ?_⟩
  cases hy.symm.trans hy'
  rw [Amount.le_iff_of_point? (Amount.point?_int _) (Amount.point?_of_same (Amount.point?_float hp) hsame)]
  exact hfloorp

/-- The more is taken off, the less is asked for. -/
theorem adjustedCost_antitone {more : Binary64} {lower : Amount} (hmore : (Amount.float x).le (.float more) = true)
    (h0 : Amount.zero.le listPrice = true) (h : adjustedCost listPrice (some (.float x)) = .ok price)
    (hlower : adjustedCost listPrice (some (.float more)) = .ok lower) : lower.le price = true := by
  obtain ⟨y, p, share, hy, hp, hshare, rfl⟩ := exists_of_adjustedCost h
  obtain ⟨y', p', share', hy', hp', hshare', rfl⟩ := exists_of_adjustedCost hlower
  cases hy.symm.trans hy'
  cases hp.symm.trans hp'
  rw [Amount.le_iff_of_point? (Amount.point?_float hshare) (Amount.point?_float hshare')] at hmore
  have hfactor : roundedValue (1 - share') ≤ roundedValue (1 - share) := roundedValue_mono (by linarith)
  have hproduct := roundedValue_mono (mul_le_mul_of_nonneg_left hfactor (nonneg_of_toBinary64 h0 hy hp))
  exact Amount.le_int_iff.mpr (Int.floor_mono hproduct)

end

end SurvivalRules
