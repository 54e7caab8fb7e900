import SurvivalRules.Proofs.Numeric.Rounding
import SurvivalRules.Numeric.Amount

/-!
# Laws of binary64 arithmetic

Inside the range of the format every operation is the exact one followed by one rounding. Whole numbers up
to `2 ^ 53` are numbers of the format, so they are converted and compared without loss.
-/
namespace SurvivalRules

open Numeric

namespace Binary64

theorem significandBound_lt_range : (significandBound : ℚ) < (2 : ℚ) ^ (1024 : ℤ) := by
  have h : (significandBound : ℚ) = (2 : ℚ) ^ (53 : ℤ) := by norm_num [significandBound]
  rw [h]
  exact zpow_lt_zpow_right₀ (by norm_num) (by norm_num)

theorem onGrid_intCast {n : ℤ} (h : n.natAbs ≤ significandBound) : OnGrid (n : ℚ) := by
  refine ⟨?_, n, 0, h, by norm_num, by simp⟩
  rw [magnitude_eq_abs]
  have habs : |(n : ℚ)| = (n.natAbs : ℚ) := by simp
  have hle : (n.natAbs : ℚ) ≤ significandBound := by exact_mod_cast h
  exact (habs ▸ hle).trans_lt significandBound_lt_range

theorem roundedValue_intCast {n : ℤ} (h : n.natAbs ≤ significandBound) :
    roundedValue (n : ℚ) = n :=
  roundedValue_of_onGrid (onGrid_intCast h)

/-- A whole number is rounded to a whole number. -/
theorem exists_roundedValue_intCast (n : ℤ) : ∃ m : ℤ, roundedValue (n : ℚ) = m := by
  by_cases hsmall : n.natAbs ≤ significandBound
  · exact ⟨n, roundedValue_intCast hsmall⟩
  -- a number that needs more than 53 bits keeps no place behind the point
  · have hlarge : (2 : ℚ) ^ (53 : ℤ) ≤ |(n : ℚ)| := by
      have habs : |(n : ℚ)| = (n.natAbs : ℚ) := by simp
      have hbound : (2 : ℚ) ^ (53 : ℤ) = (significandBound : ℚ) := by norm_num [significandBound]
      rw [habs, hbound]
      exact_mod_cast (not_le.mp hsmall).le
    have horder := (zpow_lt_zpow_iff_right₀ (by norm_num : (1 : ℚ) < 2)).mp (hlarge.trans_lt (abs_lt_two_pow n))
    obtain ⟨m, hm⟩ := exists_multiple (m := nearestEven ((n : ℚ) / (2 : ℚ) ^ lastPlace n))
      (show 0 ≤ lastPlace (n : ℚ) by unfold lastPlace; omega)
    exact ⟨m, by rw [roundedValue, hm, zpow_zero, mul_one]⟩

theorem abs_roundedValue_le {q : ℚ} {n : ℕ} (hn : n ≤ significandBound) (h : |q| ≤ n) :
    |roundedValue q| ≤ n := by
  have hn' : ((n : ℤ)).natAbs ≤ significandBound := by simpa using hn
  have hfix := roundedValue_intCast hn'
  simp only [Int.cast_natCast] at hfix
  have hup := roundedValue_mono (abs_le.mp h).2
  have hdown := roundedValue_mono (abs_le.mp h).1
  rw [roundedValue_neg] at hdown
  rw [hfix] at hup hdown
  exact abs_le.mpr ⟨hdown, hup⟩

theorem inRange_of_abs_le {q : ℚ} (h : |q| ≤ significandBound) :
    |roundedValue q| < (2 : ℚ) ^ (1024 : ℤ) :=
  (abs_roundedValue_le le_rfl h).trans_lt significandBound_lt_range

theorem nearest_eq_finite {q : ℚ} (hq : OnGrid q) (hne : q ≠ 0) : nearest q = .finite q hq := by
  have hround := roundedValue_of_onGrid hq
  unfold nearest
  simp only [hround]
  rw [if_neg hne, dif_pos hq.1]

theorem ofInt_eq_finite {n : ℤ} (h : n.natAbs ≤ significandBound) :
    ofInt n = .finite n (onGrid_intCast h) := by
  by_cases hn : n = 0
  · subst hn
    simp [ofInt, nearest, signedZero, zero]
  · exact nearest_eq_finite _ (by exact_mod_cast hn)

theorem toRat?_ofInt {n : ℤ} (h : n.natAbs ≤ significandBound) : (ofInt n).toRat? = some (n : ℚ) := by
  rw [ofInt_eq_finite h]
  rfl

theorem toRat?_signedZero (negative : Bool) : (signedZero negative).toRat? = some 0 := by
  cases negative <;> rfl

theorem toRat?_nearest {q : ℚ} (h : |roundedValue q| < (2 : ℚ) ^ (1024 : ℤ)) :
    (nearest q).toRat? = some (roundedValue q) := by
  rw [← magnitude_eq_abs] at h
  unfold nearest
  by_cases hzero : roundedValue q = 0
  · simp [hzero, toRat?_signedZero]
  · simp only [hzero, ↓reduceIte]
    rw [dif_pos h]
    rfl

theorem toRat?_neg {x : Binary64} {p : ℚ} (h : x.toRat? = some p) : (neg x).toRat? = some (-p) := by
  cases x with
  | finite q hq =>
    simp only [toRat?, Option.some.injEq] at h
    subst h
    by_cases hzero : q = 0 <;> simp [neg, toRat?, hzero]
  | negativeZero =>
    simp only [toRat?, Option.some.injEq] at h
    subst h
    simp [neg, toRat?, zero]
  | _ => simp [toRat?] at h

theorem add_eq_nearest {x y : Binary64} {p q : ℚ} (hx : x.toRat? = some p) (hy : y.toRat? = some q)
    (hzeros : ¬ (x = .negativeZero ∧ y = .negativeZero)) : add x y = nearest (p + q) := by
  cases x <;> cases y <;> simp_all [add, toRat?]

theorem toRat?_add {x y : Binary64} {p q : ℚ} (hx : x.toRat? = some p) (hy : y.toRat? = some q)
    (h : |roundedValue (p + q)| < (2 : ℚ) ^ (1024 : ℤ)) :
    (add x y).toRat? = some (roundedValue (p + q)) := by
  by_cases hzeros : x = .negativeZero ∧ y = .negativeZero
  · obtain ⟨rfl, rfl⟩ := hzeros
    simp only [toRat?, Option.some.injEq] at hx hy
    subst hx hy
    simp [add, toRat?]
  · rw [add_eq_nearest hx hy hzeros, toRat?_nearest h]

theorem infinity_add {y : Binary64} {q : ℚ} (hy : y.toRat? = some q) (negative : Bool) :
    add (.infinity negative) y = .infinity negative := by
  cases y <;> simp_all [add, toRat?]

theorem add_infinity {x : Binary64} {p : ℚ} (hx : x.toRat? = some p) (negative : Bool) :
    add x (.infinity negative) = .infinity negative := by
  cases x <;> simp_all [add, toRat?]

theorem toRat?_sub {x y : Binary64} {p q : ℚ} (hx : x.toRat? = some p) (hy : y.toRat? = some q)
    (h : |roundedValue (p - q)| < (2 : ℚ) ^ (1024 : ℤ)) :
    (sub x y).toRat? = some (roundedValue (p - q)) := by
  rw [sub_eq_add_neg] at h ⊢
  exact toRat?_add hx (toRat?_neg hy) h

theorem sub_ofInt {m n : ℤ} (hm : m.natAbs ≤ significandBound) (hn : n.natAbs ≤ significandBound) :
    sub (ofInt m) (ofInt n) = ofInt (m - n) := by
  have hne : ¬ (ofInt m = .negativeZero ∧ neg (ofInt n) = .negativeZero) := by
    simp [ofInt_eq_finite hm]
  rw [sub, add_eq_nearest (toRat?_ofInt hm) (toRat?_neg (toRat?_ofInt hn)) hne, ofInt, Int.cast_sub,
    sub_eq_add_neg]

theorem ofInt_zero : ofInt 0 = zero := by
  decide +kernel

theorem mul_of_toRat? {x y : Binary64} {p q : ℚ} (hx : x.toRat? = some p) (hy : y.toRat? = some q) :
    mul x y = if p * q = 0 then signedZero (x.isNegative != y.isNegative) else nearest (p * q) := by
  cases x <;> cases y <;> simp_all [mul, toRat?]

theorem toRat?_mul {x y : Binary64} {p q : ℚ} (hx : x.toRat? = some p) (hy : y.toRat? = some q)
    (h : |roundedValue (p * q)| < (2 : ℚ) ^ (1024 : ℤ)) :
    (mul x y).toRat? = some (roundedValue (p * q)) := by
  rw [mul_of_toRat? hx hy]
  split
  next hzero => rw [hzero, toRat?_signedZero, roundedValue_zero]
  next => exact toRat?_nearest h

theorem point?_of_toRat? {x : Binary64} {q : ℚ} (h : x.toRat? = some q) :
    x.point? = some (.rational q) := by
  cases x <;> simp_all [toRat?, point?]

end Binary64

theorem Numeric.decimalLength_go_le (fuel n : ℕ) : decimalLength.go fuel n ≤ fuel + 1 := by
  induction fuel generalizing n with
  | zero => simp [decimalLength.go]
  | succ fuel ih =>
    unfold decimalLength.go
    split
    · omega
    · have := ih (n / 10)
      omega

/-- Whole numbers that binary64 holds exactly are short enough to be written. -/
theorem Numeric.isWritable_of_le {n : ℤ} (h : n.natAbs ≤ significandBound) : isWritable n = true := by
  have hgo := decimalLength_go_le n.natAbs.log2 n.natAbs
  have hlog : n.natAbs.log2 ≤ 53 := by
    by_cases hn : n.natAbs = 0
    · simp [hn]
    · have := (Nat.log2_lt hn).mpr (show n.natAbs < 2 ^ 54 by unfold significandBound at h; omega)
      omega
  have hlength : decimalLength n.natAbs ≤ maxWholeDigits := by
    unfold decimalLength maxWholeDigits
    omega
  exact decide_eq_true hlength

namespace Amount

open Binary64

theorem toBinary64_int {n : ℤ} (h : n.natAbs ≤ significandBound) :
    (Amount.int n).toBinary64 = .ok (ofInt n) := by
  simp [toBinary64, ofInt_eq_finite h]

theorem floor_float {x : Binary64} {q : ℚ} (h : x.toRat? = some q) :
    (Amount.float x).floor = .ok q.floor := by
  cases x <;> simp_all [toRat?, floor, wholePart]

theorem le_iff_of_point? {a b : Amount} {p q : ℚ} (ha : a.point? = some (.rational p))
    (hb : b.point? = some (.rational q)) : a.le b = true ↔ p ≤ q := by
  simp [le, ha, hb, Point.lt]

theorem lt_iff_of_point? {a b : Amount} {p q : ℚ} (ha : a.point? = some (.rational p))
    (hb : b.point? = some (.rational q)) : a.lt b = true ↔ p < q := by
  simp [lt, ha, hb, Point.lt]

theorem point?_float {x : Binary64} {q : ℚ} (h : x.toRat? = some q) :
    (Amount.float x).point? = some (.rational q) :=
  point?_of_toRat? h

theorem point?_int (n : ℤ) : (Amount.int n).point? = some (.rational n) := rfl

theorem le_int_iff {a b : ℤ} : (Amount.int a).le (.int b) = true ↔ a ≤ b := by
  rw [le_iff_of_point? (point?_int a) (point?_int b)]
  exact_mod_cast Iff.rfl

theorem lt_int_iff {a b : ℤ} : (Amount.int a).lt (.int b) = true ↔ a < b := by
  rw [lt_iff_of_point? (point?_int a) (point?_int b)]
  exact_mod_cast Iff.rfl

theorem le_ofInt_zero_iff {n : ℤ} (hn : n.natAbs ≤ significandBound) :
    (Amount.float (Binary64.ofInt n)).le .zero = true ↔ n ≤ 0 := by
  rw [zero, le_iff_of_point? (point?_float (Binary64.toRat?_ofInt hn)) (point?_int 0)]
  exact_mod_cast Iff.rfl

theorem zero_lt_ofInt_iff {n : ℤ} (hn : n.natAbs ≤ significandBound) :
    Amount.zero.lt (.float (Binary64.ofInt n)) = true ↔ 0 < n := by
  rw [zero, lt_iff_of_point? (point?_int 0) (point?_float (Binary64.toRat?_ofInt hn))]
  exact_mod_cast Iff.rfl

end Amount

end SurvivalRules
