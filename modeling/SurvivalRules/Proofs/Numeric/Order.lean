import SurvivalRules.Proofs.Numeric.Binary64

/-!
# The order of amounts

Amounts stand on one line, not-a-number beside it. What is taken off and is not negative leaves no more, and
the difference is not-a-number only where a side is or where an infinity is taken from itself.
-/
namespace SurvivalRules

open Numeric

namespace Point

theorem not_lt_trans {p q r : Point} (hpq : q.lt p = false) (hqr : r.lt q = false) :
    r.lt p = false := by
  cases p <;> cases q <;> cases r <;> simp_all [lt]
  exact hpq.trans hqr

theorem lt_of_not_lt_of_lt {p q r : Point} (hpq : q.lt p = false) (hqr : q.lt r = true) : p.lt r = true := by
  cases p <;> cases q <;> cases r <;> simp_all [lt]
  exact hpq.trans_lt hqr

theorem lt_asymm {p q : Point} (h : p.lt q = true) : q.lt p = false := by
  cases p <;> cases q <;> simp_all [lt]
  exact h.le

end Point

namespace Amount

theorem le_trans {a b c : Amount} (hab : a.le b = true) (hbc : b.le c = true) : a.le c = true := by
  unfold le at *
  cases ha : a.point? with
  | none => simp [ha] at hab
  | some p =>
    cases hb : b.point? with
    | none => simp [ha, hb] at hab
    | some q =>
      cases hc : c.point? with
      | none => simp [hb, hc] at hbc
      | some r =>
        simp only [ha, hb, hc, Bool.not_eq_true'] at hab hbc ⊢
        exact Point.not_lt_trans hab hbc

theorem lt_of_le_of_lt {a b c : Amount} (hab : a.le b = true) (hbc : b.lt c = true) : a.lt c = true := by
  unfold le at hab
  unfold lt at *
  cases ha : a.point? with
  | none => simp [ha] at hab
  | some p =>
    cases hb : b.point? with
    | none => simp [ha, hb] at hab
    | some q =>
      cases hc : c.point? with
      | none => simp [hb, hc] at hbc
      | some r =>
        simp only [ha, hb, hc, Bool.not_eq_true'] at hab hbc ⊢
        exact Point.lt_of_not_lt_of_lt hab hbc

/-- Nothing is at most not-a-number. -/
theorem not_le_of_isNaN {a : Amount} {x : Binary64} (h : x.isNaN = true) : a.le (.float x) = false := by
  cases x with
  | nan => cases ha : a.point? <;> simp [le, point?, Binary64.point?]
  | _ => cases h

/-- Not-a-number is at most nothing. -/
theorem isNaN_not_le {a : Amount} {x : Binary64} (h : x.isNaN = true) : (Amount.float x).le a = false := by
  cases x with
  | nan => rfl
  | _ => cases h

variable {x : Binary64}

theorem exists_point? (h : x.isNaN = false) : ∃ p, (Amount.float x).point? = some p := by
  cases x with
  | nan => cases h
  | infinity negative => cases negative <;> exact ⟨_, rfl⟩
  | _ => exact ⟨_, rfl⟩

theorem point?_zero : Amount.zero.point? = some (.rational 0) := rfl

theorem le_self (h : x.isNaN = false) : (Amount.float x).le (.float x) = true := by
  obtain ⟨p, hp⟩ := exists_point? h
  cases p <;> simp [le, hp, Point.lt]

theorem negative_infinity_le (h : x.isNaN = false) :
    (Amount.float (.infinity true)).le (.float x) = true := by
  obtain ⟨p, hp⟩ := exists_point? h
  have hbottom : (Amount.float (.infinity true)).point? = some .bottom := rfl
  cases p <;> simp [le, hp, hbottom, Point.lt]

theorem le_infinity (h : x.isNaN = false) : (Amount.float x).le (.float (.infinity false)) = true := by
  obtain ⟨p, hp⟩ := exists_point? h
  have htop : (Amount.float (.infinity false)).point? = some .top := rfl
  cases p <;> simp [le, hp, htop, Point.lt]

theorem isNaN_of_zero_lt (h : Amount.zero.lt (.float x) = true) : x.isNaN = false := by
  cases x with
  | nan => cases h
  | _ => rfl

/-- What is not at most zero is above it, unless it is not-a-number. -/
theorem zero_lt_iff (h : x.isNaN = false) :
    Amount.zero.lt (.float x) = true ↔ (Amount.float x).le .zero = false := by
  obtain ⟨p, hp⟩ := exists_point? h
  simp [le, lt, hp, point?_zero]

theorem eq_ofInt_of_toBinary64 {n : ℤ} (h : (Amount.int n).toBinary64 = .ok x) :
    x = Binary64.ofInt n := by
  cases hn : Binary64.ofInt n <;> simp_all [toBinary64]

theorem toBinary64_of_toRat? {m : ℤ} {q : ℚ} (h : (Binary64.ofInt m).toRat? = some q) :
    (Amount.int m).toBinary64 = .ok (Binary64.ofInt m) := by
  cases hm : Binary64.ofInt m with
  | nan | infinity negative =>
    rw [hm] at h
    cases h
  | _ => simp [toBinary64, hm]

end Amount

namespace Binary64

variable {x y : Binary64} {p q : ℚ}

def NonNegative (x : Binary64) : Prop := Amount.zero.le (.float x) = true

instance (x : Binary64) : Decidable (NonNegative x) := inferInstanceAs (Decidable (_ = true))

theorem nonNegative_cases {x : Binary64} (h : NonNegative x) :
    x = .infinity false ∨ ∃ q, x.toRat? = some q ∧ 0 ≤ q := by
  cases x with
  | nan => exact absurd h (by decide)
  | infinity negative =>
    cases negative with
    | true => exact absurd h (by decide)
    | false => exact Or.inl rfl
  | negativeZero => exact Or.inr ⟨0, rfl, le_rfl⟩
  | finite q hq =>
    have hpoint : (Amount.float (.finite q hq)).point? = some (.rational q) := rfl
    have hlow := (Amount.le_iff_of_point? (Amount.point?_int 0) hpoint).mp h
    exact Or.inr ⟨q, rfl, by simpa using hlow⟩

theorem nonNegative_iff_of_toRat? {x : Binary64} {q : ℚ} (h : x.toRat? = some q) : NonNegative x ↔ 0 ≤ q := by
  rw [NonNegative, Amount.zero, Amount.le_iff_of_point? (Amount.point?_int 0) (Amount.point?_float h), Int.cast_zero]

theorem nonNegative_of_toRat? {x : Binary64} {q : ℚ} (h : x.toRat? = some q) (hq : 0 ≤ q) : NonNegative x :=
  (nonNegative_iff_of_toRat? h).mpr hq

theorem nonNegative_nearest {q : ℚ} (h : 0 ≤ q) : NonNegative (nearest q) := by
  have hneg : ¬ q < 0 := not_lt.mpr h
  unfold nearest
  dsimp only
  split_ifs with hzero hrange
  · exact nonNegative_of_toRat? (toRat?_signedZero _) le_rfl
  · exact nonNegative_of_toRat? rfl (roundedValue_nonneg h)
  · simp only [hneg, decide_false]
    decide

theorem nonNegative_add {x y : Binary64} (hx : NonNegative x) (hy : NonNegative y) :
    NonNegative (add x y) := by
  rcases nonNegative_cases hx with rfl | ⟨p, hp, hp0⟩
  · rcases nonNegative_cases hy with rfl | ⟨q, hq, -⟩
    · decide
    · rwa [infinity_add hq]
  · rcases nonNegative_cases hy with rfl | ⟨q, hq, hq0⟩
    · rwa [add_infinity hp]
    · by_cases hzeros : x = .negativeZero ∧ y = .negativeZero
      · obtain ⟨rfl, rfl⟩ := hzeros
        exact hx
      · rw [add_eq_nearest hp hq hzeros]
        exact nonNegative_nearest (add_nonneg hp0 hq0)

theorem nonNegative_of_zero_lt (h : Amount.zero.lt (.float x) = true) : NonNegative x := by
  obtain ⟨p, hp⟩ := Amount.exists_point? (Amount.isNaN_of_zero_lt h)
  simp only [Amount.lt, hp, Amount.point?_zero] at h
  simp only [NonNegative, Amount.le, hp, Amount.point?_zero, Point.lt_asymm h, Bool.not_false]

theorem isNaN_nearest (q : ℚ) : (nearest q).isNaN = false := by
  unfold nearest
  dsimp only
  split_ifs
  · cases decide (q < 0) <;> rfl
  · rfl
  · rfl

theorem special_or_finite (x : Binary64) :
    x = .nan ∨ (∃ negative, x = .infinity negative) ∨ ∃ q, x.toRat? = some q := by
  cases x with
  | nan => exact Or.inl rfl
  | infinity negative => exact Or.inr (Or.inl ⟨negative, rfl⟩)
  | _ => exact Or.inr (Or.inr ⟨_, rfl⟩)

theorem isNaN_of_toRat? (h : x.toRat? = some q) : x.isNaN = false := by
  cases x with
  | nan => cases h
  | _ => rfl

theorem onGrid_of_toRat? (h : x.toRat? = some q) : OnGrid q := by
  cases x with
  | finite r hr =>
    cases h
    exact hr
  | negativeZero =>
    cases h
    simpa using onGrid_intCast (n := 0) (by decide)
  | _ => cases h

theorem nan_add (y : Binary64) : add .nan y = .nan := rfl

theorem add_nan (x : Binary64) : add x .nan = .nan := by
  cases x <;> rfl

theorem isNaN_add_of_toRat? (hx : x.toRat? = some p) (hy : y.toRat? = some q) :
    (x.add y).isNaN = false := by
  by_cases hzeros : x = .negativeZero ∧ y = .negativeZero
  · rw [hzeros.1, hzeros.2]
    rfl
  · rw [add_eq_nearest hx hy hzeros]
    exact isNaN_nearest _

theorem isNaN_sub_of_toRat? (hx : x.toRat? = some p) (hy : y.toRat? = some q) :
    (x.sub y).isNaN = false :=
  isNaN_add_of_toRat? hx (toRat?_neg hy)

/-- A difference is not-a-number only where a side is, or where an infinity is taken from itself. -/
theorem isNaN_sub_iff : (x.sub y).isNaN = true ↔
    x = .nan ∨ y = .nan ∨ ∃ negative, x = .infinity negative ∧ y = .infinity negative := by
  rcases x.special_or_finite with rfl | ⟨a, rfl⟩ | ⟨p, hx⟩
  · simp [sub, add, isNaN]
  · rcases y.special_or_finite with rfl | ⟨b, rfl⟩ | ⟨q, hy⟩
    · simp [sub, neg, add, isNaN]
    · cases a <;> cases b <;> simp [sub, neg, add, isNaN]
    · rw [sub, infinity_add (toRat?_neg hy)]
      cases y <;> simp [isNaN, toRat?] at hy ⊢
  · rcases y.special_or_finite with rfl | ⟨b, rfl⟩ | ⟨q, hy⟩
    · cases x <;> simp [sub, neg, add, isNaN]
    · rw [sub, neg, add_infinity hx]
      cases x <;> simp [isNaN, toRat?] at hx ⊢
    · rw [isNaN_sub_of_toRat? hx hy]
      cases x <;> cases y <;> simp [toRat?] at hx hy ⊢

theorem isNaN_sub_iff_of_zero_lt (hx : Amount.zero.lt (.float x) = true) :
    (x.sub y).isNaN = true ↔ y = .nan ∨ y = .infinity false ∧ x = .infinity false := by
  rw [isNaN_sub_iff]
  constructor
  · rintro (rfl | hy | ⟨negative, rfl, rfl⟩)
    · exact absurd hx (by decide)
    · exact Or.inl hy
    · cases negative with
      | true => exact absurd hx (by decide)
      | false => exact Or.inr ⟨rfl, rfl⟩
  · rintro (hy | ⟨hy, hx⟩)
    · exact Or.inr (Or.inl hy)
    · exact Or.inr (Or.inr ⟨false, hx, hy⟩)

theorem roundedValue_of_nearest {q r : ℚ} (h : (nearest q).toRat? = some r) : r = roundedValue q := by
  unfold nearest at h
  dsimp only at h
  split_ifs at h with hzero hrange
  · rw [toRat?_signedZero] at h
    cases h
    exact hzero.symm
  · cases h
    rfl
  · cases h

theorem toRat?_mul_eq_none {x y : Binary64} (h : x.toRat? = none ∨ y.toRat? = none) :
    (mul x y).toRat? = none := by
  have hinfinite (vanishes negative : Bool) :
      (if vanishes then nan else infinity negative).toRat? = none := by
    cases vanishes <;> rfl
  cases x with
  | nan => rfl
  | infinity =>
    cases y with
    | nan => rfl
    | _ => simp only [mul, hinfinite]
  | negativeZero | finite =>
    cases y with
    | nan => rfl
    | infinity => simp only [mul, hinfinite]
    | _ => simp [toRat?] at h

/-- A product that has a rational value is the rounded product of two rational values. -/
theorem exists_of_toRat?_mul {x y : Binary64} {r : ℚ} (h : (mul x y).toRat? = some r) :
    ∃ p q, x.toRat? = some p ∧ y.toRat? = some q ∧ r = roundedValue (p * q) := by
  cases hx : x.toRat? with
  | none => cases (toRat?_mul_eq_none (Or.inl hx)).symm.trans h
  | some p =>
    cases hy : y.toRat? with
    | none => cases (toRat?_mul_eq_none (Or.inr hy)).symm.trans h
    | some q =>
      refine ⟨p, q, rfl, rfl, ?_⟩
      rw [mul_of_toRat? hx hy] at h
      split at h
      next hzero =>
        rw [toRat?_signedZero] at h
        cases h
        rw [hzero, roundedValue_zero]
      next => exact roundedValue_of_nearest h

theorem toRat?_add_eq_none {x y : Binary64} (h : x.toRat? = none ∨ y.toRat? = none) : (add x y).toRat? = none := by
  rcases x.special_or_finite with rfl | ⟨a, rfl⟩ | ⟨p, hx⟩
  · rfl
  · cases y with
    | infinity b => cases a <;> cases b <;> rfl
    | _ => rfl
  · rcases y.special_or_finite with rfl | ⟨b, rfl⟩ | ⟨q, hy⟩
    · rw [add_nan]
      rfl
    · rw [add_infinity hx]
      rfl
    · simp [hx, hy] at h

/-- A sum that has a rational value is the rounded sum of two rational values. -/
theorem exists_of_toRat?_add {x y : Binary64} {r : ℚ} (h : (add x y).toRat? = some r) :
    ∃ p q, x.toRat? = some p ∧ y.toRat? = some q ∧ r = roundedValue (p + q) := by
  cases hx : x.toRat? with
  | none => cases (toRat?_add_eq_none (Or.inl hx)).symm.trans h
  | some p =>
    cases hy : y.toRat? with
    | none => cases (toRat?_add_eq_none (Or.inr hy)).symm.trans h
    | some q =>
      refine ⟨p, q, rfl, rfl, ?_⟩
      by_cases hzeros : x = .negativeZero ∧ y = .negativeZero
      · obtain ⟨rfl, rfl⟩ := hzeros
        cases hx
        cases hy
        cases h
        simp
      · rw [add_eq_nearest hx hy hzeros] at h
        exact roundedValue_of_nearest h

theorem toRat?_neg_eq (x : Binary64) : (neg x).toRat? = x.toRat?.map (-·) := by
  cases hx : x.toRat? with
  | none => cases x <;> simp_all [neg, toRat?]
  | some q => exact toRat?_neg hx

/-- A difference that has a rational value is the rounded difference of two rational values. -/
theorem exists_of_toRat?_sub {x y : Binary64} {r : ℚ} (h : (sub x y).toRat? = some r) :
    ∃ p q, x.toRat? = some p ∧ y.toRat? = some q ∧ r = roundedValue (p - q) := by
  obtain ⟨p, q, hp, hq, rfl⟩ := exists_of_toRat?_add h
  rw [toRat?_neg_eq, Option.map_eq_some_iff] at hq
  obtain ⟨q', hq', rfl⟩ := hq
  exact ⟨p, q', hp, hq', by rw [sub_eq_add_neg]⟩

/-- A number that is rounded beyond the range of the format becomes an infinity. -/
theorem nearest_of_beyond (h : ¬ |roundedValue q| < (2 : ℚ) ^ (1024 : ℤ)) : nearest q = .infinity (decide (q < 0)) := by
  have hne : roundedValue q ≠ 0 := by
    intro hzero
    rw [hzero, abs_zero] at h
    exact h (by positivity)
  rw [← magnitude_eq_abs] at h
  unfold nearest
  simp only [hne, if_false]
  rw [dif_neg h]

theorem roundedValue_nonpos (h : q ≤ 0) : roundedValue q ≤ 0 := by
  have hneg := roundedValue_nonneg (neg_nonneg.mpr h)
  rw [roundedValue_neg] at hneg
  exact neg_nonneg.mp hneg

theorem nearest_mono (h : p ≤ q) : (Amount.float (nearest p)).le (.float (nearest q)) = true := by
  have hround := roundedValue_mono h
  by_cases hlow : p < 0 ∧ ¬ |roundedValue p| < (2 : ℚ) ^ (1024 : ℤ)
  · rw [nearest_of_beyond hlow.2, decide_eq_true hlow.1]
    exact Amount.negative_infinity_le (isNaN_nearest q)
  by_cases hhigh : 0 ≤ q ∧ ¬ |roundedValue q| < (2 : ℚ) ^ (1024 : ℤ)
  · rw [nearest_of_beyond hhigh.2, decide_eq_false (not_lt.mpr hhigh.1)]
    exact Amount.le_infinity (isNaN_nearest p)
  -- otherwise both are in the range, since what is between zero and a number in the range is so, too
  have hp : |roundedValue p| < (2 : ℚ) ^ (1024 : ℤ) := by
    by_contra hbeyond
    have hp0 : 0 ≤ p := not_lt.mp fun hneg => hlow ⟨hneg, hbeyond⟩
    have hq : |roundedValue q| < (2 : ℚ) ^ (1024 : ℤ) := by
      by_contra hq
      exact hhigh ⟨hp0.trans h, hq⟩
    rw [abs_of_nonneg (roundedValue_nonneg hp0)] at hbeyond
    exact hbeyond (hround.trans_lt ((le_abs_self _).trans_lt hq))
  have hq : |roundedValue q| < (2 : ℚ) ^ (1024 : ℤ) := by
    by_contra hbeyond
    have hq0 : q ≤ 0 := (not_le.mp fun hpos => hhigh ⟨hpos, hbeyond⟩).le
    rw [abs_of_nonpos (roundedValue_nonpos hq0)] at hbeyond
    exact hbeyond ((neg_le_neg hround).trans_lt ((neg_le_abs _).trans_lt hp))
  rwa [Amount.le_iff_of_point? (Amount.point?_float (toRat?_nearest hp)) (Amount.point?_float (toRat?_nearest hq))]

theorem point?_nearest_of_toRat? (hx : x.toRat? = some p) : (nearest p).point? = x.point? := by
  have hgrid := onGrid_of_toRat? hx
  have hround := roundedValue_of_onGrid hgrid
  have hrange : |roundedValue p| < (2 : ℚ) ^ (1024 : ℤ) := by
    rw [hround, ← magnitude_eq_abs]
    exact hgrid.1
  rw [point?_of_toRat? (toRat?_nearest hrange), point?_of_toRat? hx, hround]

/-- Rounding passes no number of the format that it starts below. -/
theorem nearest_le (hx : x.toRat? = some p) (h : q ≤ p) :
    (Amount.float (nearest q)).le (.float x) = true := by
  simpa only [Amount.le, Amount.point?, point?_nearest_of_toRat? hx] using nearest_mono h

/-- Rounding passes no number of the format that it starts above. -/
theorem le_nearest (hx : x.toRat? = some p) (h : p ≤ q) :
    (Amount.float x).le (.float (nearest q)) = true := by
  simpa only [Amount.le, Amount.point?, point?_nearest_of_toRat? hx] using nearest_mono h

/-- Taking off what is not negative leaves no more. -/
theorem sub_le_self (hy : NonNegative y) (h : (x.sub y).isNaN = false) :
    (Amount.float (x.sub y)).le (.float x) = true := by
  have hnot : ¬ (x.sub y).isNaN = true := by simp [h]
  rw [isNaN_sub_iff] at hnot
  rcases x.special_or_finite with rfl | ⟨a, rfl⟩ | ⟨p, hx⟩
  · exact absurd (Or.inl rfl) hnot
  · rcases nonNegative_cases hy with rfl | ⟨q, hq, -⟩
    · cases a with
      | false => exact absurd (by simp) hnot
      | true => decide
    · rw [sub, infinity_add (toRat?_neg hq)]
      exact Amount.le_self rfl
  · rcases nonNegative_cases hy with rfl | ⟨q, hq, hq0⟩
    · rw [sub, neg, add_infinity hx]
      exact Amount.negative_infinity_le (isNaN_of_toRat? hx)
    · by_cases hzeros : x = .negativeZero ∧ y.neg = .negativeZero
      · rw [sub, hzeros.1, hzeros.2]
        decide
      · rw [sub, add_eq_nearest hx (toRat?_neg hq) hzeros]
        exact nearest_le hx (by linarith)

end Binary64

namespace Amount

variable {a : Amount} {y : Binary64}

/-- Only a binary64 number is converted to one that is not finite. -/
theorem eq_float_of_toBinary64 (h : a.toBinary64 = .ok y) (hy : y.toRat? = none) : a = .float y := by
  cases a with
  | int n =>
    have hnumber : (Binary64.ofInt n).isNaN = false := Binary64.isNaN_nearest n
    cases hn : Binary64.ofInt n with
    | nan =>
      rw [hn] at hnumber
      cases hnumber
    | infinity negative => simp [toBinary64, hn] at h
    | _ =>
      simp only [toBinary64, hn, Except.ok.injEq] at h
      subst h
      cases hy
  | float x =>
    cases h
    rfl

/-- What is above zero is not negative as a binary64 number. -/
theorem nonNegative_of_toBinary64 (hpos : a.le .zero = false) (hnan : a ≠ .float .nan)
    (h : a.toBinary64 = .ok y) : y.NonNegative := by
  cases a with
  | int n =>
    rw [eq_ofInt_of_toBinary64 h]
    apply Binary64.nonNegative_nearest
    rw [Bool.eq_false_iff, ne_eq, zero, le_int_iff, not_le] at hpos
    exact_mod_cast hpos.le
  | float x =>
    cases h
    apply Binary64.nonNegative_of_zero_lt
    rwa [zero_lt_iff]
    cases hnumber : y.isNaN with
    | false => rfl
    | true =>
      cases y with
      | nan => exact absurd rfl hnan
      | _ => cases hnumber

end Amount

end SurvivalRules
