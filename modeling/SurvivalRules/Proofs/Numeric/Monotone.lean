import SurvivalRules.Proofs.Numeric.Order

/-!
# Sums keep the order

Rounding keeps the order of what it rounds. So the same number added to two numbers leaves them in order, where
not-a-number counts as above all others: it comes up only where an infinity is cancelled by its opposite.
-/
namespace SurvivalRules

namespace Binary64

variable {x y z : Binary64} {p q : ℚ}

/-- The sign of a zero apart, a sum of finite numbers is their exact sum, rounded. -/
theorem point?_add (hx : x.toRat? = some p) (hy : y.toRat? = some q) :
    (x.add y).point? = (nearest (p + q)).point? := by
  by_cases hzeros : x = .negativeZero ∧ y = .negativeZero
  · obtain ⟨rfl, rfl⟩ := hzeros
    cases hx
    cases hy
    decide +kernel
  · rw [add_eq_nearest hx hy hzeros]

theorem eq_infinity_of_le (h : (Amount.float x).le (.float (.infinity true)) = true) : x = .infinity true := by
  rcases x.special_or_finite with rfl | ⟨negative, rfl⟩ | ⟨p, hp⟩
  · cases h
  · cases negative with
    | true => rfl
    | false => cases h
  · have hbottom : (Amount.float (.infinity true)).point? = some .bottom := rfl
    simp [Amount.le, Amount.point?_float hp, hbottom, Point.lt] at h

theorem infinity_or_le_of_le (h : (Amount.float x).le (.float y) = true) (hy : y.toRat? = some q) :
    x = .infinity true ∨ ∃ p, x.toRat? = some p ∧ p ≤ q := by
  rcases x.special_or_finite with rfl | ⟨negative, rfl⟩ | ⟨p, hp⟩
  · cases h
  · cases negative with
    | true => exact Or.inl rfl
    | false =>
      have htop : (Amount.float (.infinity false)).point? = some .top := rfl
      simp [Amount.le, Amount.point?_float hy, htop, Point.lt] at h
  · rw [Amount.le_iff_of_point? (Amount.point?_float hp) (Amount.point?_float hy)] at h
    exact Or.inr ⟨p, hp, h⟩

/-- A number is at most another one, or the other one is as much as can be: the infinity, or not-a-number. -/
def AtMost (x y : Binary64) : Prop := y = .nan ∨ y = .infinity false ∨ (Amount.float x).le (.float y) = true

theorem atMost_of_le (h : (Amount.float x).le (.float y) = true) : x.AtMost y := Or.inr (Or.inr h)

theorem atMost_self (x : Binary64) : x.AtMost x := by
  cases hx : x.isNaN with
  | true =>
    cases x with
    | nan => exact Or.inl rfl
    | _ => cases hx
  | false => exact atMost_of_le (Amount.le_self hx)

/-- Finite numbers that are added to numbers in order keep these in order. -/
theorem add_le_add_of_toRat? (h : (Amount.float x).le (.float y) = true) {r : ℚ} (hy : y.toRat? = some q)
    (hz : z.toRat? = some r) : (Amount.float (x.add z)).le (.float (y.add z)) = true := by
  rcases infinity_or_le_of_le h hy with rfl | ⟨p, hp, hpq⟩
  · rw [infinity_add hz]
    exact Amount.negative_infinity_le (isNaN_add_of_toRat? hy hz)
  · have hmono := nearest_mono (show p + r ≤ q + r by linarith)
    simpa only [Amount.le, Amount.point?, point?_add hp hz, point?_add hy hz] using hmono

/-- What is added to both keeps them in order. -/
theorem AtMost.add (h : x.AtMost y) (z : Binary64) : (x.add z).AtMost (y.add z) := by
  rcases y.special_or_finite with rfl | ⟨_ | _, rfl⟩ | ⟨q, hq⟩
  · exact Or.inl (nan_add z)
  -- the infinity stays as much as can be
  · rcases z.special_or_finite with rfl | ⟨_ | _, rfl⟩ | ⟨r, hr⟩
    · exact Or.inl rfl
    · exact Or.inr (Or.inl rfl)
    · exact Or.inl rfl
    · exact Or.inr (Or.inl (infinity_add hr false))
  · have hle : (Amount.float x).le (.float (.infinity true)) = true := by simpa [AtMost] using h
    rw [eq_infinity_of_le hle]
    exact atMost_self _
  · have hle : (Amount.float x).le (.float y) = true := by
      rcases h with rfl | rfl | h
      · cases hq
      · cases hq
      · exact h
    rcases z.special_or_finite with rfl | ⟨_ | _, rfl⟩ | ⟨r, hr⟩
    · exact Or.inl (add_nan y)
    · exact Or.inr (Or.inl (add_infinity hq false))
    · have hx : x.add (.infinity true) = .infinity true := by
        rcases infinity_or_le_of_le hle hq with rfl | ⟨p, hp, -⟩
        · rfl
        · exact add_infinity hp true
      rw [hx, add_infinity hq]
      exact atMost_self _
    · exact atMost_of_le (add_le_add_of_toRat? hle hq hr)

/-- Something added that is not negative leaves no less. -/
theorem atMost_add_self (x : Binary64) (hy : y.NonNegative) : x.AtMost (x.add y) := by
  rcases nonNegative_cases hy with rfl | ⟨q, hq, hq0⟩
  · rcases x.special_or_finite with rfl | ⟨_ | _, rfl⟩ | ⟨p, hp⟩
    · exact Or.inl rfl
    · exact Or.inr (Or.inl rfl)
    · exact Or.inl rfl
    · exact Or.inr (Or.inl (add_infinity hp false))
  · rcases x.special_or_finite with rfl | ⟨negative, rfl⟩ | ⟨p, hp⟩
    · exact Or.inl rfl
    · rw [infinity_add hq]
      exact atMost_self _
    · refine atMost_of_le ?_
      simpa only [Amount.le, Amount.point?, point?_add hp hq] using le_nearest hp (show p ≤ p + q by linarith)

end Binary64

end SurvivalRules
