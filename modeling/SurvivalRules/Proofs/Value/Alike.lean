import SurvivalRules.Proofs.Numeric.Order
import SurvivalRules.Value.Coercion

/-!
# Values that count alike

Values of equal contents have the same truth value and stand for the same number, though their kinds and the
signs of their zeros may differ.
-/
namespace SurvivalRules

namespace Amount

variable {a b : Amount}

/-- Equal amounts are at one place of the number line. -/
theorem exists_point?_of_same (h : a.same b = true) : ∃ p, a.point? = some p ∧ b.point? = some p := by
  unfold same at h
  split at h
  next p q ha hb => exact ⟨p, ha, (of_decide_eq_true h : p = q) ▸ hb⟩
  next => cases h

/-- A whole number that a binary64 number equals is converted to a number at the same place. -/
theorem toBinary64_int_of_point? {n : ℤ} {x : Binary64} (h : x.point? = some (.rational n)) :
    ∃ y, (Amount.int n).toBinary64 = .ok y ∧ y.point? = x.point? := by
  have hx : x.toRat? = some (n : ℚ) := by
    cases x with
    | nan => cases h
    | infinity negative => cases negative <;> cases h
    | negativeZero => exact congrArg some (Point.rational.inj (Option.some.inj h))
    | finite q _ => exact congrArg some (Point.rational.inj (Option.some.inj h))
  have hgrid := Binary64.onGrid_of_toRat? hx
  have hround := Binary64.roundedValue_of_onGrid hgrid
  have hrange : |Binary64.roundedValue (n : ℚ)| < (2 : ℚ) ^ (1024 : ℤ) := by
    rw [hround, ← Numeric.magnitude_eq_abs]
    exact hgrid.1
  exact ⟨Binary64.ofInt n, toBinary64_of_toRat? (Binary64.toRat?_nearest hrange),
    Binary64.point?_nearest_of_toRat? hx⟩

theorem toBinary64_point?_of_same (h : a.same b = true) :
    a.toBinary64.map Binary64.point? = b.toBinary64.map Binary64.point? := by
  obtain ⟨p, ha, hb⟩ := exists_point?_of_same h
  cases a with
  | int m =>
    cases ha
    cases b with
    | int n => rw [Int.cast_injective (Point.rational.inj (Option.some.inj hb))]
    | float y =>
      obtain ⟨x, hx, hplace⟩ := toBinary64_int_of_point? hb
      rw [hx]
      exact congrArg Except.ok hplace
  | float x =>
    cases b with
    | int n =>
      cases hb
      obtain ⟨y, hy, hplace⟩ := toBinary64_int_of_point? ha
      rw [hy]
      exact congrArg Except.ok hplace.symm
    | float y => exact congrArg Except.ok (ha.trans hb.symm)

end Amount

namespace Value

variable {v w : Value} {a : Amount}

/-- One and the same, or equal in contents. -/
def Alike (v w : Value) : Prop := v = w ∨ v.same w = true

instance (v w : Value) : Decidable (v.Alike w) := inferInstanceAs (Decidable (_ ∨ _))

/-- Values of equal contents are of one kind, or both are amounts. -/
theorem same_cases (h : v.same w = true) :
    (v = .null ∧ w = .null) ∨ (∃ s, v = .text s ∧ w = .text s) ∨ (∃ vs ws, v = .list vs ∧ w = .list ws) ∨
      (∃ es fs, v = .mapping es ∧ w = .mapping fs) ∨
        ∃ a b, v.numeric? = some a ∧ w.numeric? = some b ∧ a.same b = true := by
  cases v <;> cases w <;> simp_all [same, numeric?, amount?]

theorem toNumber_of_numeric? (h : v.numeric? = some a) : v.toNumber = a.toBinary64 := by
  cases v with
  | bool b =>
    cases h
    cases b <;> decide +kernel
  | int n =>
    cases h
    rfl
  | float x =>
    cases h
    rfl
  | _ => cases h

/-- An amount counts as true when it has a place on the number line, and this is not zero. -/
theorem truthy_of_numeric? (h : v.numeric? = some a) : v.truthy = a.point?.any (· ≠ .rational 0) := by
  cases v with
  | bool b =>
    cases h
    cases b <;> decide +kernel
  | int n =>
    cases h
    simp [truthy, isVacant, Amount.point?]
  | float x =>
    cases h
    cases x with
    | infinity negative => cases negative <;> rfl
    | nan | negativeZero => rfl
    | finite q _ => simp [truthy, Binary64.isNaN, Binary64.isZero, Amount.point?, Binary64.point?]
  | _ => cases h

theorem truthy_of_same (h : v.same w = true) : v.truthy = w.truthy := by
  rcases same_cases h with ⟨rfl, rfl⟩ | ⟨s, rfl, rfl⟩ | ⟨vs, ws, rfl, rfl⟩ | ⟨es, fs, rfl, rfl⟩ |
    ⟨a, b, hv, hw, hsame⟩
  · rfl
  · rfl
  · rfl
  · rfl
  · obtain ⟨p, ha, hb⟩ := Amount.exists_point?_of_same hsame
    rw [truthy_of_numeric? hv, truthy_of_numeric? hw, ha, hb]

/-- Values of equal contents stand for numbers at the same place, or cannot be read for the same reason. -/
theorem toNumber_of_same (h : v.same w = true) :
    v.toNumber.map Binary64.point? = w.toNumber.map Binary64.point? := by
  rcases same_cases h with ⟨rfl, rfl⟩ | ⟨s, rfl, rfl⟩ | ⟨vs, ws, rfl, rfl⟩ | ⟨es, fs, rfl, rfl⟩ |
    ⟨a, b, hv, hw, hsame⟩
  · rfl
  · rfl
  · rfl
  · rfl
  · rw [toNumber_of_numeric? hv, toNumber_of_numeric? hw]
    exact Amount.toBinary64_point?_of_same hsame

end Value

end SurvivalRules
