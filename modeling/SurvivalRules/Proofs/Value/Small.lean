import SurvivalRules.Proofs.Drawing
import SurvivalRules.Proofs.Numeric.Small

/-!
# Small values

Counters, marks and what is missing: values that can be compared with any number and shown in any text.
-/
namespace SurvivalRules

namespace Value

/-- Nothing, a truth value, or a whole number that binary64 holds without loss. -/
def IsSmall (v : Value) : Prop :=
  v = .null ∨ (∃ b, v = .bool b) ∨ ∃ n : ℤ, v = .int n ∧ n.natAbs ≤ significandBound

variable {v : Value}

theorem isSmall_null : Value.null.IsSmall := Or.inl rfl

theorem isSmall_bool (b : Bool) : (Value.bool b).IsSmall := Or.inr (Or.inl ⟨b, rfl⟩)

theorem isSmall_int {n : ℤ} (h : n.natAbs ≤ significandBound) : (Value.int n).IsSmall :=
  Or.inr (Or.inr ⟨n, rfl, h⟩)

theorem IsSmall.isWritable (h : v.IsSmall) : v.isWritable = true := by
  rcases h with rfl | ⟨b, rfl⟩ | ⟨n, rfl, hn⟩
  · rfl
  · rfl
  · exact Numeric.isWritable_of_le hn

theorem IsSmall.exists_described (h : v.IsSmall) : ∃ text, v.described = .ok text :=
  ⟨v.describe, by simp [described, h.isWritable]⟩

theorem IsSmall.exists_displayed (h : v.IsSmall) : ∃ text, v.displayed = .ok text :=
  ⟨v.display, by simp [displayed, h.isWritable]⟩

theorem IsSmall.exists_toNumber (h : v.IsSmall) : ∃ x, v.toNumber = .ok x := by
  rcases h with rfl | ⟨b, rfl⟩ | ⟨n, rfl, hn⟩
  · exact ⟨_, rfl⟩
  · exact ⟨_, rfl⟩
  · exact ⟨_, Amount.toBinary64_int hn⟩

theorem IsSmall.orZero (h : v.IsSmall) : (Requirement.orZero v).IsSmall := by
  unfold Requirement.orZero
  split
  · exact isSmall_int (Nat.zero_le _)
  · exact h

end Value

namespace Requirement

variable {v : Value}

theorem exists_describeCurrent (h : v.IsSmall) : ∃ text, describeCurrent v = .ok text := by
  unfold describeCurrent
  split
  · exact ⟨_, rfl⟩
  · exact h.exists_described

/-- A requirement can be held against every small value. -/
theorem exists_holdsOf (expected : Value) (h : v.IsSmall) : ∃ b, holdsOf expected v = .ok b := by
  cases expected with
  | bool b =>
    simp only [holdsOf]
    cases v <;> exact ⟨_, rfl⟩
  | text s =>
    simp only [holdsOf]
    split
    next bound _ =>
      obtain ⟨x, hx⟩ := h.orZero.exists_toNumber
      exact ⟨_, by rw [hx]; rfl⟩
    next => exact ⟨_, rfl⟩
  | _ =>
    simp only [holdsOf]
    split <;> exact ⟨_, rfl⟩

end Requirement

namespace Term

variable {v : Value}

/-- A comparison with a number or with no number at all can be made with every small value. -/
theorem exists_holdsOf {t : Term} (ht : ∀ p op s, t ≠ .compare p op (.text s)) (h : v.IsSmall) :
    ∃ b, t.holdsOf v = .ok b := by
  cases t with
  | truthy p => exact ⟨_, rfl⟩
  | not p => exact ⟨_, rfl⟩
  | compare p op right =>
    cases right with
    | text s => exact absurd rfl (ht p op s)
    | number y =>
      obtain ⟨x, hx⟩ := h.exists_toNumber
      have hloose : ∃ b, v.looseEquals (.float y) = .ok b := by
        rcases h with rfl | ⟨b, rfl⟩ | ⟨n, rfl, hn⟩
        · exact ⟨_, rfl⟩
        · exact ⟨_, rfl⟩
        · exact ⟨_, by simp only [Value.looseEquals, hx]; rfl⟩
      obtain ⟨b, hb⟩ := hloose
      cases op with
      | equal => exact ⟨b, hb⟩
      | unequal => exact ⟨!b, by simp only [holdsOf, Operand.value, hb]; rfl⟩
      | _ => exact ⟨_, bind_eq_ok_iff.mpr ⟨x, hx, bind_eq_ok_iff.mpr ⟨y, rfl, rfl⟩⟩⟩

end Term

end SurvivalRules
