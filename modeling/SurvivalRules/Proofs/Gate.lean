import SurvivalRules.Proofs.Drawing
import SurvivalRules.Proofs.Numeric.Binary64
import SurvivalRules.Gate

/-!
# What the gate has checked

An action that can be done has run out its cooldown, and every entry of its cost can be paid.
-/
namespace SurvivalRules

namespace Gate

variable {c : Content} {id raw : String} {state : Tree} {a : Action}

theorem costFailure_of_canPay {reduction : Except Fault (Option Amount)} {cost : Tree}
    (h : canPay reduction state cost = .ok true) :
    ∀ e ∈ cost, costFailure reduction state e.1 e.2 = .ok none := by
  induction cost with
  | nil => simp
  | cons e rest ih =>
    obtain ⟨failure, hfirst, hrest⟩ := bind_eq_ok_iff.mp h
    cases failure with
    | some reason => cases pure_eq_ok_iff.mp hrest
    | none => exact List.forall_mem_cons.mpr ⟨hfirst, ih hrest⟩

theorem canPay_eq_true_iff {reduction : Except Fault (Option Amount)} {cost : Tree} :
    canPay reduction state cost = .ok true ↔ ∀ e ∈ cost, costFailure reduction state e.1 e.2 = .ok none := by
  refine ⟨costFailure_of_canPay, fun h => ?_⟩
  induction cost with
  | nil => rfl
  | cons e rest ih =>
    obtain ⟨hfirst, hrest⟩ := List.forall_mem_cons.mp h
    exact bind_eq_ok_iff.mpr ⟨none, hfirst, ih hrest⟩

/-- A resource can be paid when it is held in the discounted amount at least. -/
theorem costFailure_eq_none_iff {reduction : Except Fault (Option Amount)} {required : Value} {price : Amount}
    {p : StatePath} (hprice : required.amount? = some price) (hp : StatePath.parse raw = .ok p)
    (hacc : p.accumulates = true) : costFailure reduction state raw required = .ok none ↔
      ∃ share need held, reduction = .ok share ∧ adjustedCost price share = .ok need ∧
        (Requirement.orZero (state.get p)).toNumber = .ok held ∧ need.le (.float held) = true := by
  simp only [costFailure, hprice, hp, hacc, if_true, bind_eq_ok_iff]
  constructor
  · rintro ⟨share, hshare, need, hneed, held, hheld, hlast⟩
    refine ⟨share, need, held, hshare, hneed, hheld, ?_⟩
    by_contra hshort
    rw [if_neg hshort] at hlast
    obtain ⟨line, -, hline⟩ := bind_eq_ok_iff.mp hlast
    cases pure_eq_ok_iff.mp hline
  · rintro ⟨share, need, held, hshare, hneed, hheld, hle⟩
    refine ⟨share, hshare, need, hneed, held, hheld, ?_⟩
    rw [if_pos hle]
    rfl

/-- What an action that can be done has: no time left, a tier, and a cost of it that can be paid. -/
theorem isExecutable_spec (h : isExecutable c id state = .ok true) :
    isCoolingDown id state = .ok false ∧ ∃ a tier cost, c.action? id = some a ∧
      a.tier state = .ok tier ∧ tier.cost = some cost ∧
      canPay (gateReduction c a state) state cost = .ok true := by
  unfold isExecutable at h
  split at h
  · cases h
  next a ha =>
    obtain ⟨cooling, hcooling, hrest⟩ := bind_eq_ok_iff.mp h
    split at hrest
    · cases pure_eq_ok_iff.mp hrest
    next hfree =>
      obtain ⟨tier, htier, hlast⟩ := bind_eq_ok_iff.mp hrest
      split at hlast
      · cases pure_eq_ok_iff.mp hlast
      next cost hcost =>
        exact ⟨by simpa [hfree] using hcooling, a, tier, cost, ha, htier, hcost, hlast⟩

/-- A resource of which a whole number is asked for is held in the discounted amount at least. -/
theorem le_of_costFailure {reduction : Except Fault (Option Amount)} {n stored : ℤ} {p : StatePath}
    (hp : StatePath.parse raw = .ok p) (hacc : p.accumulates = true)
    (hstored : Requirement.orZero (state.get p) = .int stored)
    (hbound : stored.natAbs ≤ significandBound)
    (h : costFailure reduction state raw (.int n) = .ok none) :
    ∃ share need, reduction = .ok share ∧ adjustedCost (.int n) share = .ok need ∧
      need.le (.int stored) = true := by
  obtain ⟨share, need, held, hshare, hneed, hheld, hle⟩ := (costFailure_eq_none_iff rfl hp hacc).mp h
  rw [hstored, Value.toNumber, Amount.toBinary64_int hbound] at hheld
  cases hheld
  refine ⟨share, need, hshare, hneed, ?_⟩
  have hsame : (Amount.float (Binary64.ofInt stored)).point? = (Amount.int stored).point? :=
    Amount.point?_float (Binary64.toRat?_ofInt hbound)
  simpa [Amount.le, hsame] using hle

theorem exists_path_of_costFailure {reduction : Except Fault (Option Amount)} {n : ℤ}
    (h : costFailure reduction state raw (.int n) = .ok none) :
    ∃ p, StatePath.parse raw = .ok p := by
  cases hp : StatePath.parse raw with
  | ok p => exact ⟨p, rfl⟩
  | error cause => simp [costFailure, Value.amount?, hp] at h

end Gate

end SurvivalRules
