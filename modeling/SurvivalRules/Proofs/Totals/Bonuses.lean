import SurvivalRules.Proofs.Resolve.Whole
import SurvivalRules.Proofs.Totals

/-!
# What bonuses have in common

A property of bonuses that combining keeps holds of the bonus of every action if it holds of all that items
declare. Two such properties are that resources gain by whole numbers and that the multiplier is not negative.
-/
namespace SurvivalRules

namespace Bonus

/-- A property that the neutral bonus has and that combining keeps. -/
structure IsKept (P : Bonus → Prop) : Prop where
  neutral : P Bonus.neutral
  combine : ∀ {a b out : Bonus}, P a → P b → a.combine b = .ok out → P out

/-- The gains of resources are whole. -/
def HasWholeGains (b : Bonus) : Prop := ∀ e ∈ b.resourceBonus, e.2.IsWhole

theorem isWhole_of_addAll {counters gains out : OrderedMap String Amount}
    (hcounters : ∀ e ∈ counters, e.2.IsWhole) (hgains : ∀ e ∈ gains, e.2.IsWhole)
    (h : addAll counters gains = .ok out) : ∀ e ∈ out, e.2.IsWhole := by
  induction gains generalizing counters with
  | nil =>
    cases h
    exact hcounters
  | cons g rest ih =>
    obtain ⟨name, a⟩ := g
    obtain ⟨hfirst, hrest⟩ := List.forall_mem_cons.mp hgains
    obtain ⟨counters₁, hadd, h⟩ := bind_eq_ok_iff.mp h
    obtain ⟨total, htotal, hlast⟩ := bind_eq_ok_iff.mp hadd
    cases pure_eq_ok_iff.mp hlast
    have hheld : ((OrderedMap.get? name counters).getD .zero).IsWhole := by
      cases hget : OrderedMap.get? name counters with
      | none => exact Amount.isWhole_zero
      | some held => exact hcounters (name, held) (OrderedMap.mem_of_get? hget)
    refine ih (fun e he => ?_) hrest h
    rcases OrderedMap.mem_insert he with rfl | hmem
    · exact hheld.add hfirst htotal
    · exact hcounters e hmem

theorem isKept_hasWholeGains : IsKept HasWholeGains where
  neutral := by simp [HasWholeGains, Bonus.neutral]
  combine := by
    intro a b out ha hb h
    obtain ⟨gains, hgains, hlast⟩ := bind_eq_ok_iff.mp h
    cases pure_eq_ok_iff.mp hlast
    exact isWhole_of_addAll ha hb hgains

/-- The multiplier is at least zero, or it is not-a-number. -/
def NeverDeducts (b : Bonus) : Prop :=
  b.resourceMultiplier = .nan ∨ b.resourceMultiplier.NonNegative

theorem neverDeducts_of_not_le_zero {b : Bonus}
    (h : (Amount.float b.resourceMultiplier).le .zero = false) : b.NeverDeducts := by
  unfold NeverDeducts
  cases hm : b.resourceMultiplier with
  | nan => exact Or.inl rfl
  | infinity negative =>
    cases negative with
    | true =>
      rw [hm] at h
      exact absurd h (by decide)
    | false => exact Or.inr (by decide)
  | negativeZero => exact Or.inr (by decide)
  | finite q hq =>
    rw [hm, ← Bool.not_eq_true, Amount.zero,
      Amount.le_iff_of_point? (Amount.point?_float rfl) (Amount.point?_int 0)] at h
    exact Or.inr (Binary64.nonNegative_of_toRat? rfl (by simpa using (not_le.mp h).le))

end Bonus

namespace Binary64

theorem mul_symm (x y : Binary64) : mul x y = mul y x := by
  cases x <;> cases y <;> simp [mul, toRat?, isZero, Rat.mul_comm, bne_comm]

/-- An infinity times zero has no value. -/
theorem mul_infinity {x : Binary64} {p : ℚ} (hx : x.toRat? = some p) (hp : 0 ≤ p) :
    mul x (.infinity false) = .nan ∨ NonNegative (mul x (.infinity false)) := by
  cases x with
  | negativeZero => exact Or.inl rfl
  | finite q hq =>
    cases hx
    by_cases hzero : p = 0
    · exact Or.inl (by simp [mul, isZero, hzero])
    · have hmul : mul (.finite p hq) (.infinity false) = .infinity false := by
        simp [mul, isZero, isNegative, hzero, not_lt.mpr hp]
      exact Or.inr (by rw [hmul]; decide)
  | _ => cases hx

theorem nonNegative_mul {x y : Binary64} (hx : NonNegative x) (hy : NonNegative y) :
    mul x y = .nan ∨ NonNegative (mul x y) := by
  rcases nonNegative_cases hx with rfl | ⟨p, hp, hp0⟩ <;>
    rcases nonNegative_cases hy with rfl | ⟨q, hq, hq0⟩
  · exact Or.inr (by decide)
  · rw [mul_symm]
    exact mul_infinity hq hq0
  · exact mul_infinity hp hp0
  · refine Or.inr ?_
    rw [mul_of_toRat? hp hq]
    split
    · exact nonNegative_of_toRat? (toRat?_signedZero _) le_rfl
    · exact nonNegative_nearest (mul_nonneg hp0 hq0)

end Binary64

namespace Bonus

theorem isKept_neverDeducts : IsKept NeverDeducts where
  neutral := Or.inr (by decide +kernel)
  combine := by
    intro a b out ha hb h
    obtain ⟨gains, -, hlast⟩ := bind_eq_ok_iff.mp h
    cases pure_eq_ok_iff.mp hlast
    rcases ha with ha | ha
    · exact Or.inl (by rw [ha]; rfl)
    · rcases hb with hb | hb
      · exact Or.inl (by rw [hb, Binary64.mul_symm]; rfl)
      · exact Binary64.nonNegative_mul ha hb

end Bonus

namespace Totals

variable {P : Bonus → Prop} {c : Content} {t t' : Totals}

/-- All bonuses that have been added up, for actions and for categories, have a property. -/
def Grants (t : Totals) (P : Bonus → Prop) : Prop :=
  (∀ e ∈ t.actions, P e.2) ∧ ∀ e ∈ t.categories, P e.2

/-- Two totals with the same bonuses. -/
def SameBonuses (t u : Totals) : Prop := u.actions = t.actions ∧ u.categories = t.categories

theorem SameBonuses.grants (h : SameBonuses t t') (ht : t.Grants P) : t'.Grants P := by
  unfold Grants
  rwa [h.1, h.2]

theorem sameBonuses_addGeneral {i : Item} (h : addGeneral i t = .ok t') : SameBonuses t t' := by
  obtain ⟨⟨stats, sources, rfl⟩, -⟩ := addGeneral_spec h
  exact ⟨rfl, rfl⟩

theorem sameBonuses_addBuildings {buildings : List (String × Action)}
    (h : t.addBuildings buildings = .ok t') : SameBonuses t t' := by
  induction buildings generalizing t with
  | nil =>
    cases h
    exact ⟨rfl, rfl⟩
  | cons b rest ih =>
    obtain ⟨key, a⟩ := b
    obtain ⟨t₁, hfirst, hrest⟩ := bind_eq_ok_iff.mp h
    obtain ⟨⟨stats, sources, rfl⟩, -⟩ := addBuilding_spec hfirst
    obtain ⟨hactions, hcategories⟩ := ih hrest
    exact ⟨hactions, hcategories⟩

variable (hP : Bonus.IsKept P)

include hP

theorem forall_mem_addBonus {m m' : OrderedMap String Bonus} {key : String} {b : Bonus}
    (hm : ∀ e ∈ m, P e.2) (hb : P b) (h : addBonus m key b = .ok m') : ∀ e ∈ m', P e.2 := by
  obtain ⟨total, htotal, hlast⟩ := bind_eq_ok_iff.mp h
  cases pure_eq_ok_iff.mp hlast
  have hheld : P ((OrderedMap.get? key m).getD .neutral) := by
    cases hget : OrderedMap.get? key m with
    | none => exact hP.neutral
    | some held => exact hm (key, held) (OrderedMap.mem_of_get? hget)
  intro e he
  rcases OrderedMap.mem_insert he with rfl | hmem
  · exact hP.combine hheld hb htotal
  · exact hm e hmem

theorem Grants.addItemBonus {i : Item} {key : String} {b : Bonus} (ht : t.Grants P) (hb : P b)
    (h : Totals.addItemBonus c i t key b = .ok t') : t'.Grants P := by
  obtain ⟨granted, text, hgranted, -, rfl⟩ := addItemBonus_spec h
  unfold grant at hgranted
  split at hgranted
  all_goals
    obtain ⟨bonuses, hadd, hlast⟩ := bind_eq_ok_iff.mp hgranted
    cases pure_eq_ok_iff.mp hlast
  · exact ⟨ht.1, forall_mem_addBonus hP ht.2 hb hadd⟩
  · exact ⟨forall_mem_addBonus hP ht.1 hb hadd, ht.2⟩

theorem Grants.addItemBonuses {i : Item} {bonuses : OrderedMap String Bonus} (ht : t.Grants P)
    (hbonuses : ∀ e ∈ bonuses, P e.2) (h : Totals.addItemBonuses c i t bonuses = .ok t') :
    t'.Grants P := by
  induction bonuses generalizing t with
  | nil =>
    cases h
    exact ht
  | cons e rest ih =>
    obtain ⟨key, b⟩ := e
    obtain ⟨hfirst, hrest⟩ := List.forall_mem_cons.mp hbonuses
    obtain ⟨t₁, hadd, h⟩ := bind_eq_ok_iff.mp h
    exact ih (ht.addItemBonus hP hfirst hadd) hrest h

theorem Grants.addItems {shadowed : List String} {items : List Item} {relief relief' : Amount}
    (ht : t.Grants P) (hitems : ∀ i ∈ items, ∀ e ∈ i.actionBonuses, P e.2)
    (h : Totals.addItems c shadowed t relief items = .ok (t', relief')) : t'.Grants P := by
  induction items generalizing t relief with
  | nil =>
    cases h
    exact ht
  | cons i rest ih =>
    obtain ⟨hfirst, hrest⟩ := List.forall_mem_cons.mp hitems
    obtain ⟨t₁, hbonuses, t₂, hgeneral, relief₁, h⟩ := addItems_cons h
    have ht₁ : t₁.Grants P := by
      rcases hbonuses with rfl | hadd
      · exact ht
      · exact ht.addItemBonuses hP hfirst hadd
    exact ih ((sameBonuses_addGeneral hgeneral).grants ht₁) hrest h

/-- What every declared bonus has, the totals of every state have. -/
theorem grants_ofState {state : Tree} (hc : ∀ i ∈ OrderedMap.values c.items, ∀ e ∈ i.actionBonuses, P e.2)
    (h : ofState c state = .ok t) : t.Grants P := by
  obtain ⟨⟨t₁, relief⟩, hitems, hafter⟩ := bind_eq_ok_iff.mp h
  obtain ⟨standing, -, hlast⟩ := bind_eq_ok_iff.mp hafter
  obtain ⟨t₂, hbuildings, hfinish⟩ := bind_eq_ok_iff.mp hlast
  obtain ⟨madness, -, hcapped⟩ := bind_eq_ok_iff.mp hfinish
  cases pure_eq_ok_iff.mp hcapped
  have hstart : (start state).Grants P := by simp [Grants, start]
  have howned := hstart.addItems hP (fun i hi => hc i (Content.item_mem_values_of_mem_ownedItems hi)) hitems
  exact (sameBonuses_addBuildings hbuildings).grants howned

theorem Grants.forAction {id : String} {category : Option String} {b : Bonus} (ht : t.Grants P)
    (h : t.forAction id category = .ok b) : P b := by
  obtain ⟨own, hown, hcategory⟩ := bind_eq_ok_iff.mp h
  have hP₁ : P own := by
    split at hown
    next held hget =>
      exact hP.combine hP.neutral (ht.1 (id, held) (OrderedMap.mem_of_get? hget)) hown
    next =>
      cases hown
      exact hP.neutral
  split at hcategory
  · cases pure_eq_ok_iff.mp hcategory
    exact hP₁
  next name _ =>
    split at hcategory
    next held hget =>
      exact hP.combine hP₁ (ht.2 (name, held) (OrderedMap.mem_of_get? hget)) hcategory
    next =>
      cases pure_eq_ok_iff.mp hcategory
      exact hP₁

end Totals

/-- The bonus with which an action is resolved has what every declared bonus has. -/
theorem Resolution.bonus_of_circumstances {P : Bonus → Prop} (hP : Bonus.IsKept P) {c : Content} {a : Action}
    {state : Tree} {around : Circumstances}
    (hc : ∀ i ∈ OrderedMap.values c.items, ∀ e ∈ i.actionBonuses, P e.2)
    (h : circumstances c a state = .ok around) : P around.bonus := by
  obtain ⟨t, ht, hrest⟩ := bind_eq_ok_iff.mp h
  obtain ⟨b, hb, hlast⟩ := bind_eq_ok_iff.mp hrest
  cases pure_eq_ok_iff.mp hlast
  exact (Totals.grants_ofState hP hc ht).forAction hP hb

end SurvivalRules
