import SurvivalRules.Proofs.Ownership.Superseded
import SurvivalRules.Proofs.Totals

/-!
# How adding up can fail

Once everything that is owned and built can be described, the totals are computed, or a whole number that is
beyond the range of binary64 meets a binary64 number. What has been added up has been described.
-/
namespace SurvivalRules

/-- A step that fails, if at all, because a whole number is beyond the range of binary64. -/
def OverflowsOnly {α : Type} (x : Except Fault α) : Prop := ∀ cause, x = .error cause → cause = .outOfRange

section

variable {α β : Type} {x : Except Fault α} {f : α → Except Fault β} {a : α}

theorem overflowsOnly_of_eq_ok (h : x = .ok a) : OverflowsOnly x := by
  rintro cause rfl
  cases h

theorem OverflowsOnly.bind (hx : OverflowsOnly x) (hf : ∀ a, OverflowsOnly (f a)) : OverflowsOnly (x >>= f) := by
  intro cause h
  cases x with
  | error other =>
    cases h
    exact hx _ rfl
  | ok a => exact hf a cause h

theorem OverflowsOnly.ok_or_outOfRange (hx : OverflowsOnly x) : (∃ a, x = .ok a) ∨ x = .error .outOfRange := by
  cases x with
  | error cause => exact Or.inr (congrArg Except.error (hx cause rfl))
  | ok a => exact Or.inl ⟨a, rfl⟩

end

namespace Amount

theorem overflowsOnly_toBinary64 (a : Amount) : OverflowsOnly a.toBinary64 := by
  intro cause h
  cases a with
  | float x => cases h
  | int n =>
    simp only [toBinary64] at h
    split at h
    · exact (Except.error.inj h).symm
    · cases h

theorem overflowsOnly_combine (whole : ℤ → ℤ → ℤ) (binary : Binary64 → Binary64 → Binary64) (a b : Amount) :
    OverflowsOnly (combine whole binary a b) := by
  have hmixed : OverflowsOnly (do
      let x ← a.toBinary64
      let y ← b.toBinary64
      return Amount.float (binary x y)) :=
    a.overflowsOnly_toBinary64.bind fun _ => b.overflowsOnly_toBinary64.bind fun _ => overflowsOnly_of_eq_ok rfl
  cases a with
  | float x => exact hmixed
  | int m =>
    cases b with
    | float y => exact hmixed
    | int n => exact overflowsOnly_of_eq_ok rfl

end Amount

namespace Bonus

theorem overflowsOnly_addAll (counters gains : OrderedMap String Amount) : OverflowsOnly (addAll counters gains) := by
  induction gains generalizing counters with
  | nil => exact overflowsOnly_of_eq_ok rfl
  | cons e rest ih =>
    refine OverflowsOnly.bind ?_ ih
    exact (Amount.overflowsOnly_combine _ _ _ _).bind fun _ => overflowsOnly_of_eq_ok rfl

theorem overflowsOnly_combine (a b : Bonus) : OverflowsOnly (a.combine b) :=
  (overflowsOnly_addAll _ _).bind fun _ => overflowsOnly_of_eq_ok rfl

end Bonus

/-- The bonuses that an item has for actions can be described. -/
def Item.GrantsDescribed (i : Item) : Prop := ∀ e ∈ i.actionBonuses, ∃ text, e.2.describe = .ok text

/-- The general bonuses of an item can be described. -/
def Item.GeneralDescribed (i : Item) : Prop :=
  ∃ text, listAmounts (Totals.generalDetail i.generalBonuses) = .ok text

/-- What an action contributes while its building stands can be described. -/
def Action.Described (a : Action) : Prop := ∃ text, listAmounts (Totals.buildingDetail a) = .ok text

namespace Totals

variable {c : Content} {i : Item} {items : List Item} {shadowed : List String} {t t' : Totals}
  {relief relief' : Amount} {a : Action} {state : Tree} {key : String} {buildings : List (String × Action)}

theorem overflowsOnly_addBonus (m : OrderedMap String Bonus) (key : String) (b : Bonus) :
    OverflowsOnly (addBonus m key b) :=
  (Bonus.overflowsOnly_combine _ _).bind fun _ => overflowsOnly_of_eq_ok rfl

theorem overflowsOnly_addItemBonus {b : Bonus} {text : String} (htext : b.describe = .ok text) :
    OverflowsOnly (addItemBonus c i t key b) := by
  unfold addItemBonus
  rw [htext]
  dsimp only
  split <;> exact (overflowsOnly_addBonus _ _ _).bind fun _ => overflowsOnly_of_eq_ok rfl

theorem overflowsOnly_addItemBonuses {bonuses : OrderedMap String Bonus}
    (hbonuses : ∀ e ∈ bonuses, ∃ text, e.2.describe = .ok text) : OverflowsOnly (addItemBonuses c i t bonuses) := by
  induction bonuses generalizing t with
  | nil => exact overflowsOnly_of_eq_ok rfl
  | cons e rest ih =>
    obtain ⟨⟨text, htext⟩, hrest⟩ := List.forall_mem_cons.mp hbonuses
    exact (overflowsOnly_addItemBonus htext).bind fun _ => ih hrest

theorem overflowsOnly_addStats (amounts : OrderedMap Stat Amount) : OverflowsOnly (t.addStats amounts) := by
  induction amounts generalizing t with
  | nil => exact overflowsOnly_of_eq_ok rfl
  | cons e rest ih =>
    refine OverflowsOnly.bind ?_ fun _ => ih
    exact (Amount.overflowsOnly_combine _ _ _ _).bind fun _ => overflowsOnly_of_eq_ok rfl

theorem overflowsOnly_contribute {amounts : OrderedMap Stat Amount} {r : Binary64 × Binary64}
    {source : String → BonusSource} {detail : OrderedMap String Amount} {text : String}
    (htext : listAmounts detail = .ok text) : OverflowsOnly (t.contribute amounts r source detail) := by
  refine (overflowsOnly_addStats amounts).bind fun t₁ => ?_
  split
  · exact overflowsOnly_of_eq_ok rfl
  · rw [htext]
    exact overflowsOnly_of_eq_ok rfl

theorem overflowsOnly_addGeneral (h : i.GeneralDescribed) : OverflowsOnly (addGeneral i t) := by
  obtain ⟨text, htext⟩ := h
  rw [addGeneral_eq]
  exact overflowsOnly_contribute htext

theorem overflowsOnly_addBuilding (h : a.Described) : OverflowsOnly (t.addBuilding key a) := by
  obtain ⟨text, htext⟩ := h
  rw [addBuilding_eq]
  exact overflowsOnly_contribute htext

theorem overflowsOnly_addItems (hgeneral : ∀ i ∈ items, i.GeneralDescribed)
    (hgrants : ∀ i ∈ items.filter (!shadowed.contains ·.id), i.GrantsDescribed) :
    OverflowsOnly (addItems c shadowed t relief items) := by
  induction items generalizing t relief with
  | nil => exact overflowsOnly_of_eq_ok rfl
  | cons i rest ih =>
    obtain ⟨hdescribed, hrest⟩ := List.forall_mem_cons.mp hgeneral
    have hfirst : OverflowsOnly (addGrants c shadowed i t) := by
      unfold addGrants
      split
      · exact overflowsOnly_of_eq_ok rfl
      next hnot =>
        have hmem : i ∈ (i :: rest).filter (!shadowed.contains ·.id) :=
          List.mem_filter.mpr ⟨List.mem_cons_self, by simpa using hnot⟩
        exact overflowsOnly_addItemBonuses (hgrants i hmem)
    have hothers : ∀ j ∈ rest.filter (!shadowed.contains ·.id), j.GrantsDescribed := fun j hj =>
      hgrants j ((List.sublist_cons_self i rest).filter _ |>.subset hj)
    rw [addItems_cons_eq]
    refine hfirst.bind fun t₁ => (overflowsOnly_addGeneral hdescribed).bind fun t₂ => ?_
    exact (Amount.overflowsOnly_combine _ _ _ _).bind fun _ => ih hrest hothers

theorem overflowsOnly_addBuildings (hbuildings : ∀ b ∈ buildings, b.2.Described) :
    OverflowsOnly (t.addBuildings buildings) := by
  induction buildings generalizing t with
  | nil => exact overflowsOnly_of_eq_ok rfl
  | cons b rest ih =>
    obtain ⟨hfirst, hrest⟩ := List.forall_mem_cons.mp hbuildings
    exact OverflowsOnly.bind (overflowsOnly_addBuilding hfirst) fun _ => ih hrest

theorem describe_of_addItemBonuses {bonuses : OrderedMap String Bonus} (h : addItemBonuses c i t bonuses = .ok t') :
    ∀ e ∈ bonuses, ∃ text, e.2.describe = .ok text := by
  induction bonuses generalizing t with
  | nil => simp
  | cons e rest ih =>
    obtain ⟨t₁, hfirst, hrest⟩ := bind_eq_ok_iff.mp h
    obtain ⟨granted, text, -, htext, rfl⟩ := addItemBonus_spec hfirst
    exact List.forall_mem_cons.mpr ⟨⟨text, htext⟩, ih hrest⟩

theorem described_of_addItems (h : addItems c shadowed t relief items = .ok (t', relief')) :
    (∀ i ∈ items, i.GeneralDescribed) ∧ ∀ i ∈ items.filter (!shadowed.contains ·.id), i.GrantsDescribed := by
  induction items generalizing t relief with
  | nil => simp
  | cons i rest ih =>
    rw [addItems_cons_eq] at h
    obtain ⟨t₁, hgrants, h⟩ := bind_eq_ok_iff.mp h
    obtain ⟨t₂, hgeneral, h⟩ := bind_eq_ok_iff.mp h
    obtain ⟨relief₁, -, hrest⟩ := bind_eq_ok_iff.mp h
    obtain ⟨hgenerals, hothers⟩ := ih hrest
    refine ⟨List.forall_mem_cons.mpr ⟨(addGeneral_spec hgeneral).2, hgenerals⟩, fun j hj => ?_⟩
    by_cases hshadowed : shadowed.contains i.id = true
    · rw [List.filter_cons_of_neg (by simpa using hshadowed)] at hj
      exact hothers j hj
    · rw [List.filter_cons_of_pos (by simpa using hshadowed)] at hj
      rw [addGrants, if_neg hshadowed] at hgrants
      rcases List.mem_cons.mp hj with rfl | hrest
      · exact describe_of_addItemBonuses hgrants
      · exact hothers j hrest

theorem described_of_addBuildings (h : t.addBuildings buildings = .ok t') : ∀ b ∈ buildings, b.2.Described := by
  induction buildings generalizing t with
  | nil => simp
  | cons b rest ih =>
    obtain ⟨t₁, hfirst, hrest⟩ := bind_eq_ok_iff.mp h
    exact List.forall_mem_cons.mpr ⟨(addBuilding_spec hfirst).2, ih hrest⟩

/-- Everything that counts in a state has been described. -/
structure Describes (c : Content) (owned : List Item) (standing : List (String × Action)) : Prop where
  general : ∀ i ∈ owned, i.GeneralDescribed
  grants : ∀ i ∈ c.granting owned, i.GrantsDescribed
  buildings : ∀ b ∈ standing, b.2.Described

theorem describes_of_ofState {standing : List (String × Action)}
    (hstanding : c.standingBuildings state = .ok standing) (h : ofState c state = .ok t) :
    Describes c (c.ownedItems state) standing := by
  obtain ⟨⟨t₁, relief⟩, hitems, hafter⟩ := bind_eq_ok_iff.mp h
  obtain ⟨standing', hstanding', hlast⟩ := bind_eq_ok_iff.mp hafter
  obtain ⟨t₂, hbuildings, -⟩ := bind_eq_ok_iff.mp hlast
  cases hstanding.symm.trans hstanding'
  obtain ⟨hgeneral, hgrants⟩ := described_of_addItems hitems
  exact ⟨hgeneral, hgrants, described_of_addBuildings hbuildings⟩

theorem overflowsOnly_ofState {standing : List (String × Action)}
    (hstanding : c.standingBuildings state = .ok standing) (h : Describes c (c.ownedItems state) standing) :
    OverflowsOnly (ofState c state) := by
  refine (overflowsOnly_addItems h.general h.grants).bind fun p => ?_
  rw [hstanding]
  refine (overflowsOnly_addBuildings h.buildings).bind fun t => ?_
  exact (Amount.overflowsOnly_combine _ _ _ _).bind fun _ => overflowsOnly_of_eq_ok rfl

end Totals

end SurvivalRules
