import SurvivalRules.Proofs.Numeric.Order
import SurvivalRules.Proofs.Ownership

/-!
# Reductions stay shares

When every declared cost reduction is a share of the price, so are the two totals. Sums of shares are at
least zero, and the cap keeps them from exceeding the whole.
-/
namespace SurvivalRules

/-- Every cost reduction that items and actions declare is a share. -/
def Content.SharesBounded (c : Content) : Prop :=
  (∀ i ∈ OrderedMap.values c.items, GeneralBonuses.isShare i.generalBonuses.craftingCostReduction ∧
    GeneralBonuses.isShare i.generalBonuses.buildingCostReduction) ∧
  ∀ a ∈ OrderedMap.values c.actions, GeneralBonuses.isShare a.craftingCostReduction ∧
    GeneralBonuses.isShare a.buildingCostReduction

instance (c : Content) : Decidable c.SharesBounded := inferInstanceAs (Decidable (_ ∧ _))

namespace Binary64

theorem nonNegative_of_isShare {x : Binary64} (h : GeneralBonuses.isShare x = true) :
    NonNegative x := by
  simp only [GeneralBonuses.isShare, Bool.and_eq_true] at h
  exact h.1

end Binary64

/-- The two cost reductions that an item declares. -/
def Item.reductions (i : Item) : Binary64 × Binary64 :=
  (i.generalBonuses.craftingCostReduction, i.generalBonuses.buildingCostReduction)

/-- The two cost reductions that an action declares for its building. -/
def Action.reductions (a : Action) : Binary64 × Binary64 := (a.craftingCostReduction, a.buildingCostReduction)

namespace Totals

open Binary64

variable {c : Content} {state : Tree} {i : Item} {items : List Item} {shadowed : List String} {t t' : Totals}
  {relief relief' : Amount} {a : Action} {key : String} {buildings : List (String × Action)}

def reductions (t : Totals) : Binary64 × Binary64 := (t.craftingCostReduction, t.buildingCostReduction)

def addPair (x y : Binary64 × Binary64) : Binary64 × Binary64 := (x.1.add y.1, x.2.add y.2)

/-- Statistics are added to the statistics only. -/
theorem exists_stats_of_addStats {amounts : OrderedMap Stat Amount} (h : t.addStats amounts = .ok t') :
    ∃ stats, t' = { t with stats := stats } := by
  induction amounts generalizing t with
  | nil =>
    cases h
    exact ⟨_, rfl⟩
  | cons e rest ih =>
    obtain ⟨s, a⟩ := e
    obtain ⟨t₁, hfirst, hrest⟩ := bind_eq_ok_iff.mp h
    obtain ⟨total, -, hlast⟩ := bind_eq_ok_iff.mp hfirst
    cases pure_eq_ok_iff.mp hlast
    obtain ⟨stats, rfl⟩ := ih hrest
    exact ⟨stats, rfl⟩

/-- What an item by its general bonuses and a building do alike: statistics and reductions are added, and a source
is listed if there is anything to list. -/
def contribute (t : Totals) (amounts : OrderedMap Stat Amount) (r : Binary64 × Binary64)
    (source : String → BonusSource) (detail : OrderedMap String Amount) : Except Fault Totals := do
  let t ← t.addStats amounts
  let t := t.addReductions r.1 r.2
  match detail with
  | [] => return t
  | detail => return t.addSource (source (← listAmounts detail))

theorem addGeneral_eq (i : Item) (t : Totals) : addGeneral i t =
    t.contribute [(.luck, i.generalBonuses.luck), (.strength, i.generalBonuses.strength),
      (.knowledge, i.generalBonuses.knowledge), (.madness, i.generalBonuses.madness)] i.reductions
      (⟨.item, i.id, i.name, ·⟩) (generalDetail i.generalBonuses) := rfl

theorem addBuilding_eq (t : Totals) (key : String) (a : Action) : t.addBuilding key a =
    t.contribute a.statsEffects a.reductions (⟨.building, key, a.label, ·⟩) (buildingDetail a) := rfl

section

variable {amounts : OrderedMap Stat Amount} {r : Binary64 × Binary64} {source : String → BonusSource}
  {detail : OrderedMap String Amount}

/-- Contributing changes the statistics, the list of sources and the reductions, and what is listed is written. -/
theorem contribute_spec (h : t.contribute amounts r source detail = .ok t') :
    (∃ stats sources, t' = ⟨t.actions, t.categories, stats, t.craftingCostReduction.add r.1,
      t.buildingCostReduction.add r.2, sources⟩) ∧ ∃ text, listAmounts detail = .ok text := by
  obtain ⟨t₁, hstats, hrest⟩ := bind_eq_ok_iff.mp h
  obtain ⟨stats, rfl⟩ := exists_stats_of_addStats hstats
  split at hrest
  · cases pure_eq_ok_iff.mp hrest
    exact ⟨⟨stats, _, rfl⟩, _, rfl⟩
  · obtain ⟨text, htext, hlast⟩ := bind_eq_ok_iff.mp hrest
    cases pure_eq_ok_iff.mp hlast
    exact ⟨⟨stats, _, rfl⟩, text, htext⟩

theorem exists_contribute {t₁ : Totals} {text : String} (hstats : t.addStats amounts = .ok t₁)
    (htext : listAmounts detail = .ok text) : ∃ t', t.contribute amounts r source detail = .ok t' := by
  simp only [contribute, hstats, bind, Except.bind]
  split
  · exact ⟨_, rfl⟩
  · rw [htext]
    exact ⟨_, rfl⟩

end

theorem addGeneral_spec (h : addGeneral i t = .ok t') :
    (∃ stats sources, t' = ⟨t.actions, t.categories, stats, t.craftingCostReduction.add i.reductions.1,
      t.buildingCostReduction.add i.reductions.2, sources⟩) ∧
      ∃ text, listAmounts (generalDetail i.generalBonuses) = .ok text :=
  contribute_spec ((addGeneral_eq i t).symm.trans h)

theorem addBuilding_spec (h : t.addBuilding key a = .ok t') :
    (∃ stats sources, t' = ⟨t.actions, t.categories, stats, t.craftingCostReduction.add a.reductions.1,
      t.buildingCostReduction.add a.reductions.2, sources⟩) ∧ ∃ text, listAmounts (buildingDetail a) = .ok text :=
  contribute_spec ((addBuilding_eq t key a).symm.trans h)

theorem reductions_addGeneral (h : addGeneral i t = .ok t') : t'.reductions = addPair t.reductions i.reductions := by
  obtain ⟨⟨stats, sources, rfl⟩, -⟩ := addGeneral_spec h
  rfl

/-- The bonuses for actions and those for categories. -/
def bonuses (t : Totals) : OrderedMap String Bonus × OrderedMap String Bonus := (t.actions, t.categories)

/-- Adds one bonus to those of its category or to those of its action. -/
def grant (c : Content) (granted : OrderedMap String Bonus × OrderedMap String Bonus) (e : String × Bonus) :
    Except Fault (OrderedMap String Bonus × OrderedMap String Bonus) :=
  if isCategoryKey c e.1 then do return (granted.1, ← addBonus granted.2 e.1 e.2)
  else do return (← addBonus granted.1 e.1 e.2, granted.2)

/-- A bonus of an item is granted, described and listed, and nothing else changes. -/
theorem addItemBonus_eq (c : Content) (i : Item) (t : Totals) (key : String) (b : Bonus) :
    addItemBonus c i t key b = (do
      let granted ← grant c t.bonuses (key, b)
      let text ← b.describe
      return ⟨granted.1, granted.2, t.stats, t.craftingCostReduction, t.buildingCostReduction,
        t.sources ++ [⟨.item, i.id, i.name, key ++ ": " ++ text⟩]⟩) := by
  unfold addItemBonus grant
  dsimp only [bonuses]
  split
  · cases addBonus t.categories key b <;> rfl
  · cases addBonus t.actions key b <;> rfl

theorem addItemBonus_spec {b : Bonus} (h : addItemBonus c i t key b = .ok t') :
    ∃ granted text, grant c t.bonuses (key, b) = .ok granted ∧ b.describe = .ok text ∧
      t' = ⟨granted.1, granted.2, t.stats, t.craftingCostReduction, t.buildingCostReduction,
        t.sources ++ [⟨.item, i.id, i.name, key ++ ": " ++ text⟩]⟩ := by
  rw [addItemBonus_eq] at h
  obtain ⟨granted, hgranted, h⟩ := bind_eq_ok_iff.mp h
  obtain ⟨text, htext, hlast⟩ := bind_eq_ok_iff.mp h
  exact ⟨granted, text, hgranted, htext, (pure_eq_ok_iff.mp hlast).symm⟩

theorem reductions_addItemBonuses {bonuses : OrderedMap String Bonus} (h : addItemBonuses c i t bonuses = .ok t') :
    t'.reductions = t.reductions := by
  induction bonuses generalizing t with
  | nil =>
    cases h
    rfl
  | cons e rest ih =>
    obtain ⟨key, b⟩ := e
    obtain ⟨t₁, hfirst, hrest⟩ := bind_eq_ok_iff.mp h
    obtain ⟨granted, text, -, -, rfl⟩ := addItemBonus_spec hfirst
    rw [ih hrest]
    rfl

/-- The bonuses of an item for actions, unless it is shadowed. -/
def addGrants (c : Content) (shadowed : List String) (i : Item) (t : Totals) : Except Fault Totals :=
  if shadowed.contains i.id then .ok t else addItemBonuses c i t i.actionBonuses

theorem addItems_cons_eq (c : Content) (shadowed : List String) (t : Totals) (relief : Amount) (i : Item)
    (rest : List Item) : addItems c shadowed t relief (i :: rest) = (do
      let t ← addGrants c shadowed i t
      let t ← addGeneral i t
      let relief ← relief.add i.generalBonuses.madnessReduction
      addItems c shadowed t relief rest) := by
  conv_lhs => unfold addItems
  unfold addGrants
  dsimp only
  split <;> rfl

/-- An item grants its action bonuses unless it is shadowed, and in every case its general bonuses. -/
theorem addItems_cons {rest : List Item} (h : addItems c shadowed t relief (i :: rest) = .ok (t', relief')) :
    ∃ t₁, (t₁ = t ∨ addItemBonuses c i t i.actionBonuses = .ok t₁) ∧ ∃ t₂, addGeneral i t₁ = .ok t₂ ∧
      ∃ relief₁, addItems c shadowed t₂ relief₁ rest = .ok (t', relief') := by
  rw [addItems_cons_eq] at h
  obtain ⟨t₁, hgrants, h⟩ := bind_eq_ok_iff.mp h
  obtain ⟨t₂, hgeneral, h⟩ := bind_eq_ok_iff.mp h
  obtain ⟨relief₁, -, hrest⟩ := bind_eq_ok_iff.mp h
  refine ⟨t₁, ?_, t₂, hgeneral, relief₁, hrest⟩
  unfold addGrants at hgrants
  split at hgrants
  · cases hgrants
    exact Or.inl rfl
  · exact Or.inr hgrants

/-- The reductions of all items count, shadowed or not. -/
theorem reductions_addItems (h : addItems c shadowed t relief items = .ok (t', relief')) :
    t'.reductions = (items.map Item.reductions).foldl addPair t.reductions := by
  induction items generalizing t relief with
  | nil =>
    cases h
    rfl
  | cons i rest ih =>
    obtain ⟨t₁, hbonuses, t₂, hgeneral, relief₁, hrest⟩ := addItems_cons h
    have hsame : t₁.reductions = t.reductions := by
      rcases hbonuses with rfl | hadd
      · rfl
      · exact reductions_addItemBonuses hadd
    rw [ih hrest, reductions_addGeneral hgeneral, hsame]
    rfl

theorem reductions_addBuildings (h : t.addBuildings buildings = .ok t') :
    t'.reductions = (buildings.map (·.2.reductions)).foldl addPair t.reductions := by
  induction buildings generalizing t with
  | nil =>
    cases h
    rfl
  | cons b rest ih =>
    obtain ⟨key, a⟩ := b
    obtain ⟨t₁, hfirst, hrest⟩ := bind_eq_ok_iff.mp h
    obtain ⟨⟨stats, sources, rfl⟩, -⟩ := addBuilding_spec hfirst
    rw [ih hrest]
    rfl

/-- The reductions that all that is owned and stands declares, added up before they are capped. -/
def summedReductions (owned : List Item) (standing : List (String × Action)) : Binary64 × Binary64 :=
  (owned.map Item.reductions ++ standing.map (·.2.reductions)).foldl addPair (Binary64.zero, Binary64.zero)

theorem reductions_ofState (h : ofState c state = .ok t) : ∃ standing, c.standingBuildings state = .ok standing ∧
    t.reductions = Prod.map capped capped (summedReductions (c.ownedItems state) standing) := by
  obtain ⟨⟨t₁, relief⟩, hitems, hafter⟩ := bind_eq_ok_iff.mp h
  obtain ⟨standing, hstanding, hlast⟩ := bind_eq_ok_iff.mp hafter
  obtain ⟨t₂, hbuildings, hfinish⟩ := bind_eq_ok_iff.mp hlast
  obtain ⟨madness, -, hcapped⟩ := bind_eq_ok_iff.mp hfinish
  cases pure_eq_ok_iff.mp hcapped
  refine ⟨standing, hstanding, ?_⟩
  have hsum : t₂.reductions = summedReductions (c.ownedItems state) standing := by
    rw [reductions_addBuildings hbuildings, reductions_addItems hitems, summedReductions, List.foldl_append]
    rfl
  rw [← hsum]
  rfl

/-- What two numbers have each keeps having while such pairs are added to them. -/
theorem foldl_addPair_induction {P : Binary64 → Prop} (hadd : ∀ x y, P x → P y → P (x.add y))
    {pairs : List (Binary64 × Binary64)} (hpairs : ∀ r ∈ pairs, P r.1 ∧ P r.2) {start : Binary64 × Binary64}
    (hstart : P start.1 ∧ P start.2) : P (pairs.foldl addPair start).1 ∧ P (pairs.foldl addPair start).2 := by
  induction pairs generalizing start with
  | nil => exact hstart
  | cons r rest ih =>
    obtain ⟨hfirst, hrest⟩ := List.forall_mem_cons.mp hpairs
    exact ih hrest ⟨hadd _ _ hstart.1 hfirst.1, hadd _ _ hstart.2 hfirst.2⟩

theorem capped_le_one (x : Binary64) : (Amount.float (capped x)).le (.int 1) = true := by
  unfold capped
  split
  next hlt =>
    cases x with
    | nan => cases hlt
    | infinity negative => cases negative <;> revert hlt <;> decide
    | negativeZero => decide
    | finite q hq =>
      rw [Amount.lt_iff_of_point? (Amount.point?_float rfl) (Amount.point?_int 1)] at hlt
      rw [Amount.le_iff_of_point? (Amount.point?_float rfl) (Amount.point?_int 1)]
      exact hlt.le
  next => decide +kernel

theorem isShare_capped {x : Binary64} (h : x.NonNegative) : GeneralBonuses.isShare (capped x) = true := by
  have hlow : (capped x).NonNegative := by
    unfold capped
    split
    · exact h
    · decide +kernel
  simp only [GeneralBonuses.isShare, Bool.and_eq_true]
  exact ⟨hlow, capped_le_one x⟩

/-- With declared reductions that are shares, the totals of every state are shares. -/
theorem isShare_ofState (hc : c.SharesBounded) (h : ofState c state = .ok t) :
    GeneralBonuses.isShare t.craftingCostReduction = true ∧
      GeneralBonuses.isShare t.buildingCostReduction = true := by
  obtain ⟨standing, hstanding, hsum⟩ := reductions_ofState h
  obtain ⟨hcrafting, hbuilding⟩ := Prod.mk.inj hsum
  have hzero : NonNegative Binary64.zero := by decide +kernel
  have hpairs : ∀ r ∈ (c.ownedItems state).map Item.reductions ++ standing.map (·.2.reductions),
      NonNegative r.1 ∧ NonNegative r.2 := by
    intro r hr
    rcases List.mem_append.mp hr with hitem | hbuilding
    · obtain ⟨i, hi, rfl⟩ := List.mem_map.mp hitem
      exact (hc.1 i (Content.item_mem_values_of_mem_ownedItems hi)).imp nonNegative_of_isShare nonNegative_of_isShare
    · obtain ⟨b, hb, rfl⟩ := List.mem_map.mp hbuilding
      obtain ⟨p, hp⟩ := Content.mem_of_standingAmong hstanding hb
      exact (hc.2 b.2 (Content.mem_values_of_mem_buildingActions hp)).imp nonNegative_of_isShare
        nonNegative_of_isShare
  have hsigns : (summedReductions (c.ownedItems state) standing).1.NonNegative ∧
      (summedReductions (c.ownedItems state) standing).2.NonNegative :=
    foldl_addPair_induction (fun _ _ => nonNegative_add) hpairs ⟨hzero, hzero⟩
  rw [hcrafting, hbuilding]
  exact ⟨isShare_capped hsigns.1, isShare_capped hsigns.2⟩

end Totals

end SurvivalRules
