import SurvivalRules.Proofs.Totals.Bonuses
import SurvivalRules.Proofs.Totals.Overflow

/-!
# Who grants bonuses

The bonuses of the totals are those of the items that no better tier supersedes, added up in order. So they stay
the same when an item that is superseded is no longer owned.
-/
namespace SurvivalRules.Totals

variable {c : Content} {i : Item} {items : List Item} {shadowed : List String} {state : Tree} {t t' : Totals}
  {relief relief' : Amount}

theorem foldlM_grant_of_addItemBonuses {bonuses : OrderedMap String Bonus}
    (h : addItemBonuses c i t bonuses = .ok t') : bonuses.foldlM (grant c) t.bonuses = .ok t'.bonuses := by
  induction bonuses generalizing t with
  | nil =>
    cases h
    rfl
  | cons e rest ih =>
    obtain ⟨t₁, hfirst, hrest⟩ := bind_eq_ok_iff.mp h
    obtain ⟨granted, text, hgranted, -, rfl⟩ := addItemBonus_spec hfirst
    exact bind_eq_ok_iff.mpr ⟨granted, hgranted, ih hrest⟩

theorem SameBonuses.bonuses_eq (h : SameBonuses t t') : t'.bonuses = t.bonuses :=
  Prod.ext h.1 h.2

theorem foldlM_grant_of_addItems (h : addItems c shadowed t relief items = .ok (t', relief')) :
    ((items.filter (!shadowed.contains ·.id)).flatMap (·.actionBonuses)).foldlM (grant c) t.bonuses =
      .ok t'.bonuses := by
  induction items generalizing t relief with
  | nil =>
    cases h
    rfl
  | cons i rest ih =>
    rw [addItems_cons_eq] at h
    obtain ⟨t₁, hgrants, h⟩ := bind_eq_ok_iff.mp h
    obtain ⟨t₂, hgeneral, h⟩ := bind_eq_ok_iff.mp h
    obtain ⟨relief₁, -, hrest⟩ := bind_eq_ok_iff.mp h
    -- the general bonuses leave what is granted alone
    have hothers := ih hrest
    rw [(sameBonuses_addGeneral hgeneral).bonuses_eq] at hothers
    unfold addGrants at hgrants
    split at hgrants
    next hshadowed =>
      cases hgrants
      rwa [List.filter_cons_of_neg (by simpa using hshadowed)]
    next hshadowed =>
      rw [List.filter_cons_of_pos (by simpa using hshadowed), List.flatMap_cons, List.foldlM_append]
      exact bind_eq_ok_iff.mpr ⟨t₁.bonuses, foldlM_grant_of_addItemBonuses hgrants, hothers⟩

/-- The bonuses of a state are those of the items that grant any. -/
theorem foldlM_grant_of_ofState (h : ofState c state = .ok t) :
    ((c.granting (c.ownedItems state)).flatMap (·.actionBonuses)).foldlM (grant c) ([], []) = .ok t.bonuses := by
  obtain ⟨⟨t₁, relief⟩, hitems, hafter⟩ := bind_eq_ok_iff.mp h
  obtain ⟨standing, -, hlast⟩ := bind_eq_ok_iff.mp hafter
  obtain ⟨t₂, hbuildings, hfinish⟩ := bind_eq_ok_iff.mp hlast
  obtain ⟨madness, -, hcapped⟩ := bind_eq_ok_iff.mp hfinish
  cases pure_eq_ok_iff.mp hcapped
  have hgranted := foldlM_grant_of_addItems hitems
  rw [← (sameBonuses_addBuildings hbuildings).bonuses_eq] at hgranted
  exact hgranted

theorem sameBonuses_of_granting {state' : Tree}
    (hgranting : c.granting (c.ownedItems state') = c.granting (c.ownedItems state))
    (h : ofState c state = .ok t) (h' : ofState c state' = .ok t') : SameBonuses t t' := by
  have hgranted := foldlM_grant_of_ofState h'
  rw [hgranting, foldlM_grant_of_ofState h] at hgranted
  obtain ⟨hactions, hcategories⟩ := Prod.mk.inj (Except.ok.inj hgranted)
  exact ⟨hactions.symm, hcategories.symm⟩

theorem SameBonuses.forAction_eq (h : SameBonuses t t') (id : String) (category : Option String) :
    t'.forAction id category = t.forAction id category := by
  unfold forAction
  rw [h.1, h.2]

/-- Which buildings stand does not depend on the items. -/
theorem standingBuildings_write (c : Content) (state : Tree) (i : Item) (v : Value) :
    c.standingBuildings (state.write v [i.slot.name, i.id]) = c.standingBuildings state := by
  have hname : i.slot.name ≠ Section.buildings.name := by cases i.slot <;> decide
  rw [Content.standingBuildings, Tree.lookup_write_of_ne hname]
  rfl

theorem describes_unowned {standing : List (String × Action)} (hc : c.IsFiled) (hapart : c.FamiliesApart)
    (hi : i ∈ c.ownedItems state) (hsuperseded : i.id ∈ c.superseded (c.ownedItems state))
    (hd : state.DistinctAt i.slot.name) (h : Describes c (c.ownedItems state) standing) :
    Describes c (c.ownedItems (Content.unowned state i)) standing := by
  rw [Content.ownedItems_unowned hc hi hd]
  refine ⟨fun j hj => h.general j (List.mem_of_mem_filter hj), ?_, h.buildings⟩
  rw [Content.granting_filter hc hapart hsuperseded]
  exact h.grants

/-- An owned tier that is not superseded is the last owned one of its family. When no item is in two families, then
without an item that is superseded all actions and categories have the same bonuses, unless a statistic that it
balanced is now beyond the range of binary64 where it meets a binary64 number. -/
theorem superseded_grants_nothing (hc : c.IsLoaded) (state : Tree) :
    (∀ f ∈ OrderedMap.values c.families, ∀ id ∈ f.tiers, id ∈ (c.ownedItems state).map (·.id) →
      id ∉ c.superseded (c.ownedItems state) → IsLast (· ∈ (c.ownedItems state).map (·.id)) f.tiers id) ∧
    (c.FamiliesApart → ∀ t, ofState c state = .ok t → ∀ i ∈ c.ownedItems state,
      i.id ∈ c.superseded (c.ownedItems state) → state.DistinctAt i.slot.name →
      (∃ t', ofState c (Content.unowned state i) = .ok t' ∧ t'.actions = t.actions ∧ t'.categories = t.categories ∧
        ∀ id category, t'.forAction id category = t.forAction id category) ∨
      ofState c (Content.unowned state i) = .error .outOfRange) := by
  have hfiled := hc.isFiled
  refine ⟨fun f hf id htier howned hid => Content.isLast_of_not_superseded hfiled hf htier howned hid, ?_⟩
  intro hapart t ht i hi hsuperseded hd
  obtain ⟨standing, hstanding, -⟩ := reductions_ofState ht
  have hdescribes := describes_unowned hfiled hapart hi hsuperseded hd (describes_of_ofState hstanding ht)
  have hends := overflowsOnly_ofState ((standingBuildings_write c state i _).trans hstanding) hdescribes
  refine hends.ok_or_outOfRange.imp_left ?_
  rintro ⟨t', ht'⟩
  have hgranting : c.granting (c.ownedItems (Content.unowned state i)) = c.granting (c.ownedItems state) := by
    rw [Content.ownedItems_unowned hfiled hi hd, Content.granting_filter hfiled hapart hsuperseded]
  have hsame := sameBonuses_of_granting hgranting ht ht'
  exact ⟨t', ht', hsame.1, hsame.2, hsame.forAction_eq⟩

/-- An axe with a multiplier for gathering wood and some luck. -/
def axe (id : String) (multiplier : ℚ) (luck : ℤ) : Item :=
  ⟨id, id, "", .tools, [("gatherWood", ⟨[], Binary64.nearest multiplier, Binary64.zero, Binary64.zero⟩)],
    { GeneralBonuses.none with luck := .int luck }⟩

def charm : Item :=
  ⟨"charm", "charm", "", .relics, [], { GeneralBonuses.none with luck := .float (Binary64.nearest (1 / 2)) }⟩

def axes : EquipmentFamily := ⟨"axes", .tools, ["stoneAxe", "ironAxe"]⟩

/-- The stone axe brings as much bad luck as the iron axe brings good luck. -/
def toolbox (luck : ℤ) : Content :=
  ⟨[], [("stoneAxe", axe "stoneAxe" (5 / 4) (-luck)), ("ironAxe", axe "ironAxe" (3 / 2) luck), ("charm", charm)],
    [("axes", axes)], []⟩

def toolboxState : Tree :=
  [("tools", .mapping [("stoneAxe", .bool true), ("ironAxe", .bool true)]),
    ("relics", .mapping [("charm", .bool true)])]

/-- The items of the toolbox as they are given. -/
def toolboxItems (luck : ℤ) : List Value :=
  [(axe "stoneAxe" (5 / 4) (-luck)).toValue, (axe "ironAxe" (3 / 2) luck).toValue, charm.toValue]

theorem stone_axe_grants_nothing :
    Content.ofRecords [] (toolboxItems 7) [(Family.equipment axes).toValue] = .ok (toolbox 7) ∧
      ∃ t t', ofState (toolbox 7) toolboxState = .ok t ∧
        ofState (toolbox 7) (Content.unowned toolboxState (axe "stoneAxe" (5 / 4) (-7))) = .ok t' ∧
        t'.actions = t.actions ∧ ∀ id category, t'.forAction id category = t.forAction id category := by
  have hload : Content.ofRecords [] (toolboxItems 7) [(Family.equipment axes).toValue] = .ok (toolbox 7) := by
    decide +kernel
  have hreturns : (ofState (toolbox 7) toolboxState).toOption.isSome = true := by decide +kernel
  have hdistinct : toolboxState.DistinctAt (axe "stoneAxe" (5 / 4) (-7)).slot.name := by
    unfold Tree.DistinctAt
    decide +kernel
  refine ⟨hload, ?_⟩
  cases ht : ofState (toolbox 7) toolboxState with
  | error cause =>
    rw [ht] at hreturns
    cases hreturns
  | ok t =>
    have hends := (superseded_grants_nothing (Or.inl ⟨_, _, _, hload⟩) toolboxState).2 (by decide) t ht
      (axe "stoneAxe" (5 / 4) (-7)) (by decide +kernel) (by decide +kernel) hdistinct
    rcases hends with ⟨t', ht', hactions, -, hforAction⟩ | herror
    · exact ⟨t, t', rfl, ht', hactions, hforAction⟩
    · exact absurd herror (by decide +kernel)

/-- The luck of the iron axe alone is beyond the range of binary64 and meets that of the charm. -/
theorem stone_axe_balances_luck :
    Content.ofRecords [] (toolboxItems (10 ^ 309)) [(Family.equipment axes).toValue] = .ok (toolbox (10 ^ 309)) ∧
      (toolbox (10 ^ 309)).FamiliesApart ∧
      (toolbox (10 ^ 309)).superseded ((toolbox (10 ^ 309)).ownedItems toolboxState) = ["stoneAxe"] ∧
      (ofState (toolbox (10 ^ 309)) toolboxState).toOption.isSome = true ∧
      ofState (toolbox (10 ^ 309)) (Content.unowned toolboxState (axe "stoneAxe" (5 / 4) (-10 ^ 309))) =
        .error .outOfRange := by
  refine ⟨?_, ?_, ?_, ?_, ?_⟩ <;> decide +kernel

end SurvivalRules.Totals
