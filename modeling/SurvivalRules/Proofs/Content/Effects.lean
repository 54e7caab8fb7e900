import SurvivalRules.Proofs.Resolve.Scaling

/-!
# Content without its effects

The totals look at what actions are, and not at what they do. So content whose actions differ in their
effects alone gives the same totals, and an action can be given other effects at one level without any
change around it.
-/
namespace SurvivalRules

def TieredPlan.withoutEffects (p : TieredPlan) : TieredPlan := { p with effects := [] }

def Plan.withoutEffects : Plan → Plan
  | .flat p => .flat { p with effects := [] }
  | .tiered p => .tiered p.withoutEffects

def Action.withoutEffects (a : Action) : Action := { a with plan := a.plan.withoutEffects }

def Content.withoutEffects (c : Content) : Content :=
  { c with actions := OrderedMap.mapValues Action.withoutEffects c.actions }

/-- A building as the totals see it. -/
def raisedWithoutEffects (e : Action × TieredPlan) : Action × TieredPlan :=
  (e.1.withoutEffects, e.2.withoutEffects)

theorem Action.tiered?_withoutEffects (a : Action) :
    a.withoutEffects.tiered? = a.tiered?.map TieredPlan.withoutEffects := by
  unfold withoutEffects tiered?
  cases a.plan <;> rfl

namespace Content

variable (c : Content) (state : Tree)

theorem categories_withoutEffects : c.withoutEffects.categories = c.categories := by
  simp only [categories, withoutEffects, OrderedMap.values, OrderedMap.mapValues, List.map_map,
    List.filterMap_map]
  rfl

theorem isCategoryKey_withoutEffects (key : String) :
    Totals.isCategoryKey c.withoutEffects key = Totals.isCategoryKey c key := by
  have hids : OrderedMap.contains key c.withoutEffects.actions = OrderedMap.contains key c.actions := by
    simp [OrderedMap.contains, withoutEffects]
  rw [Totals.isCategoryKey, categories_withoutEffects, hids]
  rfl

theorem buildingActions_withoutEffects :
    c.withoutEffects.buildingActions = OrderedMap.mapValues raisedWithoutEffects c.buildingActions := by
  unfold buildingActions OrderedMap.ofList
  rw [OrderedMap.mapValues_overlay]
  congr 1
  simp only [withoutEffects, OrderedMap.values, OrderedMap.mapValues, List.map_map, List.filterMap_map,
    List.map_filterMap]
  congr 1
  funext e
  simp only [Function.comp, Action.tiered?_withoutEffects]
  cases e.2.tiered? <;> rfl

theorem standingAmong_withoutEffects (counts : Tree) (raised : List (String × Action × TieredPlan)) :
    c.withoutEffects.standingAmong counts (OrderedMap.mapValues raisedWithoutEffects raised) =
      OrderedMap.mapValues Action.withoutEffects <$> c.standingAmong counts raised := by
  induction raised with
  | nil => rfl
  | cons e rest ih =>
    obtain ⟨key, a, p⟩ := e
    have hstands : c.withoutEffects.stands counts key = c.stands counts key := rfl
    have hunfold : c.withoutEffects.standingAmong counts
        (OrderedMap.mapValues raisedWithoutEffects ((key, a, p) :: rest)) = (do
          let standing ← c.stands counts key
          let more ← OrderedMap.mapValues Action.withoutEffects <$> c.standingAmong counts rest
          return if standing then (key, a.withoutEffects) :: more else more) := by
      rw [← ih, ← hstands]
      rfl
    rw [hunfold, standingAmong]
    cases c.stands counts key with
    | error cause => rfl
    | ok standing =>
      cases c.standingAmong counts rest with
      | error cause => rfl
      | ok more => cases standing <;> rfl

end Content

namespace Totals

variable (c : Content) (state : Tree)

theorem addItemBonus_withoutEffects : addItemBonus c.withoutEffects = addItemBonus c := by
  funext i t key b
  simp only [addItemBonus, Content.isCategoryKey_withoutEffects]

theorem addItemBonuses_withoutEffects (i : Item) (t : Totals) (bonuses : OrderedMap String Bonus) :
    addItemBonuses c.withoutEffects i t bonuses = addItemBonuses c i t bonuses := by
  induction bonuses generalizing t with
  | nil => rfl
  | cons e rest ih => simp only [addItemBonuses, addItemBonus_withoutEffects, ih]

theorem addItems_withoutEffects (shadowed : List String) (t : Totals) (relief : Amount)
    (items : List Item) :
    addItems c.withoutEffects shadowed t relief items = addItems c shadowed t relief items := by
  induction items generalizing t relief with
  | nil => rfl
  | cons i rest ih => simp only [addItems, addItemBonuses_withoutEffects, ih]

theorem addBuildings_withoutEffects (t : Totals) (standing : List (String × Action)) :
    t.addBuildings (OrderedMap.mapValues Action.withoutEffects standing) = t.addBuildings standing := by
  induction standing generalizing t with
  | nil => rfl
  | cons e rest ih =>
    obtain ⟨key, a⟩ := e
    have hone : t.addBuilding key a.withoutEffects = t.addBuilding key a := rfl
    have hunfold : t.addBuildings (OrderedMap.mapValues Action.withoutEffects ((key, a) :: rest)) = (do
        addBuildings (← t.addBuilding key a.withoutEffects)
          (OrderedMap.mapValues Action.withoutEffects rest)) := rfl
    rw [hunfold, hone]
    simp only [ih, addBuildings]

/-- The totals do not depend on what actions do. -/
theorem ofState_withoutEffects : ofState c.withoutEffects state = ofState c state := by
  have howned : c.withoutEffects.ownedItems state = c.ownedItems state := rfl
  have hsuperseded : ∀ owned, c.withoutEffects.superseded owned = c.superseded owned := fun _ => rfl
  have hstanding : c.withoutEffects.standingBuildings state =
      OrderedMap.mapValues Action.withoutEffects <$> c.standingBuildings state := by
    unfold Content.standingBuildings
    rw [Content.buildingActions_withoutEffects, Content.standingAmong_withoutEffects]
  simp only [ofState, howned, hsuperseded, addItems_withoutEffects, hstanding]
  cases addItems c (c.superseded (c.ownedItems state)) (start state) .zero (c.ownedItems state) with
  | error cause => rfl
  | ok added =>
    cases c.standingBuildings state with
    | error cause => rfl
    | ok standing =>
      simp only [bind, Except.bind, Functor.map, Except.map, addBuildings_withoutEffects]

end Totals

/-- The action with other effects at a level. -/
def Action.withEffects (a : Action) (level : Option Int) (effects : Tree) : Action :=
  { a with
    plan := match a.plan with
      | .flat p => .flat { p with effects := effects }
      | .tiered p =>
        .tiered { p with
          effects := (level.map fun n => OrderedMap.insert n effects p.effects).getD p.effects } }

/-- The content with another action in a place that is taken. -/
def Content.withAction (c : Content) (id : String) (a : Action) : Content :=
  { c with actions := OrderedMap.insert id a c.actions }

section

variable {c : Content} {id : String} {a b : Action} {state : Tree} {tier : Tier} {effects : Tree}

theorem Action.withoutEffects_withEffects (a : Action) (level : Option Int) (effects : Tree) :
    (a.withEffects level effects).withoutEffects = a.withoutEffects := by
  unfold withoutEffects withEffects
  cases a.plan <;> rfl

theorem Totals.ofState_withAction (ha : c.action? id = some a)
    (hsame : b.withoutEffects = a.withoutEffects) (state : Tree) :
    ofState (c.withAction id b) state = ofState c state := by
  have hcontent : (c.withAction id b).withoutEffects = c.withoutEffects := by
    simp only [Content.withoutEffects, Content.withAction, OrderedMap.mapValues_insert, hsame]
    rw [← OrderedMap.mapValues_insert, OrderedMap.insert_of_get? ha]
  rw [← ofState_withoutEffects, hcontent, ofState_withoutEffects]

theorem Action.tier_withEffects (htier : a.tier state = .ok tier) (effects : Tree) :
    (a.withEffects tier.level effects).tier state = .ok { tier with effects := some effects } := by
  unfold Action.tier at htier
  unfold withEffects Action.tier
  cases hplan : a.plan with
  | flat p =>
    rw [hplan] at htier
    cases pure_eq_ok_iff.mp htier
    rfl
  | tiered p =>
    rw [hplan] at htier
    obtain ⟨level, hlevel, hlast⟩ := bind_eq_ok_iff.mp htier
    cases pure_eq_ok_iff.mp hlast
    refine bind_eq_ok_iff.mpr ⟨level, hlevel, ?_⟩
    simp only [Option.map_some, Option.getD_some, OrderedMap.get?_insert_self]
    rfl

theorem Resolution.circumstances_withEffects (ha : c.action? id = some a) (level : Option Int)
    (effects state : Tree) :
    circumstances (c.withAction id (a.withEffects level effects)) (a.withEffects level effects) state =
      circumstances c a state := by
  have htotals := Totals.ofState_withAction ha (a.withoutEffects_withEffects level effects) state
  have hreduction : (a.withEffects level effects).paymentReduction = a.paymentReduction := by
    funext t
    unfold Action.paymentReduction Action.withEffects Action.isCrafting Action.tiered?
    cases a.plan <;> rfl
  unfold circumstances
  rw [htotals, hreduction]
  rfl

/-- With other effects at the level that applies, an action is resolved as before on these. -/
theorem Resolution.returns_resolve_withEffects {amplify : Bool} {d d' : Draws} {r : Resolution}
    (ha : c.action? id = some a) (htier : a.tier state = .ok tier) :
    Drawing.Returns (resolve (c.withAction id (a.withEffects tier.level effects)) id state amplify) d r d' ↔
      Drawing.Returns (ofEffects c a state amplify effects) d r d' := by
  have hfound : (c.withAction id (a.withEffects tier.level effects)).action? id =
      some (a.withEffects tier.level effects) := OrderedMap.get?_insert_self _ _ _
  rw [returns_resolve_iff hfound (Action.tier_withEffects htier effects) rfl]
  simp only [returns_ofEffects_iff, circumstances_withEffects ha]

end

end SurvivalRules
