import SurvivalRules.Ownership

/-!
# Total bonuses

Everything owned and built is folded into one set of totals: bonuses for actions and for categories,
the four statistics and the two cost reductions, which never exceed the whole price.
-/
namespace SurvivalRules

inductive SourceKind where
  | item
  | building
  deriving DecidableEq, Repr

def SourceKind.name : SourceKind → String
  | .item => "item"
  | .building => "building"

/-- What one item or building adds to the totals. -/
structure BonusSource where
  kind : SourceKind
  id : String
  name : String
  detail : String
  deriving DecidableEq, Repr

structure Totals where
  actions : OrderedMap String Bonus
  categories : OrderedMap String Bonus
  stats : OrderedMap Stat Amount
  craftingCostReduction : Binary64
  buildingCostReduction : Binary64
  sources : List BonusSource
  deriving DecidableEq

/-- Binary64 numbers are brief. -/
def briefAmount : Amount → Except Fault String
  | .float x => .ok x.toBrief
  | a => a.written

/-- Lists names with their amounts. -/
def listAmounts (m : OrderedMap String Amount) : Except Fault String := do
  return ", ".intercalate (← m.mapM fun e => do return e.1 ++ "=" ++ (← briefAmount e.2))

/-- Luck raises a probability in proportion, a hundred luck doubling it, but never above certainty. -/
def adjustedProbability (base luck : Amount) : Except Fault Amount := do
  let share ← luck.divNat 100
  let factor ← (Amount.int 1).add (.float share)
  return Amount.min (.float Binary64.one) (← base.mul factor)

/-- As `adjustedProbability`, for values. -/
def adjustedProbabilityOf (base luck : Value) : Except Fault Value :=
  match base.numeric?, luck.numeric? with
  | some chance, some points => Value.ofAmount <$> adjustedProbability chance points
  | none, some points => do
    let _ ← points.divNat 100
    throw .illTyped
  | _, none => .error .illTyped

namespace Totals

def stat (t : Totals) (s : Stat) : Amount := (OrderedMap.get? s t.stats).getD .zero

def addStat (t : Totals) (s : Stat) (a : Amount) : Except Fault Totals := do
  return { t with stats := OrderedMap.insert s (← (t.stat s).add a) t.stats }

def addStats (t : Totals) : OrderedMap Stat Amount → Except Fault Totals
  | [] => .ok t
  | (s, a) :: rest => do addStats (← t.addStat s a) rest

def addReductions (t : Totals) (crafting building : Binary64) : Totals :=
  { t with
    craftingCostReduction := t.craftingCostReduction.add crafting
    buildingCostReduction := t.buildingCostReduction.add building }

def addSource (t : Totals) (s : BonusSource) : Totals := { t with sources := t.sources ++ [s] }

def addBonus (m : OrderedMap String Bonus) (key : String) (b : Bonus) :
    Except Fault (OrderedMap String Bonus) := do
  return OrderedMap.insert key (← ((OrderedMap.get? key m).getD .neutral).combine b) m

/-- Whether a bonus key stands for a category: actions have one of that name and no action has the
key as its id. -/
def isCategoryKey (c : Content) (key : String) : Bool :=
  c.categories.contains key && !OrderedMap.contains key c.actions

def addItemBonus (c : Content) (i : Item) (t : Totals) (key : String) (b : Bonus) :
    Except Fault Totals := do
  let t ← if isCategoryKey c key then
      pure { t with categories := ← addBonus t.categories key b }
    else
      pure { t with actions := ← addBonus t.actions key b }
  return t.addSource ⟨.item, i.id, i.name, key ++ ": " ++ (← b.describe)⟩

def addItemBonuses (c : Content) (i : Item) (t : Totals) :
    OrderedMap String Bonus → Except Fault Totals
  | [] => .ok t
  | (key, b) :: rest => do addItemBonuses c i (← addItemBonus c i t key b) rest

/-- The general bonuses that are not zero. -/
def generalDetail (g : GeneralBonuses) : OrderedMap String Amount := g.fields.filter (!·.2.isZero)

def addGeneral (i : Item) (t : Totals) : Except Fault Totals := do
  let g := i.generalBonuses
  let t ← t.addStats [(.luck, g.luck), (.strength, g.strength), (.knowledge, g.knowledge),
    (.madness, g.madness)]
  let t := t.addReductions g.craftingCostReduction g.buildingCostReduction
  match generalDetail g with
  | [] => return t
  | detail => return t.addSource ⟨.item, i.id, i.name, ← listAmounts detail⟩

/-- Adds owned items; `relief` collects what reduces madness in the end. -/
def addItems (c : Content) (shadowed : List String) (t : Totals) (relief : Amount) :
    List Item → Except Fault (Totals × Amount)
  | [] => .ok (t, relief)
  | i :: rest => do
    let t ← if shadowed.contains i.id then pure t else addItemBonuses c i t i.actionBonuses
    let t ← addGeneral i t
    let relief ← relief.add i.generalBonuses.madnessReduction
    addItems c shadowed t relief rest

def buildingDetail (a : Action) : OrderedMap String Amount :=
  let reduction (name : String) (x : Binary64) := if x.isZero then [] else [(name, Amount.float x)]
  a.statsEffects.map (fun e => (e.1.name, e.2))
    ++ reduction "craftingCostReduction" a.craftingCostReduction
    ++ reduction "buildingCostReduction" a.buildingCostReduction

def addBuilding (t : Totals) (key : String) (a : Action) : Except Fault Totals := do
  let t ← t.addStats a.statsEffects
  let t := t.addReductions a.craftingCostReduction a.buildingCostReduction
  match buildingDetail a with
  | [] => return t
  | detail => return t.addSource ⟨.building, key, a.label, ← listAmounts detail⟩

def addBuildings (t : Totals) : List (String × Action) → Except Fault Totals
  | [] => .ok t
  | (key, a) :: rest => do addBuildings (← t.addBuilding key a) rest

/-- The statistics that the state holds as numbers; the others start at zero. -/
def statsOf (state : Tree) : OrderedMap Stat Amount :=
  let held := (state.lookup Section.stats.name).entries
  Stat.all.map fun s => (s, ((OrderedMap.get? s.name held).bind Value.amount?).getD .zero)

def start (state : Tree) : Totals := ⟨[], [], statsOf state, Binary64.zero, Binary64.zero, []⟩

/-- At most the whole; not-a-number counts as the whole. -/
def capped (x : Binary64) : Binary64 := if (Amount.float x).lt (.int 1) then x else Binary64.one

/-- Madness is reduced but not below zero, and reductions are capped. -/
def finish (t : Totals) (relief : Amount) : Except Fault Totals := do
  let madness ← (t.stat .madness).sub relief
  return { t with
    stats := OrderedMap.insert .madness (Amount.max .zero madness) t.stats
    craftingCostReduction := capped t.craftingCostReduction
    buildingCostReduction := capped t.buildingCostReduction }

def ofState (c : Content) (state : Tree) : Except Fault Totals := do
  let owned := c.ownedItems state
  let (t, relief) ← addItems c (c.superseded owned) (start state) .zero owned
  let t ← t.addBuildings (← c.standingBuildings state)
  t.finish relief

/-- The bonus of an action by id with the bonus of its category on top. -/
def forAction (t : Totals) (id : String) (category : Option String) : Except Fault Bonus := do
  let own ← (match OrderedMap.get? id t.actions with
    | some b => Bonus.neutral.combine b
    | none => .ok .neutral)
  match category.filter (!·.isEmpty) with
  | none => return own
  | some name =>
    match OrderedMap.get? name t.categories with
    | some b => own.combine b
    | none => return own

def scalars (t : Totals) : OrderedMap String Amount :=
  Stat.all.map (fun s => (s.name, t.stat s)) ++
    [("craftingCostReduction", .float t.craftingCostReduction),
      ("buildingCostReduction", .float t.buildingCostReduction)]

def sourceLine (s : BonusSource) : String :=
  s!"[Bonus] {s.kind.name} {s.name} ({s.id}): {s.detail}"

/-- A line for each source and one for the totals. -/
def explain (t : Totals) : Except Fault (List String) := do
  let lines := t.sources.map sourceLine
  let totals ← listAmounts t.scalars
  return (if lines.isEmpty then ["[Bonus] no owned equipment or buildings contribute bonuses"]
    else lines) ++ ["[Bonus] totals: " ++ totals]

end Totals

end SurvivalRules
