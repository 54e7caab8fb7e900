import SurvivalRules.Bonus
import SurvivalRules.Content.Field
import SurvivalRules.State.Path

/-!
# Items

An item fills a slot. It grants bonuses to actions, by action id or by category, and general bonuses
to its owner.
-/
namespace SurvivalRules

inductive Slot where
  | tools
  | weapons
  | clothing
  | relics
  | blessings
  deriving DecidableEq, Repr

namespace Slot

def all : List Slot := [.tools, .weapons, .clothing, .relics, .blessings]

/-- The section that records which items of the slot are owned. -/
def area : Slot → Section
  | .tools => .tools
  | .weapons => .weapons
  | .clothing => .clothing
  | .relics => .relics
  | .blessings => .blessings

def name (s : Slot) : String := s.area.name

def ofName? (s : String) : Option Slot := all.find? (·.name = s)

theorem ofName?_name (s : Slot) : ofName? s.name = some s := by cases s <;> rfl

end Slot

structure GeneralBonuses where
  luck : Amount
  strength : Amount
  knowledge : Amount
  madness : Amount
  madnessReduction : Amount
  craftingCostReduction : Binary64
  buildingCostReduction : Binary64
  deriving DecidableEq, Repr

structure Item where
  id : String
  name : String
  description : String
  slot : Slot
  actionBonuses : OrderedMap String Bonus
  generalBonuses : GeneralBonuses
  deriving DecidableEq, Repr

namespace Bonus

def checkMultiplier (b : Bonus) : Checked Bonus :=
  if (Amount.float b.resourceMultiplier).le Amount.zero then .broken "resourceMultiplier must be > 0"
  else .ok b

def ofRecord (r : Tree) : Checked Bonus :=
  (Bonus.mk <$> Field.optional r "resourceBonus" [] (Field.mapping Field.amount)
    <*> Field.optional r "resourceMultiplier" Binary64.one Field.binary64
    <*> Field.optional r "cooldownReduction" Binary64.zero Field.binary64
    <*> Field.optional r "probabilityBonus" Binary64.zero Field.binary64).andThen checkMultiplier

def toValue (b : Bonus) : Value :=
  .mapping [
    ("resourceBonus", .mapping (OrderedMap.mapValues Value.ofAmount b.resourceBonus)),
    ("resourceMultiplier", .float b.resourceMultiplier),
    ("cooldownReduction", .float b.cooldownReduction),
    ("probabilityBonus", .float b.probabilityBonus)]

end Bonus

namespace GeneralBonuses

def none : GeneralBonuses :=
  ⟨.zero, .zero, .zero, .zero, .zero, Binary64.zero, Binary64.zero⟩

def isShare (x : Binary64) : Bool := Amount.zero.le (.float x) && (Amount.float x).le (.int 1)

/-- The fault of a reduction that is no share of a price. -/
def shareFault (name : String) (x : Binary64) : List String :=
  if isShare x then [] else [name ++ " must be within [0, 1], got " ++ x.toText]

def checkShares (g : GeneralBonuses) : Checked GeneralBonuses :=
  match shareFault "craftingCostReduction" g.craftingCostReduction ++
      shareFault "buildingCostReduction" g.buildingCostReduction with
  | [] => .ok g
  | faults => .broken ("; ".intercalate faults)

def ofRecord (r : Tree) : Checked GeneralBonuses :=
  let counter (name : String) := Field.optional r name Amount.zero Field.amount
  let share (name : String) := Field.optional r name Binary64.zero Field.binary64
  (GeneralBonuses.mk <$> counter "luck" <*> counter "strength" <*> counter "knowledge"
    <*> counter "madness" <*> counter "madnessReduction" <*> share "craftingCostReduction"
    <*> share "buildingCostReduction").andThen checkShares

/-- The bonuses by name, in their usual order. -/
def fields (g : GeneralBonuses) : OrderedMap String Amount :=
  [("luck", g.luck), ("strength", g.strength), ("knowledge", g.knowledge), ("madness", g.madness),
    ("madnessReduction", g.madnessReduction),
    ("craftingCostReduction", .float g.craftingCostReduction),
    ("buildingCostReduction", .float g.buildingCostReduction)]

def toValue (g : GeneralBonuses) : Value :=
  .mapping (OrderedMap.mapValues Value.ofAmount g.fields)

end GeneralBonuses

namespace Item

def ofRecord (r : Tree) : Checked Item :=
  Item.mk <$> Field.required r "id" Field.text
    <*> Field.required r "name" Field.text
    <*> Field.optional r "description" "" Field.text
    <*> Field.required r "slot" (Field.word Slot.ofName?)
    <*> Field.optional r "actionBonuses" [] (Field.mapping (Field.record Bonus.ofRecord))
    <*> Field.optional r "generalBonuses" GeneralBonuses.none (Field.record GeneralBonuses.ofRecord)

def ofValue (v : Value) : Checked Item := Field.record ofRecord v

def toValue (i : Item) : Value :=
  .mapping [
    ("id", .text i.id), ("name", .text i.name), ("description", .text i.description),
    ("slot", .text i.slot.name),
    ("actionBonuses", .mapping (OrderedMap.mapValues Bonus.toValue i.actionBonuses)),
    ("generalBonuses", i.generalBonuses.toValue)]

end Item

end SurvivalRules
