import SurvivalRules.Content.Field
import SurvivalRules.Text.Casing
import SurvivalRules.State.Tree
import SurvivalRules.Value.Printer

/-!
# Actions

A flat action has one set of requirements, costs and effects. A tiered action raises a building and has
a set for each level.
-/
namespace SurvivalRules

inductive Stat where
  | luck
  | strength
  | knowledge
  | madness
  deriving DecidableEq, Repr

namespace Stat

def all : List Stat := [.luck, .strength, .knowledge, .madness]

def name : Stat → String
  | .luck => "luck"
  | .strength => "strength"
  | .knowledge => "knowledge"
  | .madness => "madness"

def ofName? (s : String) : Option Stat := all.find? (·.name = s)

theorem ofName?_name (s : Stat) : ofName? s.name = some s := by cases s <;> rfl

end Stat

structure FlatPlan where
  showWhen : Option Tree
  cost : Tree
  effects : Tree
  cooldown : Binary64
  deriving DecidableEq

inductive Cooldown where
  | fixed (x : Binary64)
  | byLevel (table : OrderedMap Int Binary64)
  deriving DecidableEq, Repr

structure TieredPlan where
  buildingKey : String
  showWhen : OrderedMap Int Tree
  cost : OrderedMap Int Tree
  effects : OrderedMap Int Tree
  cooldown : Cooldown
  deriving DecidableEq

inductive Plan where
  | flat (p : FlatPlan)
  | tiered (p : TieredPlan)
  deriving DecidableEq

/-- The contributions of `statsEffects` and of the two reductions count while the building stands. -/
structure Action where
  id : String
  label : String
  description : String
  category : Option String
  statsEffects : OrderedMap Stat Amount
  craftingCostReduction : Binary64
  buildingCostReduction : Binary64
  plan : Plan
  deriving DecidableEq

namespace Cooldown

/-- A level without an entry has no cooldown. -/
def atLevel (c : Cooldown) (level : Int) : Binary64 :=
  match c with
  | .fixed x => x
  | .byLevel table => (OrderedMap.get? level table).getD Binary64.zero

def read : Value → Checked Cooldown
  | .mapping es => (Field.levels Field.binary64 (.mapping es)).map .byLevel
  | v => (Field.binary64 v).map .fixed

end Cooldown

namespace Action

def tiered? (a : Action) : Option TieredPlan :=
  match a.plan with
  | .tiered p => some p
  | .flat _ => none

/-- Crafting and forging actions are known by how their ids begin. -/
def isCrafting (a : Action) : Bool :=
  "craft".toList.isPrefixOf a.id.toList || "forge".toList.isPrefixOf a.id.toList

end Action

namespace TieredPlan

def levelFaults (p : TieredPlan) : List Int :=
  ((p.showWhen.keys ++ p.cost.keys ++ p.effects.keys).filter (· < 1)).eraseDups.mergeSort

def buildWord : List Char := "build".toList

/-- The key of the building that an action raises: its id without the word in front, uncapitalized. -/
def derivedKey? (id : String) : Option String :=
  let cs := id.toList
  let key := if buildWord.isPrefixOf cs then cs.drop buildWord.length else cs
  if key.isEmpty then none else some (Text.uncapitalizeFirst (String.ofList key))

/-- Fills the building key in and checks that levels start at one. -/
def complete (id : String) (key : Option String) (p : TieredPlan) : Checked TieredPlan :=
  match key <|> derivedKey? id with
  | none => .broken s!"cannot derive building key from id '{id}'"
  | some key =>
    match p.levelFaults with
    | [] => .ok { p with buildingKey := key }
    | faults => .broken ("tier levels start at 1, got " ++ (Value.list (faults.map .int)).describe)

end TieredPlan

namespace Plan

def block : Value → Checked Tree := Field.mapping Field.any

def readFlat (r : Tree) : Checked FlatPlan :=
  FlatPlan.mk <$> Field.optional r "show_when" none (Field.nullable block)
    <*> Field.optional r "cost" [] block
    <*> Field.optional r "effects" [] block
    <*> Field.optional r "cooldown" Binary64.zero Field.binary64

def readTiered (r : Tree) : Checked (Option String × TieredPlan) :=
  (fun key showWhen cost effects cooldown => (key, ⟨"", showWhen, cost, effects, cooldown⟩))
    <$> Field.optional r "building_key" none (Field.nullable Field.text)
    <*> Field.optional r "show_when" [] (Field.levels block)
    <*> Field.optional r "cost" [] (Field.levels block)
    <*> Field.optional r "effects" [] (Field.levels block)
    <*> Field.optional r "cooldown" (.fixed Binary64.zero) Cooldown.read

end Plan

namespace Action

/-- All fields but the plan. -/
def readCommon (r : Tree) : Checked (Plan → Action) :=
  Action.mk <$> Field.required r "id" Field.text
    <*> Field.required r "label" Field.text
    <*> Field.optional r "description" "" Field.text
    <*> Field.optional r "category" none (Field.nullable Field.text)
    <*> Field.optional r "statsEffects" []
      (Field.mappingBy (fun k => Field.word Stat.ofName? (.text k)) Field.amount)
    <*> Field.optional r "craftingCostReduction" Binary64.zero Field.binary64
    <*> Field.optional r "buildingCostReduction" Binary64.zero Field.binary64

def ofFlat (r : Tree) : Checked Action :=
  readCommon r <*> ((Plan.readFlat r).map .flat)

/-- The building key is filled in when all fields are in order. -/
def ofTiered (r : Tree) : Checked Action :=
  (Checked.both Prod.mk (readCommon r) (Plan.readTiered r)).andThen fun (common, key, p) =>
    let draft := common (.tiered p)
    (p.complete draft.id key).map fun p => common (.tiered p)

/-- The kind of a record says which of the two it is; without one it is neither. -/
def ofRecord (r : Tree) : Checked Action :=
  match OrderedMap.get? "kind" r with
  | some (.text kind) =>
    if kind = "flat" then ofFlat r else if kind = "tiered" then ofTiered r else .wrong
  | _ => .wrong

def ofValue (v : Value) : Checked Action := Field.record ofRecord v

/-- Authors mark buildings by a flag, which a kind stands for; a kind that is there is kept. -/
def tag (r : Tree) : Tree :=
  if OrderedMap.contains "kind" r then r
  else
    let isBuilding := !(r.lookup "building").isVacant
    OrderedMap.insert "kind" (.text (if isBuilding then "tiered" else "flat"))
      (OrderedMap.erase "building" r)

def optionalText : Option String → Value
  | some s => .text s
  | none => .null

def levelsValue {α : Type} (f : α → Value) (m : OrderedMap Int α) : Value :=
  .mapping (m.map fun e => (Numeric.numeral e.1, f e.2))

def commonFields (a : Action) : Tree :=
  [("id", .text a.id), ("label", .text a.label), ("description", .text a.description),
    ("category", optionalText a.category),
    ("statsEffects", .mapping (a.statsEffects.map fun e => (e.1.name, Value.ofAmount e.2))),
    ("craftingCostReduction", .float a.craftingCostReduction),
    ("buildingCostReduction", .float a.buildingCostReduction)]

def cooldownValue : Cooldown → Value
  | .fixed x => .float x
  | .byLevel table => levelsValue .float table

def planFields : Plan → Tree
  | .flat p =>
    [("kind", .text "flat"), ("show_when", (p.showWhen.map Value.mapping).getD .null),
      ("cost", .mapping p.cost), ("effects", .mapping p.effects), ("cooldown", .float p.cooldown)]
  | .tiered p =>
    [("kind", .text "tiered"), ("building_key", .text p.buildingKey),
      ("show_when", levelsValue .mapping p.showWhen), ("cost", levelsValue .mapping p.cost),
      ("effects", levelsValue .mapping p.effects), ("cooldown", cooldownValue p.cooldown)]

/-- The record of an action with every field filled in. -/
def toValue (a : Action) : Value := .mapping (a.commonFields ++ planFields a.plan)

end Action

end SurvivalRules
