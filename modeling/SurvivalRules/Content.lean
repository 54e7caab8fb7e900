import SurvivalRules.Content.Action
import SurvivalRules.Content.Family
import SurvivalRules.Fault
import SurvivalRules.Json.Reader
import SurvivalRules.Text.Split

/-!
# Content

The definitions of a game by id, in the order in which they were given. Every id names one definition
of its group; equipment families and building chains are separate groups.
-/
namespace SurvivalRules

structure Content where
  actions : OrderedMap String Action
  items : OrderedMap String Item
  families : OrderedMap String EquipmentFamily
  chains : OrderedMap String BuildingChain
  deriving DecidableEq

/-- The groups of records that content is given in. -/
inductive RecordGroup where
  | actions
  | items
  | families
  deriving DecidableEq, Repr

namespace RecordGroup

def name : RecordGroup → String
  | .actions => "actions"
  | .items => "items"
  | .families => "families"

def singular : RecordGroup → String
  | .actions => "action"
  | .items => "item"
  | .families => "family"

def all : List RecordGroup := [.actions, .items, .families]

end RecordGroup

inductive ContentError where
  | invalid (faults : Invalid)
  /-- An id that is taken, and the file that gives it again if there is one. -/
  | duplicate (group : RecordGroup) (id : String) (file : Option String)
  | unreadableFile (cause : Json.ReadError)
  | fault (cause : Fault)
  deriving DecidableEq

def ContentError.message : ContentError → String
  | .duplicate group id file =>
    s!"Duplicate {group.singular} id {id}" ++ (match file with
      | some f => " in " ++ f
      | none => "")
  | _ => ""

/-- A checked record of any group. -/
inductive Definition where
  | action (a : Action)
  | item (i : Item)
  | family (f : Family)
  deriving DecidableEq

namespace Definition

def id : Definition → String
  | .action a => a.id
  | .item i => i.id
  | .family f => f.id

def group : Definition → RecordGroup
  | .action _ => .actions
  | .item _ => .items
  | .family _ => .families

def ofValue (group : RecordGroup) (v : Value) : Checked Definition :=
  match group with
  | .actions => (Action.ofValue v).map .action
  | .items => (Item.ofValue v).map .item
  | .families => (Family.ofValue v).map .family

end Definition

namespace Content

def empty : Content := ⟨[], [], [], []⟩

/-- Whether the id of a definition is taken in its own group. -/
def isTaken (c : Content) : Definition → Bool
  | .action a => OrderedMap.contains a.id c.actions
  | .item i => OrderedMap.contains i.id c.items
  | .family (.equipment f) => OrderedMap.contains f.id c.families
  | .family (.building b) => OrderedMap.contains b.id c.chains

def insert (c : Content) : Definition → Content
  | .action a => { c with actions := OrderedMap.insert a.id a c.actions }
  | .item i => { c with items := OrderedMap.insert i.id i c.items }
  | .family (.equipment f) => { c with families := OrderedMap.insert f.id f c.families }
  | .family (.building b) => { c with chains := OrderedMap.insert b.id b c.chains }

/-- Adds a definition whose id is free. -/
def add (file : Option String) (c : Content) (d : Definition) : Except ContentError Content :=
  if c.isTaken d then .error (.duplicate d.group d.id file) else .ok (c.insert d)

def addChecked (file : Option String) (c : Content) (d : Checked Definition) :
    Except ContentError Content :=
  match d with
  | .ok d => c.add file d
  | .invalid e => .error (.invalid e)

/-- Adds a record given in memory, which has to be a mapping. -/
def addRecord (group : RecordGroup) (c : Content) (v : Value) : Except ContentError Content :=
  match v with
  | .mapping es =>
    let r := match group with
      | .actions => Action.tag es
      | _ => es
    c.addChecked none (Definition.ofValue group (.mapping r))
  | _ => .error (.fault .notAMapping)

/-- Actions come first, then items, then families; the first fault decides the error. -/
def ofRecords (actions items families : List Value) : Except ContentError Content := do
  let c ← actions.foldlM (addRecord .actions) empty
  let c ← items.foldlM (addRecord .items) c
  families.foldlM (addRecord .families) c

def action? (c : Content) (id : String) : Option Action := OrderedMap.get? id c.actions

def item? (c : Content) (id : String) : Option Item := OrderedMap.get? id c.items

/-- The chain of a building; of several chains that list it the last one counts. -/
def chainOf? (c : Content) (key : String) : Option BuildingChain :=
  c.chains.values.reverse.find? (·.tiers.contains key)

/-- Every building that some chain lists, with its chain. -/
def chainIds (c : Content) : OrderedMap String String :=
  OrderedMap.ofList (c.chains.values.flatMap fun b => b.tiers.map fun key => (key, b.id))

/-- The categories that actions have; an empty one is none. -/
def categories (c : Content) : List String :=
  (c.actions.values.filterMap (·.category)).filter (!·.isEmpty)

/-- The action that raises each building; of several the last one counts. -/
def buildingActions (c : Content) : OrderedMap String (Action × TieredPlan) :=
  OrderedMap.ofList (c.actions.values.filterMap fun a => a.tiered?.map fun p => (p.buildingKey, (a, p)))

/-- The blocks of all levels of an action. -/
def showBlocks (a : Action) : List Tree :=
  match a.plan with
  | .flat p => [p.showWhen.getD []]
  | .tiered p => p.showWhen.values

def costBlocks (a : Action) : List Tree :=
  match a.plan with
  | .flat p => [p.cost]
  | .tiered p => p.cost.values

def effectBlocks (a : Action) : List Tree :=
  match a.plan with
  | .flat p => [p.effects]
  | .tiered p => p.effects.values

/-- What follows the section name and a dot, if a path starts with these and goes on. -/
def below? (area : Section) (path : String) : Option String :=
  match Text.cutAtChar '.' path.toList with
  | (front, some rest) =>
    if String.ofList front = area.name ∧ rest ≠ [] then some (String.ofList rest) else none
  | _ => none

/-- The resources that costs and effects name by paths of two segments. -/
def resourceNames (c : Content) : List String :=
  let paths := c.actions.values.flatMap fun a =>
    (costBlocks a ++ effectBlocks a).flatMap OrderedMap.keys
  (paths.filterMap (below? .resources)).filter (!·.contains '.')

/-- The flags that requirements or costs compare with a truth value. -/
def flagNames (c : Content) : List String :=
  let entries := c.actions.values.flatMap fun a => (showBlocks a ++ costBlocks a).flatten
  entries.filterMap fun e => if e.2.isBool then below? .flags e.1 else none

end Content

end SurvivalRules
