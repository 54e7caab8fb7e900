import SurvivalRules.Content.Item

/-!
# Families and chains

An equipment family orders items of one slot, weakest first, and a building chain orders buildings.
Within each only the best one owned counts.
-/
namespace SurvivalRules

structure EquipmentFamily where
  id : String
  slot : Slot
  tiers : List String
  deriving DecidableEq, Repr

structure BuildingChain where
  id : String
  tiers : List String
  deriving DecidableEq, Repr

inductive Family where
  | equipment (f : EquipmentFamily)
  | building (c : BuildingChain)
  deriving DecidableEq, Repr

def hasRepeat (names : List String) : Bool := names.eraseDups.length ≠ names.length

namespace EquipmentFamily

def checkTiers (f : EquipmentFamily) : Checked EquipmentFamily :=
  if f.tiers.isEmpty then .broken s!"family '{f.id}' needs at least one tier"
  else if hasRepeat f.tiers then .broken s!"family '{f.id}' lists a tier twice"
  else .ok f

def ofRecord (r : Tree) : Checked EquipmentFamily :=
  (EquipmentFamily.mk <$> Field.required r "id" Field.text
    <*> Field.required r "slot" (Field.word Slot.ofName?)
    <*> Field.required r "tiers" (Field.list Field.text)).andThen checkTiers

end EquipmentFamily

namespace BuildingChain

def checkTiers (c : BuildingChain) : Checked BuildingChain :=
  if c.tiers.isEmpty then .broken s!"building chain '{c.id}' needs at least one tier"
  else if hasRepeat c.tiers then .broken s!"building chain '{c.id}' lists a building twice"
  else .ok c

def ofRecord (r : Tree) : Checked BuildingChain :=
  (BuildingChain.mk <$> Field.required r "id" Field.text
    <*> Field.required r "tiers" (Field.list Field.text)).andThen checkTiers

end BuildingChain

namespace Family

/-- The type of a record says which of the two it is; without one it is neither. -/
def ofRecord (r : Tree) : Checked Family :=
  match OrderedMap.get? "type" r with
  | some (.text kind) =>
    if kind = "equipment" then (EquipmentFamily.ofRecord r).map .equipment
    else if kind = "building" then (BuildingChain.ofRecord r).map .building
    else .wrong
  | _ => .wrong

def ofValue (v : Value) : Checked Family := Field.record ofRecord v

def id : Family → String
  | .equipment f => f.id
  | .building c => c.id

def tiersValue (tiers : List String) : Value := .list (tiers.map .text)

def toValue : Family → Value
  | .equipment f =>
    .mapping [("type", .text "equipment"), ("id", .text f.id), ("slot", .text f.slot.name),
      ("tiers", tiersValue f.tiers)]
  | .building c =>
    .mapping [("type", .text "building"), ("id", .text c.id), ("tiers", tiersValue c.tiers)]

end Family

end SurvivalRules
