import SurvivalRules.Content
import SurvivalRules.Effect

/-!
# Schemas

The names of the fields that records may have, for tools that help to write content. They are the
fields that a definition is written back with.
-/
namespace SurvivalRules

/-- A kind of record and the names of its fields, sorted. -/
structure RecordShape where
  name : String
  fields : List String
  deriving DecidableEq, Repr

/-- The shapes that a file of one kind describes; the empty name is the record in the file itself. -/
structure Schema where
  file : String
  shapes : List RecordShape
  deriving DecidableEq, Repr

namespace Schema

def actionFields : List String :=
  ["buildingCostReduction", "category", "cooldown", "cost", "craftingCostReduction", "description",
    "effects", "id", "kind", "label", "show_when", "statsEffects"]

def tieredFields : List String :=
  ["buildingCostReduction", "building_key", "category", "cooldown", "cost", "craftingCostReduction",
    "description", "effects", "id", "kind", "label", "show_when", "statsEffects"]

def itemFields : List String :=
  ["actionBonuses", "description", "generalBonuses", "id", "name", "slot"]

def bonusFields : List String :=
  ["cooldownReduction", "probabilityBonus", "resourceBonus", "resourceMultiplier"]

def generalFields : List String :=
  ["buildingCostReduction", "craftingCostReduction", "knowledge", "luck", "madness",
    "madnessReduction", "strength"]

def equipmentFields : List String := ["id", "slot", "tiers", "type"]

def chainFields : List String := ["id", "tiers", "type"]

def chanceFields : List String :=
  ["condition", "logMessage", "probability", "triggerEvent", "value"]

def all : List Schema :=
  [⟨"ActionDefinition.schema.json",
      [⟨"", []⟩, ⟨"FlatActionSpec", actionFields⟩, ⟨"TieredActionSpec", tieredFields⟩]⟩,
    ⟨"ItemDefinition.schema.json",
      [⟨"", itemFields⟩, ⟨"ActionBonus", bonusFields⟩, ⟨"GeneralBonuses", generalFields⟩]⟩,
    ⟨"Family.schema.json",
      [⟨"", []⟩, ⟨"BuildingChain", chainFields⟩,
        ⟨"EquipmentFamily", equipmentFields⟩]⟩,
    ⟨"ProbabilityEffect.schema.json", [⟨"", chanceFields⟩]⟩]

theorem keys_item_perm (i : Item) : (OrderedMap.keys i.toValue.entries).Perm itemFields := by
  change List.Perm ["id", "name", "description", "slot", "actionBonuses", "generalBonuses"] itemFields
  decide

theorem keys_bonus_perm (b : Bonus) : (OrderedMap.keys b.toValue.entries).Perm bonusFields := by
  change List.Perm ["resourceBonus", "resourceMultiplier", "cooldownReduction", "probabilityBonus"]
    bonusFields
  decide

theorem keys_general_perm (g : GeneralBonuses) : (OrderedMap.keys g.fields).Perm generalFields := by
  change List.Perm ["luck", "strength", "knowledge", "madness", "madnessReduction",
    "craftingCostReduction", "buildingCostReduction"] generalFields
  decide

theorem keys_flat_perm {a : Action} {p : FlatPlan} (h : a.plan = .flat p) :
    (OrderedMap.keys a.toValue.entries).Perm actionFields := by
  unfold Action.toValue
  rw [h]
  change List.Perm ["id", "label", "description", "category", "statsEffects", "craftingCostReduction",
    "buildingCostReduction", "kind", "show_when", "cost", "effects", "cooldown"] actionFields
  decide

theorem keys_tiered_perm {a : Action} {p : TieredPlan} (h : a.plan = .tiered p) :
    (OrderedMap.keys a.toValue.entries).Perm tieredFields := by
  unfold Action.toValue
  rw [h]
  change List.Perm ["id", "label", "description", "category", "statsEffects", "craftingCostReduction",
    "buildingCostReduction", "kind", "building_key", "show_when", "cost", "effects", "cooldown"]
    tieredFields
  decide

theorem keys_equipment_perm (f : EquipmentFamily) :
    (OrderedMap.keys (Family.equipment f).toValue.entries).Perm equipmentFields := by
  change List.Perm ["type", "id", "slot", "tiers"] equipmentFields
  decide

theorem keys_chain_perm (c : BuildingChain) :
    (OrderedMap.keys (Family.building c).toValue.entries).Perm chainFields := by
  change List.Perm ["type", "id", "tiers"] chainFields
  decide

end Schema

end SurvivalRules
