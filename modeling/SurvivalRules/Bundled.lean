import SurvivalRules.Bundled.Actions
import SurvivalRules.Bundled.Items

/-!
# The bundled game

A camp at the edge of a forest grows into a village with a cave, a forge and a temple.
-/
namespace SurvivalRules.Bundled

def families : List EquipmentFamily :=
  [⟨"axe", .tools, ["stone_axe", "iron_axe", "steel_axe"]⟩,
    ⟨"pickaxe", .tools, ["stone_pickaxe", "iron_pickaxe", "steel_pickaxe"]⟩,
    ⟨"lantern", .tools, ["lantern", "iron_lantern"]⟩,
    ⟨"bow", .weapons, ["crude_bow", "huntsman_bow"]⟩]

def chains : List BuildingChain :=
  [⟨"religion", ["altar", "shrine", "temple", "sanctum"]⟩,
    ⟨"scholarship", ["clerksHut", "scriptorium"]⟩]

def content : Content :=
  ⟨actions.map fun a => (a.id, a), items.map fun i => (i.id, i),
    families.map fun f => (f.id, f), chains.map fun c => (c.id, c)⟩

end SurvivalRules.Bundled
