import SurvivalRules.Bundled.Parts

/-!
# The items of the bundled game
-/
namespace SurvivalRules.Bundled

def forestBlessing : Item :=
  item "forest_blessing" "Blessing of the Forest" .blessings
    "The trees lean aside to let you pass."
    [("gathering", { Bonus.neutral with
      resourceBonus := [("wood", .int 1)] })]
    { GeneralBonuses.none with
      luck := .int 5
      madnessReduction := .int 1 }

def furCloak : Item :=
  item "fur_cloak" "Fur Cloak" .clothing
    "Keeps the cold of the cave at bay."
    [("caveExplore", { Bonus.neutral with
      cooldownReduction := Binary64.ofInt 1 })]
    { GeneralBonuses.none with
      strength := .int 1 }

def oldTrinket : Item :=
  item "old_trinket" "Old Trinket" .relics
    "A small trinket that hums when held."
    []
    { GeneralBonuses.none with
      luck := .int 10
      madness := .int 1 }

def ancientScroll : Item :=
  item "ancient_scroll" "Ancient Scroll" .relics
    "Its symbols rearrange themselves when unobserved."
    []
    { GeneralBonuses.none with
      knowledge := .int 3
      madness := .int 2 }

def stoneAxe : Item :=
  item "stone_axe" "Stone Axe" .tools
    "Basic axe for chopping wood."
    [("gatherWood", { Bonus.neutral with
      resourceMultiplier := decimal 125 2
      cooldownReduction := decimal 25 2 })]
    GeneralBonuses.none

def ironAxe : Item :=
  item "iron_axe" "Iron Axe" .tools
    "Sharp axe for heavy chopping."
    [("gatherWood", { Bonus.neutral with
      resourceMultiplier := decimal 15 1
      cooldownReduction := decimal 5 1 })]
    GeneralBonuses.none

def steelAxe : Item :=
  item "steel_axe" "Steel Axe" .tools
    "Finely crafted axe forged from tempered steel."
    [("gatherWood", { Bonus.neutral with
      resourceMultiplier := decimal 175 2
      cooldownReduction := decimal 75 2 })]
    GeneralBonuses.none

def stonePickaxe : Item :=
  item "stone_pickaxe" "Stone Pickaxe" .tools
    "Rudimentary pickaxe for mining."
    [("mining", { Bonus.neutral with
      resourceMultiplier := decimal 125 2
      cooldownReduction := Binary64.ofInt 1 })]
    GeneralBonuses.none

def ironPickaxe : Item :=
  item "iron_pickaxe" "Iron Pickaxe" .tools
    "Durable pickaxe for mining efficiently."
    [("mining", { Bonus.neutral with
      resourceMultiplier := decimal 15 1
      cooldownReduction := Binary64.ofInt 1 })]
    GeneralBonuses.none

def steelPickaxe : Item :=
  item "steel_pickaxe" "Steel Pickaxe" .tools
    "A pickaxe that bites through rock like bread."
    [("mining", { Bonus.neutral with
      resourceMultiplier := decimal 175 2
      cooldownReduction := Binary64.ofInt 2 })]
    GeneralBonuses.none

def lantern : Item :=
  item "lantern" "Lantern" .tools
    "Casts a steady light into the cave."
    [("caveExplore", { Bonus.neutral with
      resourceBonus := [("stone", .int 1)]
      probabilityBonus := decimal 5 2 })]
    GeneralBonuses.none

def ironLantern : Item :=
  item "iron_lantern" "Iron Lantern" .tools
    "Brighter and sturdier than the old lantern."
    [("caveExplore", { Bonus.neutral with
      resourceBonus := [("stone", .int 2), ("iron", .int 1)]
      probabilityBonus := decimal 1 1
      cooldownReduction := Binary64.ofInt 2 })]
    GeneralBonuses.none

def blacksmithHammer : Item :=
  item "blacksmith_hammer" "Blacksmith Hammer" .tools
    "Legendary hammer once owned by a great blacksmith."
    []
    { GeneralBonuses.none with
      strength := .int 4
      craftingCostReduction := decimal 1 1 }

def crudeBow : Item :=
  item "crude_bow" "Crude Bow" .weapons
    "A bent branch and a gut string."
    [("hunt", { Bonus.neutral with
      resourceBonus := [("food", .int 1)] })]
    GeneralBonuses.none

def huntsmanBow : Item :=
  item "huntsman_bow" "Huntsman Bow" .weapons
    "A well balanced bow for a patient hunter."
    [("hunt", { Bonus.neutral with
      resourceBonus := [("food", .int 3), ("fur", .int 1)]
      cooldownReduction := Binary64.ofInt 2 })]
    GeneralBonuses.none

def items : List Item :=
  [forestBlessing, furCloak, oldTrinket, ancientScroll, stoneAxe, ironAxe, steelAxe, stonePickaxe,
   ironPickaxe, steelPickaxe, lantern, ironLantern, blacksmithHammer, crudeBow, huntsmanBow]

end SurvivalRules.Bundled
