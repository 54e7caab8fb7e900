import SurvivalRules.Bundled.Parts

/-!
# The actions of the bundled game
-/
namespace SurvivalRules.Bundled

def craftTorch : Action :=
  flat "craftTorch" "Torch" (some "crafting") 2
    [("flags.fireLit", .bool true)]
    [("resources.wood", .int 10)]
    [("resources.wood", .int (-10)), ("resources.torch", .int 1)]

def craftStoneAxe : Action :=
  flat "craftStoneAxe" "Stone Axe" (some "crafting") 5
    [("flags.villageUnlocked", .bool true), ("tools.stone_axe", .bool false)]
    [("resources.wood", .int 10), ("resources.stone", .int 5)]
    [("resources.wood", .int (-10)), ("resources.stone", .int (-5)),
     ("tools.stone_axe", .bool true)]

def craftStonePickaxe : Action :=
  flat "craftStonePickaxe" "Stone Pickaxe" (some "crafting") 5
    [("flags.villageUnlocked", .bool true), ("tools.stone_pickaxe", .bool false)]
    [("resources.wood", .int 10), ("resources.stone", .int 10)]
    [("resources.wood", .int (-10)), ("resources.stone", .int (-10)),
     ("tools.stone_pickaxe", .bool true)]

def craftLantern : Action :=
  flat "craftLantern" "Lantern" (some "crafting") 10
    [("buildings.cabin", .int 1), ("tools.lantern", .bool false)]
    [("resources.wood", .int 30), ("resources.fur", .int 5)]
    [("resources.wood", .int (-30)), ("resources.fur", .int (-5)), ("tools.lantern", .bool true)]

def craftCrudeBow : Action :=
  flat "craftCrudeBow" "Crude Bow" (some "crafting") 5
    [("flags.villageUnlocked", .bool true), ("weapons.crude_bow", .bool false)]
    [("resources.wood", .int 30)]
    [("resources.wood", .int (-30)), ("weapons.crude_bow", .bool true)]

def craftFurCloak : Action :=
  flat "craftFurCloak" "Fur Cloak" (some "crafting") 10
    [("buildings.cabin", .int 1), ("clothing.fur_cloak", .bool false)]
    [("resources.fur", .int 20)]
    [("resources.fur", .int (-20)), ("clothing.fur_cloak", .bool true)]

def craftBoneTotem : Action :=
  flat "craftBoneTotem" "Bone Totem" (some "crafting") 5
    [("buildings.shrine", .int 1)]
    [("resources.bones", .int 50)]
    [("resources.bones", .int (-50)), ("resources.bone_totem", .int 1)]

def exploreCave : Action :=
  flat "exploreCave" "Explore Cave" (some "caveExplore") 10
    [("buildings.cabin", .text ">=1")]
    [("resources.food", .int 5), ("resources.torch", .int 1)]
    [("resources.food", .int (-5)),
     ("resources.torch", .int (-1)),
     ("resources.stone", .text "random(2,6)"),
     ("resources.iron",
      chance (decimal 5 1) (.text "random(2,5)") []),
     ("relics.ancient_scroll",
      chance (decimal 1 2) (.bool true)
        [("condition", .text "!relics.ancient_scroll"),
         ("logMessage", .text "A scroll case, sealed in wax, rests in a crack of the cave wall."),
         ("triggerEvent", .text "scrollFound")])]

def ventureDeeper : Action :=
  flat "ventureDeeper" "Venture Deeper" (some "caveExplore") 15
    [("tools.iron_lantern", .bool true)]
    [("resources.food", .int 10), ("resources.torch", .int 2)]
    [("resources.food", .int (-10)),
     ("resources.torch", .int (-2)),
     ("resources.iron", .text "random(3,8)"),
     ("resources.coal",
      chance (decimal 6 1) (.text "random(2,6)") []),
     ("resources.bones",
      chance (decimal 3 1) (.text "random(1,4)")
        [("logMessage", .text "Old bones crunch beneath your boots.")])]

def forgeIronAxe : Action :=
  flat "forgeIronAxe" "Iron Axe" (some "forging") 15
    [("buildings.blacksmith", .int 1), ("tools.stone_axe", .bool true),
     ("tools.iron_axe", .bool false)]
    [("resources.wood", .int 25), ("resources.iron", .int 20)]
    [("resources.wood", .int (-25)), ("resources.iron", .int (-20)), ("tools.iron_axe", .bool true)]

def forgeIronPickaxe : Action :=
  flat "forgeIronPickaxe" "Iron Pickaxe" (some "forging") 15
    [("buildings.blacksmith", .int 1), ("tools.stone_pickaxe", .bool true),
     ("tools.iron_pickaxe", .bool false)]
    [("resources.wood", .int 25), ("resources.iron", .int 25)]
    [("resources.wood", .int (-25)), ("resources.iron", .int (-25)),
     ("tools.iron_pickaxe", .bool true)]

def forgeIronLantern : Action :=
  flat "forgeIronLantern" "Iron Lantern" (some "forging") 15
    [("buildings.blacksmith", .int 1), ("tools.lantern", .bool true),
     ("tools.iron_lantern", .bool false)]
    [("resources.iron", .int 30), ("resources.coal", .int 10)]
    [("resources.iron", .int (-30)), ("resources.coal", .int (-10)),
     ("tools.iron_lantern", .bool true)]

def forgeSteel : Action :=
  flat "forgeSteel" "Steel" (some "forging") 10
    [("buildings.foundry", .int 1)]
    [("resources.iron", .int 10), ("resources.coal", .int 10)]
    [("resources.iron", .int (-10)), ("resources.coal", .int (-10)), ("resources.steel", .int 1)]

def forgeSteelAxe : Action :=
  flat "forgeSteelAxe" "Steel Axe" (some "forging") 20
    [("buildings.foundry", .int 1), ("tools.iron_axe", .bool true),
     ("tools.steel_axe", .bool false)]
    [("resources.wood", .int 50), ("resources.steel", .int 20)]
    [("resources.wood", .int (-50)), ("resources.steel", .int (-20)),
     ("tools.steel_axe", .bool true)]

def forgeSteelPickaxe : Action :=
  flat "forgeSteelPickaxe" "Steel Pickaxe" (some "forging") 20
    [("buildings.foundry", .int 1), ("tools.iron_pickaxe", .bool true),
     ("tools.steel_pickaxe", .bool false)]
    [("resources.wood", .int 50), ("resources.steel", .int 25)]
    [("resources.wood", .int (-50)), ("resources.steel", .int (-25)),
     ("tools.steel_pickaxe", .bool true)]

def forgeHuntsmanBow : Action :=
  flat "forgeHuntsmanBow" "Huntsman Bow" (some "forging") 20
    [("buildings.blacksmith", .int 1), ("weapons.crude_bow", .bool true),
     ("weapons.huntsman_bow", .bool false)]
    [("resources.wood", .int 60), ("resources.iron", .int 15)]
    [("resources.wood", .int (-60)), ("resources.iron", .int (-15)),
     ("weapons.huntsman_bow", .bool true)]

def mineStone : Action :=
  flat "mineStone" "Mine Stone" (some "mining") 5
    [("tools.stone_pickaxe", .bool true)]
    [("resources.food", .int 5), ("resources.torch", .int 1)]
    [("resources.food", .int (-5)), ("resources.torch", .int (-1)),
     ("resources.stone", .text "random(4,8)"), ("story.seen.hasMinedStone", .bool true)]

def mineIron : Action :=
  flat "mineIron" "Mine Iron" (some "mining") 8
    [("tools.iron_pickaxe", .bool true)]
    [("resources.food", .int 5), ("resources.torch", .int 1)]
    [("resources.food", .int (-5)), ("resources.torch", .int (-1)),
     ("resources.iron", .text "random(2,5)"), ("story.seen.hasMinedIron", .bool true)]

def mineCoal : Action :=
  flat "mineCoal" "Mine Coal" (some "mining") 8
    [("tools.iron_pickaxe", .bool true), ("buildings.blacksmith", .int 1)]
    [("resources.food", .int 5), ("resources.torch", .int 1)]
    [("resources.food", .int (-5)), ("resources.torch", .int (-1)),
     ("resources.coal", .text "random(2,6)")]

def lightFire : Action :=
  { flat "lightFire" "Light Fire" none 1
      [("flags.fireLit", .bool false)]
      []
      [("flags.fireLit", .bool true), ("story.seen.fireLit", .bool true)] with
    description := "Strike flint over dry moss. Something stirs in the dark." }

def gatherWood : Action :=
  flat "gatherWood" "Gather Wood" (some "gathering") 3
    [("flags.fireLit", .bool true)]
    []
    [("resources.wood", .text "random(2,5)"),
     ("flags.villageUnlocked",
      chance (decimal 2 1) (.bool true)
        [("condition", .text "resources.wood >= 20 && !flags.villageUnlocked"),
         ("logMessage", .text "Through the trees you spot the ruins of an old village.")]),
     ("relics.old_trinket",
      chance (decimal 5 3) (.bool true)
        [("condition", .text "!relics.old_trinket && buildings.cabin >= 1"),
         ("logMessage", .text "Half buried between the roots lies a small trinket, warm to the touch."),
         ("triggerEvent", .text "trinketFound")])]

def hunt : Action :=
  flat "hunt" "Hunt" (some "hunting") 8
    [("weapons.crude_bow", .bool true)]
    []
    [("resources.food", .text "random(1,6)"),
     ("resources.fur", .text "random(0,2)"),
     ("resources.bones", .text "random(0,2)"),
     ("tools.blacksmith_hammer",
      chance (decimal 25 4) (.bool true)
        [("condition", .text "!tools.blacksmith_hammer"),
         ("logMessage", .text "Among the bones of your prey lies a heavy hammer, its handle worn smooth by a great smith.")])]

def buildHut : Action :=
  building "buildHut" "Wooden Hut" "hut" 10
    [⟨[("flags.villageUnlocked", .bool true)],
      [("resources.wood", .int 100)],
      [("resources.wood", .int (-100)), ("buildings.hut", .int 1)]⟩,
     ⟨[("buildings.cabin", .int 1)],
      [("resources.wood", .int 200)],
      [("resources.wood", .int (-200)), ("buildings.hut", .int 2)]⟩,
     ⟨[("buildings.blacksmith", .int 1)],
      [("resources.wood", .int 400)],
      [("resources.wood", .int (-400)), ("buildings.hut", .int 3)]⟩]

def buildCabin : Action :=
  building "buildCabin" "Cabin" "cabin" 15
    [⟨[("buildings.hut", .int 1)],
      [("resources.wood", .int 200), ("resources.stone", .int 20)],
      [("resources.wood", .int (-200)), ("resources.stone", .int (-20)),
       ("buildings.cabin", .int 1)]⟩]

def buildBlacksmith : Action :=
  building "buildBlacksmith" "Blacksmith" "blacksmith" 20
    [⟨[("buildings.cabin", .int 1), ("buildings.blacksmith", .int 0)],
      [("resources.wood", .int 100), ("resources.stone", .int 25)],
      [("resources.wood", .int (-100)), ("resources.stone", .int (-25)),
       ("buildings.blacksmith", .int 1)]⟩]

def buildFoundry : Action :=
  { building "buildFoundry" "Foundry" "foundry" 30
      [⟨[("buildings.blacksmith", .int 1), ("tools.iron_pickaxe", .bool true)],
        [("resources.wood", .int 200), ("resources.stone", .int 100), ("resources.iron", .int 50)],
        [("resources.wood", .int (-200)), ("resources.stone", .int (-100)),
         ("resources.iron", .int (-50)), ("buildings.foundry", .int 1)]⟩] with
    craftingCostReduction := decimal 1 1 }

def buildWorkshop : Action :=
  { building "buildWorkshop" "Workshop" "workshop" 20
      [⟨[("buildings.hut", .text ">=2")],
        [("resources.wood", .int 150), ("resources.stone", .int 40)],
        [("resources.wood", .int (-150)), ("resources.stone", .int (-40)),
         ("buildings.workshop", .int 1)]⟩] with
    buildingCostReduction := decimal 1 1 }

def buildAltar : Action :=
  { building "buildAltar" "Altar" "altar" 20
      [⟨[("buildings.cabin", .int 1), ("resources.bones", .text ">=10")],
        [("resources.stone", .int 30), ("resources.bones", .int 10)],
        [("resources.stone", .int (-30)), ("resources.bones", .int (-10)),
         ("buildings.altar", .int 1)]⟩] with
    statsEffects := [(.madness, .int (-1))] }

def buildShrine : Action :=
  { building "buildShrine" "Shrine" "shrine" 30
      [⟨[("buildings.altar", .int 1)],
        [("resources.stone", .int 60), ("resources.bones", .int 25)],
        [("resources.stone", .int (-60)), ("resources.bones", .int (-25)),
         ("buildings.shrine", .int 1)]⟩] with
    statsEffects := [(.madness, .int (-2))] }

def buildTemple : Action :=
  { building "buildTemple" "Temple" "temple" 45
      [⟨[("buildings.shrine", .int 1)],
        [("resources.stone", .int 150), ("resources.bones", .int 60), ("resources.iron", .int 40)],
        [("resources.stone", .int (-150)), ("resources.bones", .int (-60)),
         ("resources.iron", .int (-40)), ("buildings.temple", .int 1)]⟩] with
    statsEffects := [(.madness, .int (-3)), (.luck, .int 1)] }

def buildSanctum : Action :=
  { building "buildSanctum" "Sanctum" "sanctum" 60
      [⟨[("buildings.temple", .int 1)],
        [("resources.stone", .int 300), ("resources.bones", .int 120), ("resources.steel", .int 40)],
        [("resources.stone", .int (-300)), ("resources.bones", .int (-120)),
         ("resources.steel", .int (-40)), ("buildings.sanctum", .int 1)]⟩] with
    statsEffects := [(.madness, .int (-5)), (.luck, .int 2)] }

def buildClerksHut : Action :=
  { building "buildClerksHut" "Clerk's Hut" "clerksHut" 20
      [⟨[("buildings.hut", .text ">=2")],
        [("resources.wood", .int 120), ("resources.stone", .int 30)],
        [("resources.wood", .int (-120)), ("resources.stone", .int (-30)),
         ("buildings.clerksHut", .int 1)]⟩] with
    statsEffects := [(.knowledge, .int 2)] }

def buildScriptorium : Action :=
  { building "buildScriptorium" "Scriptorium" "scriptorium" 40
      [⟨[("buildings.clerksHut", .int 1), ("relics.ancient_scroll", .bool true)],
        [("resources.wood", .int 250), ("resources.stone", .int 80), ("resources.iron", .int 30)],
        [("resources.wood", .int (-250)), ("resources.stone", .int (-80)),
         ("resources.iron", .int (-30)), ("buildings.scriptorium", .int 1)]⟩] with
    statsEffects := [(.knowledge, .int 5)] }

def actions : List Action :=
  [craftTorch, craftStoneAxe, craftStonePickaxe, craftLantern, craftCrudeBow, craftFurCloak,
   craftBoneTotem, exploreCave, ventureDeeper, forgeIronAxe, forgeIronPickaxe, forgeIronLantern,
   forgeSteel, forgeSteelAxe, forgeSteelPickaxe, forgeHuntsmanBow, mineStone, mineIron, mineCoal,
   lightFire, gatherWood, hunt, buildHut, buildCabin, buildBlacksmith, buildFoundry,
   buildWorkshop, buildAltar, buildShrine, buildTemple, buildSanctum, buildClerksHut,
   buildScriptorium]

end SurvivalRules.Bundled
