import SurvivalRules.Content

/-!
# Parts of the bundled game

Short forms for the records that the bundled game is made of.
-/
namespace SurvivalRules.Bundled

/-- The number with the digits of `n` and the given number of decimal places. -/
def decimal (n places : Nat) : Binary64 := Binary64.nearest ((n : Rat) / (10 : Rat) ^ (places : Int))

def flat (id label : String) (category : Option String) (cooldown : Nat)
    (showWhen cost effects : Tree) : Action :=
  ⟨id, label, "", category, [], Binary64.zero, Binary64.zero,
    .flat ⟨some showWhen, cost, effects, Binary64.ofInt cooldown⟩⟩

/-- What a level of a building requires, costs and does. -/
structure Level where
  showWhen : Tree
  cost : Tree
  effects : Tree

/-- The blocks of consecutive levels, from level one on. -/
def byLevel (blocks : List Tree) : OrderedMap Int Tree :=
  blocks.zipIdx.map fun e => ((e.2 + 1 : Int), e.1)

def building (id label key : String) (cooldown : Nat) (levels : List Level) : Action :=
  ⟨id, label, "", none, [], Binary64.zero, Binary64.zero,
    .tiered ⟨key, byLevel (levels.map (·.showWhen)), byLevel (levels.map (·.cost)),
      byLevel (levels.map (·.effects)), .fixed (Binary64.ofInt cooldown)⟩⟩

/-- The entry of an effect with a probability. -/
def chance (probability : Binary64) (value : Value) (others : Tree) : Value :=
  .mapping (("probability", .float probability) :: ("value", value) :: others)

def item (id name : String) (slot : Slot) (description : String)
    (actionBonuses : OrderedMap String Bonus) (generalBonuses : GeneralBonuses) : Item :=
  ⟨id, name, description, slot, actionBonuses, generalBonuses⟩

end SurvivalRules.Bundled
