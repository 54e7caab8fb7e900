import SurvivalRules.Content
import SurvivalRules.Requirement

/-!
# Game states

The shape of a state tree in storage: counters, ownership, flags, the story and the timers. The rules
themselves read plain trees.
-/
namespace SurvivalRules

/-- Marks of what has been seen, and whatever else the story keeps. -/
structure Story where
  seen : OrderedMap String Value
  others : Tree
  deriving DecidableEq

structure GameState where
  resources : OrderedMap String Amount
  buildings : OrderedMap String Int
  owned : Slot → OrderedMap String Bool
  stats : OrderedMap String Amount
  flags : OrderedMap String Bool
  story : Story
  cooldowns : OrderedMap String Binary64
  cooldownDurations : OrderedMap String Binary64

namespace GameState

def baseStats : OrderedMap String Amount := Stat.all.map fun s => (s.name, Amount.zero)

def start : GameState := ⟨[], [], fun _ => [], baseStats, [], ⟨[], []⟩, [], []⟩

/-- The story keeps whatever is in it, so its names have to be whole. -/
def readStory (r : Tree) : Checked Story :=
  if (OrderedMap.keys r).any Text.hasHalf then .wrong
  else
    (fun seen => Story.mk seen (OrderedMap.erase "seen" r))
      <$> Field.optional r "seen" [] (Field.mapping Field.mark)

def readOwned (r : Tree) : Checked (Slot → OrderedMap String Bool) :=
  (fun tools weapons clothing relics blessings slot =>
    match slot with
    | .tools => tools
    | .weapons => weapons
    | .clothing => clothing
    | .relics => relics
    | .blessings => blessings)
    <$> owned .tools <*> owned .weapons <*> owned .clothing <*> owned .relics <*> owned .blessings
where
  owned (s : Slot) : Checked (OrderedMap String Bool) :=
    Field.optional r s.name [] (Field.mapping Field.truth)

/-- Unknown sections are left out, and missing ones are as at the start. -/
def ofTree (r : Tree) : Checked GameState :=
  GameState.mk <$> Field.optional r "resources" [] (Field.mapping Field.amount)
    <*> Field.optional r "buildings" [] (Field.mapping Field.whole)
    <*> readOwned r
    <*> Field.optional r "stats" baseStats (Field.mapping Field.amount)
    <*> Field.optional r "flags" [] (Field.mapping Field.truth)
    <*> Field.optional r "story" ⟨[], []⟩ (Field.record readStory)
    <*> Field.optional r "cooldowns" [] (Field.mapping Field.binary64)
    <*> Field.optional r "cooldownDurations" [] (Field.mapping Field.binary64)

def amounts (m : OrderedMap String Amount) : Value := .mapping (OrderedMap.mapValues Value.ofAmount m)

def truths (m : OrderedMap String Bool) : Value := .mapping (OrderedMap.mapValues Value.bool m)

def timers (m : OrderedMap String Binary64) : Value := .mapping (OrderedMap.mapValues Value.float m)

def toTree (g : GameState) : Tree :=
  [("resources", amounts g.resources),
    ("buildings", .mapping (OrderedMap.mapValues Value.int g.buildings))]
    ++ Slot.all.map (fun s => (s.name, truths (g.owned s)))
    ++ [("stats", amounts g.stats), ("flags", truths g.flags),
      ("story", .mapping (("seen", .mapping g.story.seen) :: g.story.others)),
      ("cooldowns", timers g.cooldowns), ("cooldownDurations", timers g.cooldownDurations)]

/-- A map that gives every name the same value, each name once. -/
def constantMap {α : Type} (names : List String) (a : α) : OrderedMap String α :=
  OrderedMap.ofList (names.map fun n => (n, a))

def itemsOf (c : Content) (s : Slot) : List String :=
  c.items.filterMap fun e => if e.2.slot = s then some e.1 else none

/-- A new game: every item unowned, every flag down, every resource and building at zero. -/
def initial (c : Content) : GameState :=
  { start with
    resources := constantMap (sortedDistinct c.resourceNames) Amount.zero
    buildings := constantMap (OrderedMap.keys c.buildingActions) 0
    owned := fun s => constantMap (itemsOf c s) false
    flags := constantMap (sortedDistinct c.flagNames) false }

end GameState

end SurvivalRules
