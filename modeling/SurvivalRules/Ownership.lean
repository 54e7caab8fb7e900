import SurvivalRules.Content
import SurvivalRules.State.Tree
import SurvivalRules.Value.Coercion

/-!
# What counts of what is owned

Of an equipment family only the best owned tier grants action bonuses, and of a building chain only the
last built one stands. Buildings outside chains stand when they are built.
-/
namespace SurvivalRules.Content

/-- The items that a section of ownership marks as owned and that fill its slot. -/
def ownedIn (c : Content) (state : Tree) (s : Slot) : List Item :=
  (state.lookup s.name).entries.filterMap fun e =>
    if e.2.truthy then (c.item? e.1).filter (·.slot = s) else none

/-- Owned items by section, in the order in which each section lists them. -/
def ownedItems (c : Content) (state : Tree) : List Item := Slot.all.flatMap (c.ownedIn state)

/-- The owned tiers of a family but the last. -/
def shadowedTiers (ownedIds : List String) (f : EquipmentFamily) : List String :=
  (f.tiers.filter ownedIds.contains).dropLast

/-- The owned items that a better tier of a family supersedes. -/
def superseded (c : Content) (owned : List Item) : List String :=
  (OrderedMap.values c.families).flatMap (shadowedTiers (owned.map (·.id)))

/-- Whether a building's count is positive; a missing count is zero. -/
def isBuilt (counts : Tree) (key : String) : Except Fault Bool := do
  let n ← ((OrderedMap.get? key counts).getD (.int 0)).toNumber
  return Amount.zero.lt (.float n)

/-- The last built of the given buildings; all of them are looked up. -/
def lastBuilt (counts : Tree) : List String → Except Fault (Option String)
  | [] => .ok none
  | key :: rest => do
    let built ← isBuilt counts key
    let later ← lastBuilt counts rest
    return later <|> (if built then some key else none)

/-- A built building stands unless its chain has a later built one. -/
def stands (c : Content) (counts : Tree) (key : String) : Except Fault Bool := do
  if !(← isBuilt counts key) then return false
  else
    match c.chainOf? key with
    | none => return true
    | some chain => return (← lastBuilt counts chain.tiers) = some key

def standingAmong (c : Content) (counts : Tree) :
    List (String × Action × TieredPlan) → Except Fault (List (String × Action))
  | [] => .ok []
  | (key, a, _) :: rest => do
    let standing ← c.stands counts key
    let more ← standingAmong c counts rest
    return if standing then (key, a) :: more else more

/-- The buildings that contribute, with the actions that raise them. -/
def standingBuildings (c : Content) (state : Tree) : Except Fault (List (String × Action)) :=
  c.standingAmong (state.lookup Section.buildings.name).entries c.buildingActions

end SurvivalRules.Content
