import SurvivalRules.Requirement
import SurvivalRules.Totals
import SurvivalRules.Value.Repetition

/-!
# The gate

Whether an action is shown and whether it can be done, with the reasons when it cannot. Unknown ids,
missing levels and malformed paths are answers, not errors.
-/
namespace SurvivalRules

/-- The part of an action that applies now; a level without an entry has none. -/
structure Tier where
  level : Option Int
  showWhen : Option Tree
  cost : Option Tree
  effects : Option Tree
  cooldown : Binary64
  deriving DecidableEq

/-- The level a building has in the state; what is no number counts as level zero. -/
def TieredPlan.currentLevel (p : TieredPlan) (state : Tree) : Except Fault Int := do
  let counts ← state.section? Section.buildings.name
  let n ← (Requirement.orZero (counts.lookup p.buildingKey)).toNumber
  if n.isNaN then return 0 else (Amount.float n).truncate

/-- A tiered action is about the next level. -/
def Action.tier (a : Action) (state : Tree) : Except Fault Tier := do
  match a.plan with
  | .flat p => return ⟨none, p.showWhen, some p.cost, some p.effects, p.cooldown⟩
  | .tiered p =>
    let level := (← p.currentLevel state) + 1
    return ⟨some level, OrderedMap.get? level p.showWhen, OrderedMap.get? level p.cost,
      OrderedMap.get? level p.effects, p.cooldown.atLevel level⟩

/-- The share of a price that is saved when the action is paid for. -/
def Action.paymentReduction (a : Action) (t : Totals) : Option Amount :=
  if a.isCrafting then some (.float t.craftingCostReduction)
  else a.tiered?.map fun _ => .float t.buildingCostReduction

/-- The share that is saved when the price is compared with what is held: only crafting is discounted. -/
def Action.gateReduction (a : Action) (t : Totals) : Option Amount :=
  if a.isCrafting then some (.float t.craftingCostReduction) else none

/-- A discounted price is rounded down; without a discount the price is as it is written. -/
def adjustedCost (required : Amount) (reduction : Option Amount) : Except Fault Amount :=
  match reduction with
  | none => .ok required
  | some r => do return .int (← (← required.mul (← (Amount.int 1).sub r)).floor)

/-- As `adjustedCost`, for values. Without a discount the price can be any value; a whole share repeats a
text or list. -/
def adjustedCostOf (required reduction : Value) : Except Fault Value :=
  if reduction.isNull then .ok required
  else
    match required, required.numeric?, reduction.numeric? with
    | .text s, _, some (.int n) =>
      .error ((Value.repetitionFault? true (Text.codes s).length (1 - n)).getD .illTyped)
    | .list vs, _, some (.int n) =>
      .error ((Value.repetitionFault? false vs.length (1 - n)).getD .illTyped)
    | _, some price, some share => Value.ofAmount <$> adjustedCost price (some share)
    | _, _, _ => .error .illTyped

namespace Gate

def isVisible (c : Content) (id : String) (state : Tree) : Except Fault Bool :=
  match c.action? id with
  | none => .ok false
  | some a => do
    match (← a.tier state).showWhen with
    | none => return false
    | some block =>
      match Requirement.allHold state block with
      | .ok b => return b
      | .error (.path _) => return false
      | .error (.fault cause) => throw cause

/-- The time left of a timer; what is no number counts as run out. -/
def cooldownRemaining (id : String) (state : Tree) : Except Fault Binary64 := do
  let timers ← state.section? Section.cooldowns.name
  let raw := timers.lookup id
  let n ← if raw.isNull then pure Binary64.zero else raw.toNumber
  return if n.isNaN then Binary64.zero else n

def isCoolingDown (id : String) (state : Tree) : Except Fault Bool := do
  return Amount.zero.lt (.float (← cooldownRemaining id state))

/-- How a needed and a held amount are told apart in a reason. -/
def shortage (path : String) (need : Amount) (current : Value) : Except Fault String := do
  return path ++ ": need " ++ (← need.written) ++ ", have " ++
    (← (Requirement.orZero current).displayed)

/-- How an expected and a found amount are told apart in a reason. -/
def mismatch (path : String) (required current : Value) : Except Fault String := do
  return path ++ " must be " ++ (← required.displayed) ++ " (is " ++ (← current.described) ++ ")"

/-- The reason why one cost entry cannot be paid. An entry that is no number asks for nothing, a resource
asks for the discounted amount at least, and any other place for the exact amount. -/
def costFailure (reduction : Except Fault (Option Amount)) (state : Tree) (path : String)
    (required : Value) : Except Fault (Option String) :=
  match required.amount? with
  | none => .ok none
  | some price =>
    match StatePath.parse path with
    | .error _ => .ok (some (path ++ ": malformed path"))
    | .ok p =>
      let current := state.get p
      if p.accumulates then do
        let need ← adjustedCost price (← reduction)
        let held ← (Requirement.orZero current).toNumber
        if need.le (.float held) then return none else return some (← shortage path need current)
      else if current.isBool || !current.same required then some <$> mismatch path required current
      else .ok none

/-- The reasons of all cost entries. -/
def costFailures (reduction : Except Fault (Option Amount)) (state : Tree) :
    Tree → Except Fault (List String)
  | [] => .ok []
  | (path, required) :: rest => do
    let failure ← costFailure reduction state path required
    let more ← costFailures reduction state rest
    return failure.toList ++ more

/-- Whether every cost entry can be paid; they are tried in order up to the first that cannot. -/
def canPay (reduction : Except Fault (Option Amount)) (state : Tree) : Tree → Except Fault Bool
  | [] => .ok true
  | (path, required) :: rest => do
    match ← costFailure reduction state path required with
    | some _ => return false
    | none => canPay reduction state rest

def gateReduction (c : Content) (a : Action) (state : Tree) : Except Fault (Option Amount) := do
  return a.gateReduction (← Totals.ofState c state)

def isExecutable (c : Content) (id : String) (state : Tree) : Except Fault Bool :=
  match c.action? id with
  | none => .ok false
  | some a => do
    if ← isCoolingDown id state then return false
    else
      match (← a.tier state).cost with
      | none => return false
      | some cost => canPay (gateReduction c a state) state cost

def showFailures (state : Tree) (tier : Tier) : Except Fault (List String) :=
  match tier.showWhen with
  | some block => Requirement.failures state block
  | none =>
    .ok [if tier.level.any (· ≠ 0) then "not available at this level" else "never shown"]

def levelText : Option Int → String
  | some n => Numeric.numeral n
  | none => "None"

def payFailures (c : Content) (a : Action) (state : Tree) (tier : Tier) :
    Except Fault (List String) :=
  match tier.cost with
  | some cost => costFailures (gateReduction c a state) state cost
  | none => .ok ["no cost defined for level " ++ levelText tier.level]

def coolingText (left : Binary64) : List String :=
  if Amount.zero.lt (.float left) then ["cooling down (" ++ left.toBrief ++ "s left)"] else []

/-- Every reason why an action is hidden or cannot be done. -/
def unmetRequirements (c : Content) (id : String) (state : Tree) : Except Fault (List String) :=
  match c.action? id with
  | none => .ok [s!"unknown action '{id}'"]
  | some a => do
    let cooling := coolingText (← cooldownRemaining id state)
    let tier ← a.tier state
    let hidden ← showFailures state tier
    let unpaid ← payFailures c a state tier
    return cooling ++ hidden ++ unpaid

/-- The name of a resource as it is shown: words apart, each with a capital. -/
def resourceTitle (cs : List Char) : String :=
  Text.title (String.ofList (cs.map fun c => if c = '_' then ' ' else c))

/-- What follows the section of the resources in a path as it is written. -/
def resourcePart? (path : String) : Option (List Char) :=
  match Text.cutAtChar '.' path.toList with
  | (front, some rest) => if String.ofList front = Section.resources.name then some rest else none
  | _ => none

def costPart? (reduction : Option Amount) (path : String) (required : Value) :
    Except Fault (Option String) :=
  match required.amount?, resourcePart? path with
  | some price, some rest => do
    return some ("-" ++ (← (← adjustedCost price reduction).written) ++ " " ++ resourceTitle rest)
  | _, _ => .ok none

def costParts (reduction : Option Amount) : Tree → Except Fault (List String)
  | [] => .ok []
  | (path, required) :: rest => do
    let part ← costPart? reduction path required
    let more ← costParts reduction rest
    return part.toList ++ more

/-- The resource costs as they are shown beside an action. -/
def costText (c : Content) (id : String) (state : Tree) : Except Fault String :=
  match c.action? id with
  | none => .ok ""
  | some a => do
    match (← a.tier state).cost.getD [] with
    | [] => return ""
    | cost => return ", ".intercalate (← costParts (← gateReduction c a state) cost)

/-- The cooldown of an action less what its bonuses take off. -/
def effectiveCooldown (c : Content) (id : String) (state : Tree) : Except Fault Binary64 :=
  match c.action? id with
  | none => .ok Binary64.zero
  | some a => do
    let tier ← a.tier state
    let bonus ← (← Totals.ofState c state).forAction a.id a.category
    let left := tier.cooldown.sub bonus.cooldownReduction
    return if Amount.zero.lt (.float left) then left else Binary64.zero

def visibleAmong (c : Content) (state : Tree) : List String → Except Fault (List String)
  | [] => .ok []
  | id :: rest => do
    let shown ← isVisible c id state
    let more ← visibleAmong c state rest
    return if shown then id :: more else more

def visibleActions (c : Content) (state : Tree) : Except Fault (List String) :=
  visibleAmong c state (OrderedMap.keys c.actions)

end Gate

end SurvivalRules
