import SurvivalRules.Condition.Reader
import SurvivalRules.Content
import SurvivalRules.Effect

/-!
# Problems of actions

Paths, effects and guards are free text in an action. Each is checked on its own, so that every problem
of an action can be told at once.
-/
namespace SurvivalRules

/-- What is wrong with one entry of a block. -/
inductive EntryFault where
  | path (cause : PathError)
  | effect (cause : EffectError)
  | condition (cause : ConditionError)
  deriving DecidableEq

def EntryFault.message : EntryFault → String
  | .path cause => cause.message
  | .effect cause => cause.message
  | .condition cause => cause.message

inductive Problem where
  /-- A faulty entry, by the label of its block and its path. -/
  | entry (block path : String) (fault : EntryFault)
  /-- Levels that are shown but cannot be paid for. -/
  | uncosted (levels : List Int)
  deriving DecidableEq

/-- A problem as it is told, behind the file and the id of the action. -/
def Problem.message (file id : String) : Problem → String
  | .entry block path fault => s!"{file}:{id}.{block}.{path}: " ++ fault.message
  | .uncosted levels =>
    s!"{file}:{id}: levels " ++ (Value.list (levels.map .int)).describe ++
      " are visible but have no cost"

def conditionFaults (text : String) : List EntryFault :=
  match Condition.read text with
  | .error cause => [.condition cause]
  | .ok _ => []

/-- An effect that cannot be read, unless the cause is a fault of its own. -/
def unreadableEffect (cause : EffectError) : Except Fault (List EntryFault) :=
  match cause with
  | .fault fault => .error fault
  | _ => .ok [.effect cause]

/-- The guard of a chance is looked at only if its outcome can be read. -/
def Chance.faults (c : Chance) : Except Fault (List EntryFault) :=
  match c.outcome, c.condition.filter (!·.isEmpty) with
  | .error cause, _ => unreadableEffect cause
  | .ok _, none => .ok []
  | .ok _, some text => .ok (conditionFaults text)

def effectFaults (v : Value) : Except Fault (List EntryFault) :=
  match Effect.ofValue v with
  | .error cause => unreadableEffect cause
  | .ok (.chance c) => c.faults
  | .ok (.sure _) => .ok []

def pathFaults (path : String) : List EntryFault :=
  match StatePath.parse path with
  | .error cause => [.path cause]
  | .ok _ => []

namespace Action

/-- A block of entries with its label. -/
structure Block where
  label : String
  areEffects : Bool
  entries : Tree
  deriving DecidableEq

def Block.entryProblems (b : Block) (path : String) (v : Value) : Except Fault (List Problem) := do
  let faults ← if b.areEffects then effectFaults v else pure []
  return (pathFaults path ++ faults).map (.entry b.label path)

def Block.problems (b : Block) : Except Fault (List Problem) := do
  return (← b.entries.mapM fun e => b.entryProblems e.1 e.2).flatten

/-- The blocks of the levels of a tiered action, labelled by level. -/
def levelBlocks (name : String) (areEffects : Bool) (levels : OrderedMap Int Tree) : List Block :=
  levels.map fun e => ⟨name ++ "[" ++ Numeric.numeral e.1 ++ "]", areEffects, e.2⟩

def blocks (a : Action) : List Block :=
  match a.plan with
  | .flat p =>
    [⟨"show_when", false, p.showWhen.getD []⟩, ⟨"cost", false, p.cost⟩, ⟨"effects", true, p.effects⟩]
  | .tiered p =>
    levelBlocks "show_when" false p.showWhen ++ levelBlocks "cost" false p.cost
      ++ levelBlocks "effects" true p.effects

/-- The levels with requirements and without costs. -/
def uncostedLevels (p : TieredPlan) : List Int :=
  (p.showWhen.keys.filter fun level => !OrderedMap.contains level p.cost).mergeSort

def levelProblems (a : Action) : List Problem :=
  match (a.tiered?.map uncostedLevels).getD [] with
  | [] => []
  | levels => [.uncosted levels]

/-- Every problem of an action. A fault ends the search. -/
def problems (a : Action) : Except Fault (List Problem) := do
  return (← a.blocks.mapM Block.problems).flatten ++ a.levelProblems

end Action

end SurvivalRules
