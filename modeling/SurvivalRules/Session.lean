import SurvivalRules.GameState
import SurvivalRules.Session.Command
import SurvivalRules.Store

/-!
# Sessions

A session is a game in play: commands come in one after another, and each is answered by lines of text.
-/
namespace SurvivalRules

structure Session where
  store : Store
  showTrace : Bool
  finished : Bool

namespace Session

def version : String := "0.1.0"

def helpText : String :=
  "Commands: status, actions, do <action_id>, tick [seconds], bonuses, " ++
    "why <action_id>, cache stats, quit"

/-- Conditions and paths are read anew each time, so nothing is kept and all counts are zero. -/
def cacheLines : List String :=
  ["condition-cache: hits=0, misses=0, size=0/0", "path-cache: hits=0, misses=0, size=0/0"]

def start (store : Store) (showTrace : Bool) : Session := ⟨store, showTrace, false⟩

def state (s : Session) : Tree := s.store.state

def content (s : Session) : Content := s.store.content

/-- The entries of a section that are not vacant, as names with their values. -/
def listHeld (counts : Tree) : Except Fault (List String) :=
  (counts.filter (!·.2.isVacant)).mapM fun e => do return e.1 ++ " " ++ (← e.2.displayed)

/-- Whether one of the given ownership sections marks an item; they are tried in order. -/
def isMarked (state : Tree) (id : String) : List Slot → Except Fault Bool
  | [] => .ok false
  | slot :: rest => do
    let marks ← state.section? slot.name
    if !(marks.lookup id).isVacant then return true else isMarked state id rest

/-- The names of the items that are marked as owned, in the order of the content. -/
def markedNames (state : Tree) : List (String × Item) → Except Fault (List String)
  | [] => .ok []
  | (id, item) :: rest => do
    let marked ← isMarked state id Slot.all
    let more ← markedNames state rest
    return if marked then item.name :: more else more

def titled (title : String) (names : List String) : List String :=
  if names.isEmpty then [] else [title ++ ": " ++ ", ".intercalate names]

def statusLines (s : Session) : Except Fault (List String) := do
  let resources ← s.state.section? Section.resources.name
  let buildings ← s.state.section? Section.buildings.name
  let held ← listHeld resources
  let built ← listHeld buildings
  let owned ← markedNames s.state s.content.items
  return (if held.isEmpty then ["Resources: (none)"] else titled "Resources" held)
    ++ titled "Buildings" built ++ titled "Owned" owned

/-- How an action stands: on cooldown, ready or locked. -/
def standing (s : Session) (id : String) : Except Fault String := do
  let left ← Gate.cooldownRemaining id s.state
  if Amount.zero.lt (.float left) then return "cooldown " ++ left.toBrief ++ "s"
  else return if ← Gate.isExecutable s.content id s.state then "ready" else "locked"

def actionLine (s : Session) (id : String) : Except Fault String := do
  let tag ← s.standing id
  let cost ← Gate.costText s.content id s.state
  let label := ((s.content.action? id).map (·.label)).getD ""
  return s!"- {id}: {label} [{tag}]" ++ (if cost.isEmpty then "" else s!" ({cost})")

/-- A line for each visible action. -/
def actionLines (s : Session) : Except Fault (List String) := do
  let lines ← (← Gate.visibleActions s.content s.state).mapM s.actionLine
  return if lines.isEmpty then ["No actions available."] else lines

def bonusLines (s : Session) : Except Fault (List String) := do
  (← Totals.ofState s.content s.state).explain

def cooldownText (cooldown : Binary64) : String :=
  if cooldown.isZero then "" else " (cooldown " ++ cooldown.toBrief ++ "s)"

/-- What a dispatched action is answered with. -/
def verdictLines (s : Session) (id : String) : Verdict → List String
  | .rejected reasons =>
    [s!"[Action] {id} not possible: " ++
      (if reasons.isEmpty then "unavailable" else "; ".intercalate reasons)]
  | .performed r =>
    let label := ((s.content.action? id).map (·.label)).getD ""
    ("[Action] " ++ label ++ cooldownText r.cooldown) :: r.logMessages
      ++ r.triggeredEvents.map ("[Event] " ++ ·)
      ++ (if s.showTrace then r.trace else [])

def perform (s : Session) (id : String) : Except StateError (List String) × Session :=
  let (verdict, store) := s.store.dispatch id
  (verdict.map (s.verdictLines id), { s with store := store })

def reasonLines (s : Session) (id : String) : Except Fault (List String) := do
  let reasons ← Gate.unmetRequirements s.content id s.state
  return if reasons.isEmpty then [s!"{id}: all requirements met"] else reasons.map ("- " ++ ·)

def timeLine (seconds : Binary64) (ready : List String) : String :=
  "[Time] " ++ seconds.toBrief ++ "s passed" ++
    (if ready.isEmpty then "" else "; ready: " ++ ", ".intercalate ready)

/-- Only ids that are texts can be listed. -/
def tickLines (seconds : Binary64) (ready : List String) : Except StateError (List String) :=
  if ready.all Key.isText then .ok [timeLine seconds ready] else .error (.fault .illTyped)

def tick (s : Session) (seconds : Binary64) : Except StateError (List String) × Session :=
  match s.store.advance (.float seconds) with
  | .ok (ready, store) => (tickLines seconds ready, { s with store := store })
  | .error cause => (.error (.fault cause), s)

/-- An answer that leaves the session as it is. -/
def view (s : Session) (lines : Except Fault (List String)) :
    Except StateError (List String) × Session :=
  (Store.liftFault lines, s)

def run (s : Session) : Command → Except StateError (List String) × Session
  | .help => s.view (.ok [helpText])
  | .cacheStats => s.view (.ok cacheLines)
  | .status => s.view s.statusLines
  | .actions => s.view s.actionLines
  | .bonuses => s.view s.bonusLines
  | .perform id => s.perform id
  | .explain id => s.view (s.reasonLines id)
  | .tick seconds => s.tick seconds
  | .unreadableTick => s.view (.ok ["Usage: tick [seconds]"])
  | .leave => (.ok ["Goodbye."], { s with finished := true })
  | .unknown => s.view (.ok ["Unknown command. Type 'help'."])

def execute (s : Session) (line : String) : Except StateError (List String) × Session :=
  s.run (Command.read line)

@[simp] theorem view_snd (s : Session) (lines : Except Fault (List String)) :
    (s.view lines).2 = s := rfl

/-- Only leaving the game finishes it. -/
theorem finished_run (s : Session) (c : Command) (h : c ≠ .leave) :
    (s.run c).2.finished = s.finished := by
  cases c with
  | leave => exact absurd rfl h
  | tick seconds =>
    simp only [run, tick]
    split <;> rfl
  | _ => rfl

end Session

end SurvivalRules
