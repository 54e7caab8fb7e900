import SurvivalRules.Resolve
import SurvivalRules.Value.Pairs

/-!
# The store

The store holds the state of a game and is the only place that changes it. Dispatching an action checks
it, resolves it, lays its delta over the state and starts its cooldown; an action that cannot be done
and a step that fails leave the state as it was.
-/
namespace SurvivalRules

structure Store where
  content : Content
  state : Tree
  draws : Draws
  amplify : Bool
  /-- The number of actions done. -/
  clock : Nat
  /-- Every action done, with the time on the clock. -/
  heard : List (String × Nat)

/-- What came of an action that was done. -/
structure Performed where
  logMessages : List String
  triggeredEvents : List String
  cooldown : Binary64
  trace : List String
  deriving DecidableEq

inductive Verdict where
  | rejected (reasons : List String)
  | performed (result : Performed)
  deriving DecidableEq

/-- The key under which the story remembers that an action was done. -/
def seenKey (id : String) : String := "action" ++ Text.capitalizeFirst id

namespace Store

def start (c : Content) (state : Tree) (draws : Draws) (amplify : Bool) : Store :=
  ⟨c, state, draws, amplify, 0, []⟩

def replace (s : Store) (state : Tree) : Store := { s with state := state }

/-- Takes over another state: a mapping, or pairs that stand for one. -/
def replaceWith (s : Store) (state : Value) : Except Fault Store := s.replace <$> state.asMapping

/-- A number below zero becomes zero. -/
def clampAmount (v : Value) : Value :=
  match v.amount? with
  | some a => if a.lt .zero then .int 0 else v
  | none => v

/-- Committed resources never drop below zero. -/
def clampResources (state : Tree) : Tree :=
  match state.lookup Section.resources.name with
  | .mapping held =>
    OrderedMap.insert Section.resources.name (.mapping (OrderedMap.mapValues clampAmount held)) state
  | _ => state

/-- Records a write at a path that is not parsed yet. -/
def record (delta state : Tree) (path : String) (v : Value) : Except StateError Tree :=
  match StatePath.parse path with
  | .error cause => .error (.path cause)
  | .ok p => .ok (Delta.set delta state p v)

/-- What the store writes besides the effects: that the action was seen, and its cooldown if it has
one. -/
def bookkeeping (id : String) (cooldown : Binary64) : List (String × Value) :=
  ("story.seen." ++ seenKey id, .bool true) ::
    if Amount.zero.lt (.float cooldown) then
      [("cooldowns." ++ id, .float cooldown), ("cooldownDurations." ++ id, .float cooldown)]
    else []

def recordAll (state : Tree) : Tree → List (String × Value) → Except StateError Tree
  | delta, [] => .ok delta
  | delta, (path, v) :: rest => do recordAll state (← record delta state path v) rest

/-- The state after a delta is committed. -/
def committed (state delta : Tree) : Tree := clampResources (Delta.merge state delta)

def liftFault {α : Type} (x : Except Fault α) : Except StateError α := x.mapError .fault

/-- Whether an action can be done, and its cooldown if so, or else the reasons. -/
def admission (s : Store) (id : String) : Except Fault (Except (List String) Binary64) := do
  if ← Gate.isExecutable s.content id s.state then
    return .ok (← Gate.effectiveCooldown s.content id s.state)
  else return .error (← Gate.unmetRequirements s.content id s.state)

/-- Commits a resolution. -/
def commit (s : Store) (id : String) (cooldown : Binary64) (r : Resolution) :
    Except StateError Store := do
  let delta ← recordAll s.state r.delta (bookkeeping id cooldown)
  let now := s.clock + 1
  return { s with
    state := committed s.state delta
    clock := now
    heard := s.heard ++ [(id, now)] }

def performedOf (cooldown : Binary64) (r : Resolution) : Performed :=
  ⟨r.logMessages, r.triggeredEvents, cooldown, r.trace⟩

/-- Does an action that is admitted. Draws that a failed step has taken stay taken. -/
def perform (s : Store) (id : String) (cooldown : Binary64) : Except StateError Performed × Store :=
  let (resolved, draws) := (resolve s.content id s.state s.amplify).run.run s.draws
  let s := { s with draws := draws }
  match resolved with
  | .error cause => (.error (.fault cause), s)
  | .ok r =>
    match s.commit id cooldown r with
    | .error cause => (.error cause, s)
    | .ok next => (.ok (performedOf cooldown r), next)

/-- Tries an action. -/
def dispatch (s : Store) (id : String) : Except StateError Verdict × Store :=
  match s.admission id with
  | .error cause => (.error (.fault cause), s)
  | .ok (.error reasons) => (.ok (.rejected reasons), s)
  | .ok (.ok cooldown) =>
    let (result, s) := s.perform id cooldown
    (result.map .performed, s)

/-- The running timers: a mapping, or a list of pairs that stands for one. Without any there are none. -/
def timersOf (v : Value) : Except Fault Tree := if v.isVacant then .ok [] else v.asMapping

/-- The timers that still run after `seconds`, and the ids of the others. -/
def elapse (seconds : Amount) : Tree → Except Fault (Tree × List String)
  | [] => .ok ([], [])
  | (id, left) :: rest =>
    match left.numeric? with
    | none => .error .illTyped
    | some left => do
      let remaining ← left.sub seconds
      let (running, ready) ← elapse seconds rest
      return if remaining.le .zero then (running, id :: ready)
        else ((id, .ofAmount remaining) :: running, ready)

/-- Lets time pass and gives the ids that are ready again. Time that does not pass changes nothing. -/
def advance (s : Store) (seconds : Amount) : Except Fault (List String × Store) :=
  if seconds.le .zero then .ok ([], s)
  else do
    let timers ← timersOf (s.state.lookup Section.cooldowns.name)
    let (running, ready) ← elapse seconds timers
    let state := OrderedMap.insert Section.cooldowns.name (.mapping running) s.state
    return (ready, s.replace state)

/-- As `advance`, for a time that has to be a number. -/
def tick (s : Store) (seconds : Value) : Except Fault (List String × Store) :=
  match seconds.numeric? with
  | some t => s.advance t
  | none => .error .illTyped

def isVisible (s : Store) (id : String) : Except Fault Bool := Gate.isVisible s.content id s.state

def isExecutable (s : Store) (id : String) : Except Fault Bool :=
  Gate.isExecutable s.content id s.state

/-- How long the last cooldown of an action was when it started; null if it never had one. -/
def lastCooldown (s : Store) (id : String) : Except Fault Value := do
  return (← s.state.section? Section.cooldownDurations.name).lookup id

@[simp] theorem state_replace (s : Store) (state : Tree) : (s.replace state).state = state := rfl

@[simp] theorem content_replace (s : Store) (state : Tree) : (s.replace state).content = s.content := rfl

theorem dispatch_of_rejected {s : Store} {id : String} {reasons : List String}
    (h : s.admission id = .ok (.error reasons)) : s.dispatch id = (.ok (.rejected reasons), s) := by
  simp [dispatch, h]

theorem advance_of_le_zero {seconds : Amount} (s : Store) (h : seconds.le .zero) :
    s.advance seconds = .ok ([], s) := by
  simp [advance, h]

theorem elapse_nil (seconds : Amount) : elapse seconds [] = .ok ([], []) := rfl

/-- What the clamp leaves of a number is not below zero. -/
theorem not_lt_zero_clampAmount {v : Value} {a : Amount} (h : (clampAmount v).amount? = some a) :
    a.lt .zero = false := by
  unfold clampAmount at h
  split at h
  · next b hb =>
    split at h
    · cases h
      decide
    · next hlt =>
      rw [hb] at h
      cases h
      simpa using hlt
  · next hnone =>
    rw [hnone] at h
    cases h

end Store

end SurvivalRules
