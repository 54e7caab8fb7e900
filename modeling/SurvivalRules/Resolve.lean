import SurvivalRules.Condition.Reader
import SurvivalRules.Effect
import SurvivalRules.Gate
import SurvivalRules.State.Delta
import SurvivalRules.Trace

/-!
# Resolving an action

The effects of an action are resolved one after another against the state as it was, and their writes
are collected in a delta. An entry that cannot be read is left out, which the trace tells, and the
others go on. Gains are scaled when all entries are done.
-/
namespace SurvivalRules

structure Resolution where
  delta : Tree
  logMessages : List String
  triggeredEvents : List String
  trace : List String
  deriving DecidableEq

def Resolution.isEmpty (r : Resolution) : Bool :=
  r.delta.isEmpty && r.logMessages.isEmpty && r.triggeredEvents.isEmpty

/-- Steps that take draws and may fail; the draws taken by a failed step stay taken. -/
abbrev Drawing := ExceptT Fault (StateM Draws)

def Drawing.draw : Drawing Amount := do
  let d ← getThe Draws
  let (u, d) := d.next
  set d
  return u

/-- What stays the same while the entries of an action are resolved. -/
structure Circumstances where
  state : Tree
  bonus : Bonus
  reduction : Option Amount
  luck : Amount

/-- What has come of the entries so far. -/
structure Progress where
  delta : Tree
  logMessages : List String
  triggeredEvents : List String
  trace : Trace

namespace Progress

def start : Progress := ⟨[], [], [], Trace.empty "Effects"⟩

def note (p : Progress) (line : String) : Progress := { p with trace := p.trace.add line }

def skip (p : Progress) (path reason : String) : Progress := p.note s!"skip {path}: {reason}"

def write (p : Progress) (c : Circumstances) (path : StatePath) (v : Value) : Progress :=
  { p with delta := Delta.set p.delta c.state path v }

/-- Adds to the amount that the path has in the delta or the state; what is no number counts as zero. -/
def accumulate (p : Progress) (c : Circumstances) (path : StatePath) (a : Amount) :
    Except Fault Progress := do
  let base := (Delta.current p.delta c.state path).amount?.getD .zero
  return p.write c path (.ofAmount (← base.add a))

def addLog (p : Progress) (c : Chance) : Progress :=
  { p with
    logMessages := p.logMessages ++ (c.logMessage.filter (!·.isEmpty)).toList
    triggeredEvents := p.triggeredEvents ++ (c.triggerEvent.filter (!·.isEmpty)).toList }

end Progress

/-- A reduced payment is rounded down, so away from zero; gains are not reduced. -/
def payment (reduction : Option Amount) (a : Amount) : Except Fault Amount :=
  if a.lt .zero then adjustedCost a reduction else .ok a

/-- A constant. On a resource it adds up, unless it is a truth value. -/
def applyConstant (c : Circumstances) (path : StatePath) (k : Constant) (p : Progress) :
    Except Fault Progress :=
  match k with
  | .truth _ => .ok (p.write c path k.value)
  | .amount a =>
    if path.accumulates then do p.accumulate c path (← payment c.reduction a)
    else .ok (p.write c path k.value)

/-- The bonus amount for random gains of the resource that a path names. -/
def gainBonus (b : Bonus) (path : StatePath) : Amount :=
  match path.resource? with
  | some name => (OrderedMap.get? name b.resourceBonus).getD .zero
  | none => .zero

def bonusText (bonus : Amount) : Except Fault String :=
  if bonus.isZero then .ok "" else do return " +" ++ (← bonus.written) ++ " bonus"

def rangeLine (path : StatePath) (r : RandomRange) (n : Int) (bonus : Amount) :
    Except Fault String := do
  return path.raw ++ ": " ++ r.toText ++ " rolled " ++ (← (Amount.int n).written) ++ (← bonusText bonus)

/-- A random range, which takes one draw. -/
def applyRange (c : Circumstances) (path : StatePath) (r : RandomRange) (p : Progress) :
    Drawing Progress := do
  let n ← r.draw (← Drawing.draw)
  let bonus := gainBonus c.bonus path
  let p := p.note (← rangeLine path r n bonus)
  let a ← (Amount.int n).add bonus
  if path.accumulates then p.accumulate c path a else return p.write c path (.ofAmount a)

def applyOutcome (c : Circumstances) (path : StatePath) (o : Outcome) (p : Progress) :
    Drawing Progress :=
  match o with
  | .constant k => applyConstant c path k p
  | .range r => applyRange c path r p

/-- Whether the condition of a chance lets it go on, or why its entry is left out. -/
inductive ConditionAnswer where
  | met
  | unmet (condition : String)
  | unreadable (cause : ConditionError)

def Chance.answer (c : Chance) (state : Tree) : Except Fault ConditionAnswer :=
  match c.condition.filter (!·.isEmpty) with
  | none => .ok .met
  | some text =>
    match Condition.read text with
    | .error cause => .ok (.unreadable cause)
    | .ok condition => do return if ← condition.holds state then .met else .unmet text

/-- Draws and chances have four places in traces. -/
def placesText (a : Amount) : Except Fault String := do return (← a.toBinary64).toPlaces 4

def rollText (path roll sign chance : String) : String :=
  s!"{path}: roll {roll} {sign} chance {chance}"

/-- A chance takes one draw once its condition is met, and fires if the draw is below it. -/
def applyChance (c : Circumstances) (raw : String) (path : StatePath) (k : Chance) (p : Progress) :
    Drawing Progress := do
  match ← k.answer c.state with
  | .unreadable cause => return p.skip raw cause.message
  | .unmet text => return p.note s!"{raw}: condition '{text}' not met"
  | .met =>
    let chance ← adjustedProbability (.float (k.probability.add c.bonus.probabilityBonus)) c.luck
    let roll ← Drawing.draw
    if !roll.lt chance then
      return p.note (rollText raw (← placesText roll) ">=" (← placesText chance) ++ ", no effect")
    else
      match k.outcome with
      | .error cause => return p.skip raw (← cause.told)
      | .ok outcome =>
        let p := p.note (rollText raw (← placesText roll) "<" (← placesText chance) ++ ", fired")
        return (← applyOutcome c path outcome p).addLog k

/-- One entry of the effects. -/
def applyEntry (c : Circumstances) (raw : String) (v : Value) (p : Progress) : Drawing Progress :=
  match StatePath.parse raw with
  | .error cause => pure (p.skip raw cause.message)
  | .ok path =>
    match Effect.ofValue v with
    | .error cause => do return p.skip raw (← cause.told)
    | .ok (.sure outcome) => applyOutcome c path outcome p
    | .ok (.chance k) => applyChance c raw path k p

def applyEntries (c : Circumstances) : Tree → Progress → Drawing Progress
  | [], p => pure p
  | (raw, v) :: rest, p => do applyEntries c rest (← applyEntry c raw v p)

/-- Net gains of an action are multiplied by this when gains are amplified. -/
def amplifyFactor : Int := 10

/-- The amount that a multiplier adds to a gain, rounded down. -/
def multiplierExtra (multiplier : Binary64) (gain : Amount) : Except Fault Int := do
  (← gain.mul (.float (multiplier.sub Binary64.one))).floor

/-- A gain with its multiplier, and a line if that changes it. -/
def multiplyGain (multiplier : Binary64) (name : String) (new gain : Amount) (t : Trace) :
    Except Fault (Amount × Trace) := do
  if Bonus.isOne multiplier then return (new, t)
  else
    let extra ← multiplierExtra multiplier gain
    if extra = 0 then return (new, t)
    else
      return (← new.add (.int extra), t.add ("resources." ++ name ++ ": x" ++ multiplier.toBrief ++
        " multiplier adds " ++ (← (Amount.int extra).written)))

def amplifyGain (name : String) (before new : Amount) (t : Trace) :
    Except Fault (Amount × Trace) := do
  let new ← before.add (← (← new.sub before).mul (.int amplifyFactor))
  let gain ← (← new.sub before).written
  return (new, t.add (s!"resources.{name}: amplified gain to " ++ gain))

/-- The amount of a resource before the action; what is no number counts as zero. -/
def amountBefore (state : Tree) (name : String) : Except Fault Amount := do
  let held ← state.section? Section.resources.name
  return ((OrderedMap.get? name held).bind Value.amount?).getD .zero

/-- Scales one resource. Only a net gain is scaled. -/
def scaleGain (state : Tree) (multiplier : Binary64) (amplify : Bool) (name : String) (new : Amount)
    (t : Trace) : Except Fault (Amount × Trace) := do
  let before ← amountBefore state name
  let gain ← new.sub before
  if gain.le .zero then return (new, t)
  else
    let (new, t) ← multiplyGain multiplier name new gain t
    if amplify then amplifyGain name before new t else return (new, t)

/-- Scales every numeric resource of the section. -/
def scaleEntries (state : Tree) (multiplier : Binary64) (amplify : Bool) :
    Tree → Trace → Except Fault (Tree × Trace)
  | [], t => .ok ([], t)
  | (name, v) :: rest, t => do
    let (v, t) ← (match v.amount? with
      | none => pure (v, t)
      | some new => do
        let (scaled, t) ← scaleGain state multiplier amplify name new t
        pure (Value.ofAmount scaled, t))
    let (more, t) ← scaleEntries state multiplier amplify rest t
    return ((name, v) :: more, t)

def scaleGains (state : Tree) (multiplier : Binary64) (amplify : Bool) (p : Progress) :
    Except Fault Progress :=
  match p.delta.lookup Section.resources.name with
  | .mapping entries => do
    let (scaled, trace) ← scaleEntries state multiplier amplify entries p.trace
    return { p with
      delta := OrderedMap.insert Section.resources.name (.mapping scaled) p.delta
      trace := trace }
  | _ => .ok p

namespace Resolution

def ofProgress (p : Progress) : Resolution :=
  ⟨p.delta, p.logMessages, p.triggeredEvents, p.trace.lines⟩

/-- Nothing happens, for the reason given. -/
def nothing (reason : String) : Resolution := ofProgress (Progress.start.note reason)

def circumstances (c : Content) (a : Action) (state : Tree) : Except Fault Circumstances := do
  let t ← Totals.ofState c state
  return ⟨state, ← t.forAction a.id a.category, a.paymentReduction t, t.stat .luck⟩

def ofEffects (c : Content) (a : Action) (state : Tree) (amplify : Bool) (effects : Tree) :
    Drawing Resolution := do
  let around ← circumstances c a state
  let p ← applyEntries around effects Progress.start
  return ofProgress (← scaleGains state around.bonus.resourceMultiplier amplify p)

end Resolution

/-- Resolves an action against a state. -/
def resolve (c : Content) (id : String) (state : Tree) (amplify : Bool) : Drawing Resolution :=
  match c.action? id with
  | none => pure (.nothing s!"unknown action '{id}', nothing resolved")
  | some a => do
    let tier ← a.tier state
    match tier.effects with
    | none => return .nothing (s!"{id}: no effects defined for level " ++ Gate.levelText tier.level)
    | some effects => Resolution.ofEffects c a state amplify effects

/-- Independent resolutions against the same state. -/
def resolveMany (c : Content) (id : String) (state : Tree) (amplify : Bool) :
    Nat → Drawing (List Resolution)
  | 0 => pure []
  | n + 1 => do
    let r ← resolve c id state amplify
    let more ← resolveMany c id state amplify n
    return r :: more

end SurvivalRules
