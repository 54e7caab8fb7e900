import SurvivalRules.Report
import SurvivalRules.Session.Opening
import SurvivalRules.Value.Literal

/-!
# Simulations

An action is resolved many times against one state. The table shows what that changes on average and
how often each message and event comes.
-/
namespace SurvivalRules

/-- What to simulate. -/
structure Trial where
  action : String
  times : Int
  /-- Places of the state that are set first, written `path=value`. -/
  given : List String
  amplify : Bool
  deriving DecidableEq, Repr

/-- Sums over all resolutions. -/
structure Tally where
  gains : OrderedMap String Amount
  messages : OrderedMap String Nat
  events : OrderedMap String Nat
  deriving DecidableEq

namespace Tally

def empty : Tally := ⟨[], [], []⟩

def count (counts : OrderedMap String Nat) (names : List String) : OrderedMap String Nat :=
  names.foldl (fun m name => OrderedMap.insert name ((OrderedMap.get? name m).getD 0 + 1) m) counts

/-- What a resource that counts `v` after a resolution has gained. The state's resources are looked
up only now. -/
def gainOf (before : Except Fault Tree) (name : String) (v : Value) : Except Fault Amount := do
  let held := (OrderedMap.get? name (← before)).getD (.int 0)
  match v.numeric?, held.numeric? with
  | some a, some b => a.sub b
  | _, _ => throw .illTyped

def addGains (before : Except Fault Tree) (gains : OrderedMap String Amount) :
    Tree → Except Fault (OrderedMap String Amount)
  | [] => .ok gains
  | (name, v) :: rest => do
    let gain ← gainOf before name v
    addGains before (← Bonus.addTo gains name gain) rest

def add (before : Except Fault Tree) (t : Tally) (r : Resolution) : Except Fault Tally := do
  let changed ← r.delta.section? Section.resources.name
  return ⟨← addGains before t.gains changed, count t.messages r.logMessages,
    count t.events r.triggeredEvents⟩

def ofResolutions (state : Tree) (rs : List Resolution) : Except Fault Tally :=
  rs.foldlM (add (state.section? Section.resources.name)) empty

/-- The average gains of the resources by name, without those that come to nothing. -/
def gainRows (times : Nat) : List (String × Amount) → Except Fault (List (List String))
  | [] => .ok []
  | (name, total) :: rest =>
    if total.isZero then gainRows times rest
    else do
      let average ← total.divNat times
      let more ← gainRows times rest
      return [name, average.toSignedPlaces 3] :: more

/-- How often each name comes, the most frequent first. -/
def countRows (label : String) (times : Nat) (counts : OrderedMap String Nat) :
    Except Fault (List (List String)) :=
  (counts.mergeSort fun a b => decide (b.2 ≤ a.2)).mapM fun e => do
    return [s!"{label}: " ++ e.1, (← (Amount.int e.2).divNat times).toPlaces 4]

def rows (t : Tally) (times : Nat) : Except Fault (List (List String)) := do
  let gains ← gainRows times (t.gains.mergeSort fun a b => Text.le a.1 b.1)
  let messages ← countRows "log" times t.messages
  let events ← countRows "event" times t.events
  return gains ++ messages ++ events

end Tally

namespace Trial

/-- One given place: the path before the first equals sign and the literal after it. -/
def give (state : Tree) (spec : String) : Except StateError Tree :=
  let (path, raw) := Text.cutAtChar '=' spec.toList
  match StatePath.parse (String.ofList (Text.trim path)) with
  | .error cause => .error (.path cause)
  | .ok p =>
    let v := Value.ofLiteral (String.ofList (Text.trim (raw.getD [])))
    .ok (Delta.merge state (Delta.set [] state p v))

def table (t : Trial) (rows : List (List String)) : Table :=
  ⟨t.action ++ " x" ++ Numeric.numeral t.times, ["resource", "avg change"], rows⟩

/-- Resolves the action against the state as often as asked. -/
def rows (t : Trial) (c : Content) (draws : Draws) (state : Tree) :
    Except Fault (List (List String)) := do
  let (resolved, _) := (resolveMany c t.action state t.amplify t.times.toNat).run.run draws
  let tally ← Tally.ofResolutions state (← resolved)
  tally.rows t.times.toNat

def tableOf (t : Trial) (c : Content) (draws : Draws) : Except StateError Table := do
  let state ← t.given.foldlM give (Session.newState c)
  return t.table (← Store.liftFault (t.rows c draws state))

def report (t : Trial) (c : Content) (draws : Draws) : Report :=
  match c.action? t.action with
  | none => ⟨[s!"[ERROR] unknown action '{t.action}'"], [], some (.exit 1)⟩
  | some _ =>
    match t.tableOf c draws with
    | .ok table => .ofTable table
    | .error cause => .ofFailure (.state cause)

end Trial

end SurvivalRules
