import SurvivalRules.Text.Casing
import SurvivalRules.Text.Number

/-!
# Commands

What a player types. Words are taken in any case, and ids are kept as they are written.
-/
namespace SurvivalRules

open Text

inductive Command where
  | help
  | cacheStats
  | status
  | actions
  | bonuses
  | perform (id : String)
  | explain (id : String)
  | tick (seconds : Binary64)
  /-- A time that is no number. -/
  | unreadableTick
  | leave
  | unknown
  deriving DecidableEq, Repr

namespace Command

/-- The commands that stand alone. -/
def bareWords : List (String × Command) :=
  [("help", .help), ("?", .help), ("cache stats", .cacheStats), ("status", .status),
    ("actions", .actions), ("bonuses", .bonuses), ("quit", .leave), ("exit", .leave)]

/-- The trimmed rest of `cs` after a word that its lower case starts with. -/
def argument? (word : String) (cs low : List Char) : Option String :=
  if word.toList.isPrefixOf low then some (String.ofList (trim (cs.drop word.length))) else none

/-- Without a time one second passes. -/
def tickOf (argument : String) : Command :=
  if argument.isEmpty then .tick Binary64.one
  else
    match readNumber? argument with
    | some seconds => .tick seconds
    | none => .unreadableTick

def tickArgument? (cs low : List Char) : Option String :=
  if low = "tick".toList then some "" else argument? "tick " cs low

def read (line : String) : Command :=
  let cs := trim line.toList
  let word := lower (String.ofList cs)
  match bareWords.find? (·.1 = word) with
  | some (_, command) => command
  | none =>
    let low := word.toList
    match argument? "do " cs low, argument? "why " cs low, tickArgument? cs low with
    | some id, _, _ => .perform id
    | _, some id, _ => .explain id
    | _, _, some seconds => tickOf seconds
    | _, _, _ => .unknown

end Command

end SurvivalRules
