import SurvivalRules.Report
import SurvivalRules.Session.Opening

/-!
# Playing

A game is played line by line until the player leaves it or the lines run out.
-/
namespace SurvivalRules

namespace Session

def greeting : String := s!"idlesurvival {version}. Type 'help' for commands."

/-- An empty line asks for the actions. -/
def prompted (line : String) : String := if line.isEmpty then "actions" else line

/-- The answers to the lines in order, up to the end of the game. -/
def transcript (s : Session) : List String → List String × Option Failure
  | [] => ([], if s.finished then none else some .aborted)
  | line :: rest =>
    if s.finished then ([], none)
    else
      match s.execute (prompted line) with
      | (.error cause, _) => ([], some (.state cause))
      | (.ok lines, next) =>
        let (more, failure) := next.transcript rest
        (lines ++ more, failure)

def play (s : Session) (lines : List String) : Report :=
  let (answers, failure) := s.transcript lines
  ⟨greeting :: answers, [], failure⟩

end Session

end SurvivalRules
