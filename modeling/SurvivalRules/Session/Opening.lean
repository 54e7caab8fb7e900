import SurvivalRules.Session
import SurvivalRules.Settings

/-!
# Opening a session

A session starts from content, settings and a source of draws, with a new game or a given state.
-/
namespace SurvivalRules.Session

/-- The tree of a new game. -/
def newState (c : Content) : Tree := (GameState.initial c).toTree

def ofContent (c : Content) (settings : Settings) (draws : Draws) (state : Option Tree) : Session :=
  let state := state.getD (newState c)
  start (Store.start c state draws settings.amplifyGains) settings.showTrace

end SurvivalRules.Session
