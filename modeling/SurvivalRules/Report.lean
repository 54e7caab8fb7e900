import SurvivalRules.Content
import SurvivalRules.State.Tree

/-!
# Reports

What a tool shows: lines, tables of texts, and why it stopped early if it did.
-/
namespace SurvivalRules

structure Table where
  title : String
  header : List String
  rows : List (List String)
  deriving DecidableEq, Repr

inductive Failure where
  | content (cause : ContentError)
  | state (cause : StateError)
  /-- The tool ends with this code after it has said why. -/
  | exit (code : Nat)
  /-- The input ends before the tool does. -/
  | aborted
  deriving DecidableEq

structure Report where
  lines : List String
  tables : List Table
  failure : Option Failure
  deriving DecidableEq

namespace Report

def ofTable (t : Table) : Report := ⟨[], [t], none⟩

def ofFailure (f : Failure) : Report := ⟨[], [], some f⟩

end Report

end SurvivalRules
