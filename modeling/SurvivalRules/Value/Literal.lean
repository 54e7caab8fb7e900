import SurvivalRules.Text.Casing
import SurvivalRules.Text.Number
import SurvivalRules.Value

/-!
# Literals

A value typed as a word: a truth value in any case, else a whole number, else a binary64 number, and a
text if it is none of these.
-/
namespace SurvivalRules.Value

def truthOfWord? (raw : String) : Option Bool :=
  match Text.lower raw with
  | "true" => some true
  | "false" => some false
  | _ => none

def ofLiteral (raw : String) : Value :=
  match truthOfWord? raw, Text.readWhole? raw, Text.readNumber? raw with
  | some b, _, _ => .bool b
  | none, some n, _ => .int n
  | none, none, some x => .float x
  | none, none, none => .text raw

end SurvivalRules.Value
