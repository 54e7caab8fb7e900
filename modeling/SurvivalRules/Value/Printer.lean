import SurvivalRules.Fault
import SurvivalRules.Text.Quoted
import SurvivalRules.Value.Key

/-!
# Values as text

`describe` shows a value so that its kind can be told; `display` shows a text as it is. Values with a
whole number that is too long are not written.
-/
namespace SurvivalRules.Value

/-- A key that is no text stands without quotes. -/
def describeKey (k : String) : String := (Key.unnamed? k).getD (Text.quoted k)

mutual

def describe : Value → String
  | .null => "None"
  | .bool b => if b then "True" else "False"
  | .int n => Numeric.numeral n
  | .float x => x.toText
  | .text s => Text.quoted s
  | .list items => "[" ++ describeItems items ++ "]"
  | .mapping entries => "\x7b" ++ describeEntries entries ++ "\x7d"

def describeItems : List Value → String
  | [] => ""
  | [v] => describe v
  | v :: rest => describe v ++ ", " ++ describeItems rest

def describeEntries : List (String × Value) → String
  | [] => ""
  | [(k, v)] => describeKey k ++ ": " ++ describe v
  | (k, v) :: rest => describeKey k ++ ": " ++ describe v ++ ", " ++ describeEntries rest

end

def display : Value → String
  | .text s => s
  | v => describe v

mutual

/-- Whether no whole number in a value is too long to be written. -/
def isWritable : Value → Bool
  | .int n => Numeric.isWritable n
  | .list items => areWritable items
  | .mapping entries => entriesAreWritable entries
  | _ => true

def areWritable : List Value → Bool
  | [] => true
  | v :: rest => isWritable v && areWritable rest

def entriesAreWritable : List (String × Value) → Bool
  | [] => true
  | (_, v) :: rest => isWritable v && entriesAreWritable rest

end

def described (v : Value) : Except Fault String :=
  if v.isWritable then .ok v.describe else .error .tooLong

def displayed (v : Value) : Except Fault String :=
  if v.isWritable then .ok v.display else .error .tooLong

@[simp] theorem display_text (s : String) : display (.text s) = s := rfl

end SurvivalRules.Value
