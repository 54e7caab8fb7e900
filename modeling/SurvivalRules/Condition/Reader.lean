import SurvivalRules.Condition
import SurvivalRules.Text.Split

/-!
# Reading conditions

` && ` separates the clauses and ` || ` the terms of a clause; there are no parentheses. Pieces are
trimmed after they are cut.
-/
namespace SurvivalRules

open Text

inductive ConditionError where
  /-- No text, or a blank one. -/
  | notText (found : Value)
  | emptyTerm
  | badTerm (term : String) (cause : PathError)
  deriving DecidableEq

def ConditionError.message : ConditionError → String
  | .notText found => "condition must be a non-empty string, got " ++ found.describe
  | .emptyTerm => "empty condition term"
  | .badTerm term cause => s!"cannot parse condition term '{term}': " ++ cause.message

/-- A longer operator comes before the operator that it starts with. -/
def Comparison.inOrder : List Comparison := [.atLeast, .atMost, .greater, .less, .equal, .unequal]

/-- The right side of a comparison: something, on one line. -/
def comparisonValue? (cs : List Char) : Option (List Char) :=
  let value := dropBlanks cs
  if value.isEmpty || value.contains '\n' then none else some value

/-- The right side after `op` at the start of `cs`. -/
def afterOperator? (cs : List Char) (op : Comparison) : Option (Comparison × List Char) :=
  let symbol := op.symbol.toList
  if symbol.isPrefixOf cs then (comparisonValue? (cs.drop symbol.length)).map (op, ·) else none

/-- An operator with a right side, after any blanks; the first in order that has one. -/
def operatorHere? (cs : List Char) : Option (Comparison × List Char) :=
  Comparison.inOrder.findSome? (afterOperator? (dropBlanks cs))

/-- The shortest left side on one line that an operator follows; `taken` is its reverse so far. -/
def splitComparison? (taken : List Char) (cs : List Char) :
    Option (List Char × Comparison × List Char) :=
  match if taken.isEmpty then none else operatorHere? cs with
  | some (op, value) => some (taken.reverse, op, value)
  | none =>
    match cs with
    | [] => none
    | c :: rest => if c = '\n' then none else splitComparison? (c :: taken) rest

/-- A right side in the form of a number is that number. -/
def Operand.ofText (s : String) : Operand :=
  match looseNumber s with
  | .number x => .number x
  | _ => .text s

def termPath (term : String) (cs : List Char) : Except ConditionError StatePath :=
  match StatePath.parse (String.ofList cs) with
  | .ok p => .ok p
  | .error cause => .error (.badTerm term cause)

/-- Reads one trimmed term. -/
def Term.read (cs : List Char) : Except ConditionError Term :=
  let term := String.ofList cs
  match cs with
  | [] => .error .emptyTerm
  | '!' :: rest => return .not (← termPath term (trim rest))
  | _ =>
    match splitComparison? [] cs with
    | some (left, op, value) =>
      return .compare (← termPath term (trim left)) op (Operand.ofText (String.ofList (trim value)))
    | none => return .truthy (← termPath term cs)

def readClause (cs : List Char) : Except ConditionError (List Term) :=
  (splitAtDoubled '|' cs).mapM fun piece => Term.read (trim piece)

namespace Condition

/-- Only the pieces of several clauses are trimmed before their terms are cut. -/
def readChars (cs : List Char) : Except ConditionError Condition := do
  match splitAtDoubled '&' cs with
  | [whole] => return ⟨[← readClause whole]⟩
  | pieces => return ⟨← pieces.mapM fun piece => readClause (trim piece)⟩

def read (expression : String) : Except ConditionError Condition :=
  if (trim expression.toList).isEmpty then .error (.notText (.text expression))
  else readChars expression.toList

def ofValue : Value → Except ConditionError Condition
  | .text s => read s
  | v => .error (.notText v)

end Condition

end SurvivalRules
