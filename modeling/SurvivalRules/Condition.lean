import SurvivalRules.State.Tree
import SurvivalRules.Value.Coercion

/-!
# Conditions

A guard is a conjunction of disjunctions of terms. A term asks whether a place of the state tree
counts as true, whether it does not, or how it compares with a constant.
-/
namespace SurvivalRules

inductive Comparison where
  | atLeast
  | atMost
  | greater
  | less
  | equal
  | unequal
  deriving DecidableEq, Repr

/-- The constant of a comparison. -/
inductive Operand where
  | number (x : Binary64)
  | text (s : String)
  deriving DecidableEq, Repr

inductive Term where
  | truthy (path : StatePath)
  | not (path : StatePath)
  | compare (path : StatePath) (op : Comparison) (right : Operand)
  deriving DecidableEq, Repr

/-- The terms of a clause are alternatives, and every clause has to hold. -/
structure Condition where
  clauses : List (List Term)
  deriving DecidableEq, Repr

def Comparison.symbol : Comparison → String
  | .atLeast => ">="
  | .atMost => "<="
  | .greater => ">"
  | .less => "<"
  | .equal => "=="
  | .unequal => "!="

def Operand.value : Operand → Value
  | .number x => .float x
  | .text s => .text s

/-- The order of two numbers under a comparison; not-a-number satisfies only inequality. -/
def Comparison.holds (op : Comparison) (a b : Amount) : Bool :=
  match op with
  | .atLeast => b.le a
  | .atMost => a.le b
  | .greater => b.lt a
  | .less => a.lt b
  | .equal => a.same b
  | .unequal => !a.same b

namespace Term

def path : Term → StatePath
  | .truthy p => p
  | .not p => p
  | .compare p _ _ => p

/-- Equality is loose; the four orders compare the numbers that both sides stand for. -/
def holdsOf (t : Term) (left : Value) : Except Fault Bool :=
  match t with
  | .truthy _ => .ok left.truthy
  | .not _ => .ok !left.truthy
  | .compare _ .equal right => left.looseEquals right.value
  | .compare _ .unequal right => return !(← left.looseEquals right.value)
  | .compare _ op right => do
    let a ← left.toNumber
    let b ← right.value.toNumber
    return op.holds (.float a) (.float b)

def holds (t : Term) (state : Tree) : Except Fault Bool := t.holdsOf (state.get t.path)

end Term

/-- Alternatives are tried in order up to the first that holds. -/
def clauseHolds (state : Tree) : List Term → Except Fault Bool
  | [] => .ok false
  | t :: rest => do if ← t.holds state then return true else clauseHolds state rest

/-- Clauses are tried in order up to the first that fails. -/
def clausesHold (state : Tree) : List (List Term) → Except Fault Bool
  | [] => .ok true
  | c :: rest => do if ← clauseHolds state c then clausesHold state rest else return false

namespace Condition

def holds (c : Condition) (state : Tree) : Except Fault Bool := clausesHold state c.clauses

/-- The paths a condition reads, in the order in which it is written. -/
def paths (c : Condition) : List StatePath := (c.clauses.flatMap id).map Term.path

end Condition

end SurvivalRules
