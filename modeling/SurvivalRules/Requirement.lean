import SurvivalRules.State.Tree
import SurvivalRules.Value.Coercion

/-!
# Requirements

A requirement block maps paths to expected values. A truth value and a number are expected exactly, a
text `>=N` asks for at least `N`, and anything else has to be equal.
-/
namespace SurvivalRules

open Text

namespace Requirement

/-- The fraction digits after a point; a point without digits is not part of the bound. -/
def boundFraction (cs : List Char) : List Nat × List Char :=
  match splitFraction digitValue? cs with
  | some ([], _) => ([], cs)
  | some found => found
  | none => ([], cs)

/-- The bound of a text `>=N`, where `N` may be negative and have a fraction but no exponent. -/
def atLeast? (s : String) : Option Binary64 :=
  match dropBlanks s.toList with
  | '>' :: '=' :: rest =>
    let (negative, body) :=
      match dropBlanks rest with
      | '-' :: body => (true, body)
      | body => (false, body)
    let (whole, afterWhole) := spanDigits digitValue? body
    let (fraction, tail) := boundFraction afterWhole
    if whole.isEmpty || !tail.all isBlank then none
    else
      let n : Scanned :=
        ⟨negative, Numeric.valueOfDigits (whole ++ fraction), -(fraction.length : Int)⟩
      some n.toBinary64
  | _ => none

/-- A missing value counts as zero where an amount is expected. -/
def orZero (v : Value) : Value := if v.isNull then .int 0 else v

/-- One requirement against the value that is there. -/
def holdsOf (expected current : Value) : Except Fault Bool :=
  match expected with
  | .bool b =>
    match current with
    | .bool c => .ok (b = c)
    | _ => .ok false
  | .text s =>
    match atLeast? s with
    | some bound => do
      let held ← (orZero current).toNumber
      return (Amount.float bound).le (.float held)
    | none => .ok (current.same expected)
  | expected =>
    if expected.isNumber then .ok (!current.isBool && (orZero current).same expected)
    else .ok (current.same expected)

def holds (path : String) (expected : Value) (state : Tree) : Except StateError Bool :=
  match StatePath.parse path with
  | .error cause => .error (.path cause)
  | .ok p =>
    match holdsOf expected (state.get p) with
    | .error cause => .error (.fault cause)
    | .ok b => .ok b

/-- All entries hold; they are tried in order up to the first that fails. -/
def allHold (state : Tree) : Tree → Except StateError Bool
  | [] => .ok true
  | (path, expected) :: rest => do
    if ← holds path expected state then allHold state rest else return false

def describeCurrent (v : Value) : Except Fault String :=
  if v.isNull then .ok "unset" else v.described

/-- The value at a path; a malformed path has none. -/
def currentValue (path : String) (state : Tree) : Value :=
  match StatePath.parse path with
  | .ok p => state.get p
  | .error _ => .null

def failureText (path : String) (expected : Value) (state : Tree) : Except Fault String := do
  return path ++ " must be " ++ (← expected.described) ++ " (is " ++
    (← describeCurrent (currentValue path state)) ++ ")"

/-- Whether an entry holds; one with a malformed path does not. -/
def met (path : String) (expected : Value) (state : Tree) : Except Fault Bool :=
  match holds path expected state with
  | .ok b => .ok b
  | .error (.path _) => .ok false
  | .error (.fault cause) => .error cause

/-- A line for each entry that does not hold. -/
def failures (state : Tree) : Tree → Except Fault (List String)
  | [] => .ok []
  | (path, expected) :: rest => do
    if ← met path expected state then failures state rest
    else
      let line ← failureText path expected state
      return line :: (← failures state rest)

end Requirement

end SurvivalRules
