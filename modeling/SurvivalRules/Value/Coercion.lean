import SurvivalRules.Text.Number
import SurvivalRules.Value

/-!
# Loose reading of values

Stored values may have any kind. Conditions read them as truth values and as numbers by the rules of
this module.
-/
namespace SurvivalRules.Value

/-- Lists and mappings count as true even when empty, and not-a-number as false. -/
def truthy : Value → Bool
  | .null => false
  | .float x => !x.isNaN && !x.isZero
  | .list _ => true
  | .mapping _ => true
  | v => !v.isVacant

/-- The number a value stands for: a blank text is zero, and what is no number is not-a-number. -/
def toNumber : Value → Except Fault Binary64
  | .bool b => .ok (if b then Binary64.one else Binary64.zero)
  | .int n => (Amount.int n).toBinary64
  | .float x => .ok x
  | .text s =>
    match Text.looseNumber s with
    | .blank => .ok Binary64.zero
    | .number x => .ok x
    | .misplaced => .error .unreadable
    | .other => .ok .nan
  | _ => .ok .nan

/-- Nothing equals a missing value; two texts compare as texts, all else as numbers. -/
def looseEquals (left right : Value) : Except Fault Bool :=
  match left, right with
  | .null, _ => .ok false
  | .text s, .text t => .ok (s = t)
  | left, right => do
    let a ← left.toNumber
    let b ← right.toNumber
    return (Amount.float a).same (.float b)

@[simp] theorem truthy_null : truthy .null = false := rfl

@[simp] theorem truthy_bool (b : Bool) : truthy (.bool b) = b := by cases b <;> rfl

@[simp] theorem toNumber_float (x : Binary64) : toNumber (.float x) = .ok x := rfl

end SurvivalRules.Value
