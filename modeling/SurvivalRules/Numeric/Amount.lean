import SurvivalRules.Fault
import SurvivalRules.Numeric.Layout

/-!
# Amounts

A whole number of any size or a binary64 number. Whole numbers stay exact among themselves and are
converted when they meet a binary64 number; comparison is exact in every case.
-/
namespace SurvivalRules

open Numeric

inductive Amount where
  | int (n : Int)
  | float (x : Binary64)
  deriving DecidableEq, Repr

namespace Amount

def zero : Amount := .int 0

/-- A whole number beyond the range of binary64 has no conversion. -/
def toBinary64 : Amount → Except Fault Binary64
  | .float x => .ok x
  | .int n =>
    match Binary64.ofInt n with
    | .infinity _ => .error .outOfRange
    | x => .ok x

def point? : Amount → Option Point
  | .int n => some (.rational n)
  | .float x => x.point?

/-- Not-a-number is below nothing. -/
def lt (a b : Amount) : Bool :=
  match a.point?, b.point? with
  | some p, some q => p.lt q
  | _, _ => false

def le (a b : Amount) : Bool :=
  match a.point?, b.point? with
  | some p, some q => !q.lt p
  | _, _ => false

/-- Numerical equality: not-a-number differs from itself and the two zeros are equal. -/
def same (a b : Amount) : Bool :=
  match a.point?, b.point? with
  | some p, some q => p = q
  | _, _ => false

def isZero (a : Amount) : Bool := a.same zero

/-- Applies a whole-number operation to whole numbers and a binary64 one to all other pairs. -/
def combine (whole : Int → Int → Int) (binary : Binary64 → Binary64 → Binary64) :
    Amount → Amount → Except Fault Amount
  | .int a, .int b => .ok (.int (whole a b))
  | a, b => do
    let x ← a.toBinary64
    let y ← b.toBinary64
    return .float (binary x y)

def add : Amount → Amount → Except Fault Amount := combine (· + ·) Binary64.add

def sub : Amount → Amount → Except Fault Amount := combine (· - ·) Binary64.sub

def mul : Amount → Amount → Except Fault Amount := combine (· * ·) Binary64.mul

/-- Division by a positive whole number; the quotient of two whole numbers is rounded once. -/
def divNat (a : Amount) (n : Nat) : Except Fault Binary64 :=
  match a with
  | .int a =>
    match Binary64.nearest (a / n) with
    | .infinity _ => .error .outOfRange
    | x => .ok x
  | .float x => do return x.div (← (Amount.int n).toBinary64)

/-- Applies a rounding to whole numbers; not-a-number and the infinities have none. -/
def wholePart (round : Rat → Int) : Amount → Except Fault Int
  | .int n => .ok n
  | .float .nan => .error .unreadable
  | .float (.infinity _) => .error .outOfRange
  | .float .negativeZero => .ok (round 0)
  | .float (.finite q _) => .ok (round q)

def floor : Amount → Except Fault Int := wholePart Rat.floor

def truncate : Amount → Except Fault Int := wholePart truncated

/-- The smaller of two; the first where neither is below the other. -/
def min (a b : Amount) : Amount := if b.lt a then b else a

/-- The larger of two; the first where neither is above the other. -/
def max (a b : Amount) : Amount := if a.lt b then b else a

def toText : Amount → String
  | .int n => numeral n
  | .float x => x.toText

/-- The text of an amount, unless it is too long to be written. -/
def written : Amount → Except Fault String
  | .int n => if isWritable n then .ok (numeral n) else .error .tooLong
  | .float x => .ok x.toText

theorem add_int (a b : Int) : add (.int a) (.int b) = .ok (.int (a + b)) := rfl

theorem sub_int (a b : Int) : sub (.int a) (.int b) = .ok (.int (a - b)) := rfl

theorem mul_int (a b : Int) : mul (.int a) (.int b) = .ok (.int (a * b)) := rfl

theorem written_of_isWritable {n : Int} (h : isWritable n = true) :
    (Amount.int n).written = .ok (numeral n) := by
  simp [written, h]

@[simp] theorem floor_int (n : Int) : floor (.int n) = .ok n := rfl

@[simp] theorem truncate_int (n : Int) : truncate (.int n) = .ok n := rfl

end Amount

end SurvivalRules
