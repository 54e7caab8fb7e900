import SurvivalRules.Fault
import SurvivalRules.Text.Code
import SurvivalRules.Text.Number
import SurvivalRules.Value

/-!
# Repeated values

A text or list is taken a whole number of times, and none at all if the number is negative, as long as
the result can be held. Only a text can still be of use as a number then.
-/
namespace SurvivalRules.Value

/-- The most that anything is repeated. -/
def maxRepeats : Nat := 9223372036854775807

/-- How many parts a text or list can have. -/
def maxParts : Nat := 1099511627776

/-- What keeps `length` parts from being taken `times` times. -/
def repetitionFault? (isText : Bool) (length : Nat) (times : Int) : Option Fault :=
  let parts := length * times.toNat
  if times + maxRepeats < -1 ∨ maxRepeats < times then some .outOfRange
  else if parts ≤ maxParts then none
  else if isText && maxRepeats < parts then some .outOfRange
  else some .tooLarge

/-- A repeated text that is longer is no whole number, with an underscore between any two digits. -/
def maxNumeralLength : Nat := 2 * Numeric.maxWholeDigits

/-- The whole number that a text reads as when it is repeated. -/
def wholeOfRepeated (s : String) (times : Int) : Except Fault Int :=
  let length := (Text.codes s).length
  match repetitionFault? true length times with
  | some cause => .error cause
  | none =>
    if times = 1 then whole s
    else if length = 0 ∨ maxNumeralLength < length * times.toNat then .error .unreadable
    else whole (String.ofList (List.replicate times.toNat s.toList).flatten)
where
  whole (s : String) : Except Fault Int :=
    match Text.readWhole? s with
    | some n => .ok n
    | none => .error .unreadable

theorem repetitionFault?_of_nonpos (isText : Bool) (length : Nat) {times : Int} (hneg : times ≤ 0)
    (hlow : -1 ≤ times + maxRepeats) : repetitionFault? isText length times = none := by
  have hzero : times.toNat = 0 := Int.toNat_of_nonpos hneg
  have hhigh : ¬ (times + maxRepeats < -1 ∨ (maxRepeats : Int) < times) := by omega
  simp [repetitionFault?, hzero, hhigh]

end SurvivalRules.Value
