/-!
# Faults of values

State trees are loosely typed, so a rule can meet a value it cannot use. The causes are few.
-/
namespace SurvivalRules

inductive Fault where
  /-- A value of a kind that the operation does not take. -/
  | illTyped
  /-- A lookup in a value that has no entries. -/
  | notAMapping
  /-- A number beyond the range of binary64. -/
  | outOfRange
  /-- A text or number that stands for no value of the wanted kind. -/
  | unreadable
  /-- A whole number with more digits than are read or written. -/
  | tooLong
  /-- A text or list that is too large to be held. -/
  | tooLarge
  deriving DecidableEq, Repr

end SurvivalRules
