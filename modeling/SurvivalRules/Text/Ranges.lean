/-!
# Sets of code points given by ranges
-/
namespace SurvivalRules.Text

/-- Whether a code point lies in one of the ranges, both ends included. -/
def inRanges (ranges : List (Nat × Nat)) (c : Nat) : Bool :=
  ranges.any fun r => r.1 ≤ c ∧ c ≤ r.2

end SurvivalRules.Text
