import SurvivalRules.Numeric.Binary64
import SurvivalRules.Numeric.Numeral

/-!
# The shortest decimal that reads back

Among the decimals that round to a binary64 value, the one with the fewest digits is taken, and of
those the nearest.
-/
namespace SurvivalRules.Numeric

/-- The number `coefficient * 10 ^ place`. -/
structure Decimal where
  coefficient : Nat
  place : Int
  deriving DecidableEq, Repr

namespace Decimal

def value (d : Decimal) : Rat := (d.coefficient : Rat) * (10 : Rat) ^ d.place

/-- Moves trailing zeros of the coefficient into the place; `fuel` bounds their number. -/
def stripped : Nat → Decimal → Decimal
  | 0, d => d
  | fuel + 1, d =>
    if d.coefficient ≠ 0 ∧ d.coefficient % 10 = 0 then
      stripped fuel ⟨d.coefficient / 10, d.place + 1⟩
    else d

/-- The nearest decimal with `count` significant digits; a carry may leave one zero more. -/
def significant (count : Nat) (q : Rat) : Decimal :=
  let place := decimalOrder q - (count - 1)
  ⟨(nearestEven (magnitude q / (10 : Rat) ^ place)).toNat, place⟩

/-- The other neighbour of `q` among the multiples of the place of `d`. -/
def otherSide (d : Decimal) (q : Rat) : Decimal :=
  if d.value ≤ q then ⟨d.coefficient + 1, d.place⟩ else ⟨d.coefficient - 1, d.place⟩

def readsBack (d : Decimal) (q : Rat) : Bool := (Binary64.nearest d.value).toRat? = some q

/-- The neighbour of `q` with `count` digits that rounds to `q`, the nearer one if both do. -/
def candidate? (q : Rat) (count : Nat) : Option Decimal :=
  let near := significant count q
  if near.readsBack q then some near
  else
    let far := near.otherSide q
    if far.readsBack q then some far else none

/-- Seventeen digits always suffice. -/
def shortest (q : Rat) : Decimal :=
  match (List.range' 1 16).findSome? (candidate? q) with
  | some d => d.stripped 17
  | none => (significant 17 q).stripped 17

end Decimal

end SurvivalRules.Numeric
