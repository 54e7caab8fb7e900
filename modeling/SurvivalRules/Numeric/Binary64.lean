import SurvivalRules.Numeric.Rounding

/-!
# Binary64 numbers

A finite number is its exact rational value together with the reason why the format can hold it, so
every operation is the exact operation followed by one rounding.
-/
namespace SurvivalRules

open Numeric

/-- The number `2 ^ 53`; a significand has 53 bits. -/
def significandBound : Nat := 9007199254740992

/-- At most 53 significant bits, none of them below `2 ^ -1074`, and a magnitude below `2 ^ 1024`. -/
def OnGrid (q : Rat) : Prop :=
  magnitude q < (2 : Rat) ^ (1024 : Int) ∧
    ∃ m e : Int, m.natAbs ≤ significandBound ∧ -1074 ≤ e ∧ q = (m : Rat) * (2 : Rat) ^ e

theorem OnGrid.neg {q : Rat} (h : OnGrid q) : OnGrid (-q) := by
  obtain ⟨hlt, m, e, hm, he, hq⟩ := h
  refine ⟨?_, -m, e, by omega, he, by rw [hq, Rat.intCast_neg, Rat.neg_mul]⟩
  have : magnitude (-q) = magnitude q := by unfold magnitude; grind
  rw [this]
  exact hlt

/-- Negative zero is the one number that its rational value does not determine. -/
inductive Binary64 where
  | nan
  | infinity (negative : Bool)
  | negativeZero
  | finite (value : Rat) (onGrid : OnGrid value)
  deriving DecidableEq, Repr

/-- A place on the number line with both ends added. -/
inductive Point where
  | bottom
  | rational (q : Rat)
  | top
  deriving DecidableEq, Repr

def Point.lt : Point → Point → Bool
  | .bottom, .bottom => false
  | .bottom, _ => true
  | _, .bottom => false
  | .rational p, .rational q => decide (p < q)
  | .rational _, .top => true
  | .top, _ => false

namespace Binary64

/-- The exponent of the last place kept when `q` is rounded. -/
def lastPlace (q : Rat) : Int := max (binaryOrder q - 52) (-1074)

theorem nearestEven_lastPlace_le (q : Rat) :
    (nearestEven (q / (2 : Rat) ^ lastPlace q)).natAbs ≤ significandBound := by
  have hpos : (0 : Rat) < (2 : Rat) ^ lastPlace q := Rat.zpow_pos (by decide)
  have hq := magnitude_lt_two_pow q
  have hstep : (2 : Rat) ^ (binaryOrder q + 1) ≤ (2 : Rat) ^ (53 : Int) * (2 : Rat) ^ lastPlace q := by
    rw [← Rat.zpow_add (by decide)]
    have hle : binaryOrder q + 1 ≤ 53 + lastPlace q := by unfold lastPlace; omega
    obtain ⟨k, hk⟩ := Int.le.dest hle
    rw [← hk, Rat.zpow_add (by decide) (binaryOrder q + 1) (k : Int), Rat.zpow_natCast]
    have hone : (1 : Rat) ≤ (2 : Rat) ^ k := by
      have : ((1 : Nat) : Rat) ≤ ((2 ^ k : Nat) : Rat) := Rat.natCast_le_natCast.2 Nat.one_le_two_pow
      simpa using this
    have hp : (0 : Rat) ≤ (2 : Rat) ^ (binaryOrder q + 1) := Rat.le_of_lt (Rat.zpow_pos (by decide))
    have := Rat.mul_le_mul_of_nonneg_left hone hp
    grind
  have habs : magnitude q ≤ (2 : Rat) ^ (53 : Int) * (2 : Rat) ^ lastPlace q := by grind
  have hup : q / (2 : Rat) ^ lastPlace q ≤ ((9007199254740992 : Int) : Rat) := by
    apply Rat.le_of_mul_le_mul_right (c := (2 : Rat) ^ lastPlace q) _ hpos
    rw [Rat.div_mul_cancel (by grind)]
    unfold magnitude at habs
    have hc : ((9007199254740992 : Int) : Rat) = (2 : Rat) ^ (53 : Int) := by decide +kernel
    rw [hc]
    split at habs <;> grind
  have hdown : ((-9007199254740992 : Int) : Rat) ≤ q / (2 : Rat) ^ lastPlace q := by
    apply Rat.le_of_mul_le_mul_right (c := (2 : Rat) ^ lastPlace q) _ hpos
    rw [Rat.div_mul_cancel (by grind)]
    unfold magnitude at habs
    have hc : ((-9007199254740992 : Int) : Rat) = -(2 : Rat) ^ (53 : Int) := by decide +kernel
    rw [hc]
    split at habs <;> grind
  have h1 := nearestEven_le hup
  have h2 := le_nearestEven hdown
  unfold significandBound
  omega

/-- The value of the format nearest to `q`, before the range is checked. -/
def roundedValue (q : Rat) : Rat :=
  (nearestEven (q / (2 : Rat) ^ lastPlace q) : Rat) * (2 : Rat) ^ lastPlace q

theorem onGrid_roundedValue {q : Rat} (h : magnitude (roundedValue q) < (2 : Rat) ^ (1024 : Int)) :
    OnGrid (roundedValue q) :=
  ⟨h, _, _, nearestEven_lastPlace_le q, by unfold lastPlace; omega, rfl⟩

def zero : Binary64 := .finite 0 ⟨by decide +kernel, 0, 0, by decide, by decide, by decide +kernel⟩

def signedZero (negative : Bool) : Binary64 := if negative then .negativeZero else zero

/-- Correct rounding of an exact result: ties go to even, a result beyond the range is infinite, and
a negative one that vanishes keeps its sign. -/
def nearest (q : Rat) : Binary64 :=
  let r := roundedValue q
  if r = 0 then signedZero (q < 0)
  else if h : magnitude r < (2 : Rat) ^ (1024 : Int) then .finite r (onGrid_roundedValue h)
  else .infinity (q < 0)

def ofInt (n : Int) : Binary64 := nearest n

def one : Binary64 := ofInt 1

def isNaN : Binary64 → Bool
  | .nan => true
  | _ => false

/-- Whether the sign bit is set; not-a-number counts as positive. -/
def isNegative : Binary64 → Bool
  | .nan => false
  | .infinity negative => negative
  | .negativeZero => true
  | .finite q _ => q < 0

def isZero : Binary64 → Bool
  | .negativeZero => true
  | .finite q _ => q = 0
  | _ => false

/-- The rational value; not-a-number and the infinities have none. -/
def toRat? : Binary64 → Option Rat
  | .nan => none
  | .infinity _ => none
  | .negativeZero => some 0
  | .finite q _ => some q

/-- The place on the number line; only not-a-number has none. -/
def point? : Binary64 → Option Point
  | .nan => none
  | .infinity true => some .bottom
  | .infinity false => some .top
  | .negativeZero => some (.rational 0)
  | .finite q _ => some (.rational q)

def neg : Binary64 → Binary64
  | .nan => .nan
  | .infinity negative => .infinity !negative
  | .negativeZero => zero
  | .finite q h => if q = 0 then .negativeZero else .finite (-q) h.neg

/-- Opposite infinities have no sum, and a vanishing sum is negative only for two negative zeros. -/
def add (x y : Binary64) : Binary64 :=
  match x, y with
  | .nan, _ => .nan
  | _, .nan => .nan
  | .infinity a, .infinity b => if a = b then .infinity a else .nan
  | .infinity a, _ => .infinity a
  | _, .infinity b => .infinity b
  | .negativeZero, .negativeZero => .negativeZero
  | x, y => nearest (x.toRat?.getD 0 + y.toRat?.getD 0)

def sub (x y : Binary64) : Binary64 := add x (neg y)

/-- The sign of a product is the product of the signs; an infinity times zero has no value. -/
def mul (x y : Binary64) : Binary64 :=
  let negative := x.isNegative != y.isNegative
  match x, y with
  | .nan, _ => .nan
  | _, .nan => .nan
  | .infinity _, y => if y.isZero then .nan else .infinity negative
  | x, .infinity _ => if x.isZero then .nan else .infinity negative
  | x, y =>
    let q := x.toRat?.getD 0 * y.toRat?.getD 0
    if q = 0 then signedZero negative else nearest q

/-- Division follows the sign rule of `mul`; by zero it is infinite, and zero by zero has no value. -/
def div (x y : Binary64) : Binary64 :=
  let negative := x.isNegative != y.isNegative
  match x, y with
  | .nan, _ => .nan
  | _, .nan => .nan
  | .infinity _, .infinity _ => .nan
  | .infinity _, _ => .infinity negative
  | _, .infinity _ => signedZero negative
  | x, y =>
    if y.isZero then (if x.isZero then .nan else .infinity negative)
    else
      let q := x.toRat?.getD 0 / y.toRat?.getD 0
      if q = 0 then signedZero negative else nearest q

end Binary64

end SurvivalRules
