import SurvivalRules.Numeric.Rounding

/-!
# Decimal numerals

Whole numbers written in decimal digits, most significant first.
-/
namespace SurvivalRules.Numeric

def digitChar (d : Nat) : Char := Char.ofNat (48 + d % 10)

/-- The last `count` digits of `n`. -/
def lastDigits : Nat → Nat → List Char
  | 0, _ => []
  | count + 1, n => lastDigits count (n / 10) ++ [digitChar n]

def digits (n : Nat) : List Char := lastDigits (decimalLength n) n

def numeral (n : Int) : String :=
  String.ofList (if n < 0 then '-' :: digits n.natAbs else digits n.natAbs)

/-- Longer whole numbers are neither read nor written. -/
def maxWholeDigits : Nat := 4300

/-- Whether a whole number has no more digits than are written. -/
def isWritable (n : Int) : Bool := decimalLength n.natAbs ≤ maxWholeDigits

def valueOfDigits (ds : List Nat) : Nat := ds.foldl (fun n d => 10 * n + d) 0

end SurvivalRules.Numeric
