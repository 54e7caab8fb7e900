import SurvivalRules.Numeric.Shortest

/-!
# Layouts of numbers

A decimal is written positionally within a window of magnitudes and with an exponent outside it.
-/
namespace SurvivalRules

namespace Numeric

/-- `positionalBelow` is the first decimal exponent written with an exponent; `wholePoint` tells
whether a whole number keeps a point and a zero. -/
structure NumberStyle where
  positionalBelow : Int
  wholePoint : Bool
  deriving DecidableEq, Repr

/-- The full text of a number: positional from `1e-4` up to `1e16`, whole numbers with `.0`. -/
def fullStyle : NumberStyle := ⟨16, true⟩

/-- The brief text: six significant digits, positional from `1e-4` up to `1e6`. -/
def briefStyle : NumberStyle := ⟨6, false⟩

def briefDigits : Nat := 6

def zeros (n : Nat) : List Char := List.replicate n '0'

/-- An exponent has a sign and at least two digits. -/
def exponentText (e : Int) : List Char :=
  let ds := digits e.natAbs
  'e' :: (if e < 0 then '-' else '+') :: (if ds.length < 2 then '0' :: ds else ds)

/-- Digits with a point after the first, then the exponent. -/
def scientific (ds : List Char) (order : Int) : List Char :=
  (match ds with
    | [] => []
    | [d] => [d]
    | d :: rest => d :: '.' :: rest) ++ exponentText order

/-- Digits with the point after the digit of order zero. -/
def positional (style : NumberStyle) (ds : List Char) (order : Int) : List Char :=
  if order < 0 then '0' :: '.' :: zeros (-order - 1).toNat ++ ds
  else
    let whole := order.toNat + 1
    if ds.length ≤ whole then
      ds ++ zeros (whole - ds.length) ++ (if style.wholePoint then ['.', '0'] else [])
    else ds.take whole ++ '.' :: ds.drop whole

/-- The text of a positive decimal without trailing zeros. -/
def layout (style : NumberStyle) (d : Decimal) : List Char :=
  let ds := digits d.coefficient
  let order := d.place + ds.length - 1
  if order < -4 ∨ style.positionalBelow ≤ order then scientific ds order
  else positional style ds order

/-- The text of `n / 10 ^ count` with exactly `count` places. -/
def withPlaces (count n : Nat) : List Char :=
  let ds := digits n
  let padded := zeros (count + 1 - ds.length) ++ ds
  let whole := padded.length - count
  padded.take whole ++ (if count = 0 then [] else '.' :: padded.drop whole)

end Numeric

namespace Binary64

open Numeric

def zeroText (style : NumberStyle) : List Char := if style.wholePoint then ['0', '.', '0'] else ['0']

/-- The unsigned text; `decimal` chooses the digits of a nonzero value. -/
def unsignedText (style : NumberStyle) (decimal : Rat → Decimal) : Binary64 → List Char
  | .nan => "nan".toList
  | .infinity _ => "inf".toList
  | .negativeZero => zeroText style
  | .finite q _ => if q = 0 then zeroText style else layout style (decimal (magnitude q))

def signedText (x : Binary64) (text : List Char) : String :=
  String.ofList (if x.isNegative then '-' :: text else text)

/-- The shortest text that reads back. -/
def toText (x : Binary64) : String :=
  x.signedText (x.unsignedText fullStyle Decimal.shortest)

/-- The text with at most six significant digits. -/
def toBrief (x : Binary64) : String :=
  x.signedText (x.unsignedText briefStyle fun q =>
    (Decimal.significant briefDigits q).stripped (briefDigits + 1))

/-- The text with a fixed number of places; a number that vanishes keeps its sign. -/
def toPlaces (count : Nat) (x : Binary64) : String :=
  x.signedText (match x with
    | .nan => "nan".toList
    | .infinity _ => "inf".toList
    | x => withPlaces count (nearestEven (magnitude (x.toRat?.getD 0) * (10 : Rat) ^ count)).toNat)

/-- As `toPlaces`, with a plus sign where there is no minus sign. -/
def toSignedPlaces (count : Nat) (x : Binary64) : String :=
  if x.isNegative then x.toPlaces count else "+" ++ x.toPlaces count

end Binary64

end SurvivalRules
