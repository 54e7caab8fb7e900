import SurvivalRules.Numeric.Binary64
import SurvivalRules.Numeric.Numeral
import SurvivalRules.Text.Blank
import SurvivalRules.Text.DecimalDigit

/-!
# Numbers in texts

A number is an optional sign, digits with an optional point, and an optional exponent. The callers
choose which digits count and what may stand around the number.
-/
namespace SurvivalRules.Text

open Numeric

/-- The digits of one script only. -/
def plainDigit? (c : Char) : Option Nat :=
  if '0' ≤ c ∧ c ≤ '9' then some (c.toNat - 48) else none

/-- The values of the leading digits and the rest. -/
def spanDigits (digit : Char → Option Nat) : List Char → List Nat × List Char
  | [] => ([], [])
  | c :: rest =>
    match digit c with
    | none => ([], c :: rest)
    | some d => let (ds, tail) := spanDigits digit rest; (d :: ds, tail)

/-- Takes a sign off; without one the number is not negative. -/
def splitSign : List Char → Bool × List Char
  | '+' :: rest => (false, rest)
  | '-' :: rest => (true, rest)
  | cs => (false, cs)

/-- The exponent after the digits; an `e` without digits behind it is not part of the number. -/
def splitExponent? (digit : Char → Option Nat) : List Char → Option (Int × List Char)
  | c :: rest =>
    if c = 'e' ∨ c = 'E' then
      let (negative, body) := splitSign rest
      match spanDigits digit body with
      | ([], _) => none
      | (ds, tail) => some (if negative then -(valueOfDigits ds : Int) else valueOfDigits ds, tail)
    else none
  | [] => none

/-- The fraction digits after a point. -/
def splitFraction (digit : Char → Option Nat) : List Char → Option (List Nat × List Char)
  | '.' :: rest => some (spanDigits digit rest)
  | _ => none

/-- A number before rounding: `coefficient * 10 ^ place` and its sign. -/
structure Scanned where
  negative : Bool
  coefficient : Nat
  place : Int
  deriving DecidableEq, Repr

/-- The longest number at the start of `cs` and what follows it. -/
def scanNumber (digit : Char → Option Nat) (cs : List Char) : Option (Scanned × List Char) :=
  let (negative, body) := splitSign cs
  let (whole, afterWhole) := spanDigits digit body
  let (fraction, afterFraction) := (splitFraction digit afterWhole).getD ([], afterWhole)
  if whole.isEmpty ∧ fraction.isEmpty then none
  else
    let (exponent, rest) := (splitExponent? digit afterFraction).getD (0, afterFraction)
    some (⟨negative, valueOfDigits (whole ++ fraction), exponent - fraction.length⟩, rest)

/-- A magnitude of `10 ^ 310` is infinite and one below `10 ^ -330` vanishes, whatever the digits. -/
def Scanned.toBinary64 (n : Scanned) : Binary64 :=
  if n.coefficient = 0 then Binary64.signedZero n.negative
  else
    let order := n.place + decimalLength n.coefficient
    if 310 < order then .infinity n.negative
    else if order < -330 then Binary64.signedZero n.negative
    else
      let q := (n.coefficient : Rat) * (10 : Rat) ^ n.place
      Binary64.nearest (if n.negative then -q else q)

/-- A blank that may surround a number. -/
def isMargin (c : Char) : Bool := isBlank c && !isSeparator c

def trimMargins (cs : List Char) : List Char :=
  ((cs.dropWhile isMargin).reverse.dropWhile isMargin).reverse

/-- Drops underscores; each has to stand between two digits. -/
def dropUnderscores (digit : Char → Option Nat) (previous : Option Char) :
    List Char → Option (List Char)
  | [] => some []
  | '_' :: rest =>
    match previous.bind digit, rest.head?.bind digit with
    | some _, some _ => dropUnderscores digit (some '_') rest
    | _, _ => none
  | c :: rest => (dropUnderscores digit (some c) rest).map (c :: ·)

def asciiLower (c : Char) : Char := if 'A' ≤ c ∧ c ≤ 'Z' then Char.ofNat (c.toNat + 32) else c

/-- The words for the values that have no digits. -/
def specialNumber? (cs : List Char) : Option Binary64 :=
  let (negative, body) := splitSign cs
  let word := String.ofList (body.map asciiLower)
  if word = "inf" ∨ word = "infinity" then some (.infinity negative)
  else if word = "nan" then some .nan
  else none

/-- A whole text that is a number or a special word. -/
def exactNumber? (digit : Char → Option Nat) (cs : List Char) : Option Binary64 :=
  match specialNumber? cs with
  | some x => some x
  | none =>
    match scanNumber digit cs with
    | some (n, []) => some n.toBinary64
    | _ => none

/-- A number of any script with margins, underscores between digits, and the special words. -/
def readNumber? (s : String) : Option Binary64 :=
  (dropUnderscores digitValue? none (trimMargins s.toList)).bind (exactNumber? digitValue?)

def wholeOfDigits? (negative : Bool) (ds : List Nat) : Option Int :=
  if ds.isEmpty ∨ maxWholeDigits < ds.length then none
  else some (if negative then -(valueOfDigits ds : Int) else valueOfDigits ds)

/-- A whole number as it is written. -/
structure SignedDigits where
  negative : Bool
  digits : List Nat
  deriving DecidableEq, Repr

def SignedDigits.value? (n : SignedDigits) : Option Int := wholeOfDigits? n.negative n.digits

/-- A whole number of any script with margins, a sign and underscores between digits. -/
def readWhole? (s : String) : Option Int :=
  let (negative, body) := splitSign (trimMargins s.toList)
  match dropUnderscores digitValue? none body with
  | none => none
  | some cs =>
    match spanDigits digitValue? cs with
    | (ds, []) => wholeOfDigits? negative ds
    | _ => none

/-- What a text says as a loose number. -/
inductive LooseNumber where
  | blank
  | number (x : Binary64)
  /-- The form of a number, but with a separator beside it. -/
  | misplaced
  | other

/-- A number in digits between blanks; special words and underscores are not numbers here. -/
def looseNumber (s : String) : LooseNumber :=
  let body := dropBlanks s.toList
  if body.isEmpty then .blank
  else
    match scanNumber digitValue? body with
    | none => .other
    | some (n, rest) =>
      if rest.all isBlank then
        (if (s.toList.takeWhile isBlank ++ rest).any isSeparator then .misplaced
        else .number n.toBinary64)
      else .other

theorem spanDigits_nil (digit : Char → Option Nat) : spanDigits digit [] = ([], []) := rfl

theorem spanDigits_length_le (digit : Char → Option Nat) (cs : List Char) :
    (spanDigits digit cs).2.length ≤ cs.length := by
  induction cs with
  | nil => simp [spanDigits]
  | cons c rest ih =>
    unfold spanDigits
    cases digit c with
    | none => simp
    | some d => simp only [List.length_cons]; omega

end SurvivalRules.Text
