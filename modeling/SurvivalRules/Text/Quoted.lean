import SurvivalRules.Numeric.Numeral
import SurvivalRules.Text.Code
import SurvivalRules.Text.Printable

/-!
# Quoted texts

A text is shown between single quotes, or between double quotes if it holds a single quote and no
double one. What cannot be printed is spelled out by its code.
-/
namespace SurvivalRules.Text

def hexDigit (d : Nat) : Char := if d < 10 then Char.ofNat (48 + d) else Char.ofNat (87 + d)

/-- The last `count` hexadecimal digits of `n`. -/
def hexDigits : Nat → Nat → List Char
  | 0, _ => []
  | count + 1, n => hexDigits count (n / 16) ++ [hexDigit (n % 16)]

/-- The shortest of three spellings that can hold the code. -/
def codeEscape (n : Nat) : List Char :=
  if n < 0x100 then '\\' :: 'x' :: hexDigits 2 n
  else if n < 0x10000 then '\\' :: 'u' :: hexDigits 4 n
  else '\\' :: 'U' :: hexDigits 8 n

def quotedCode (quote : Char) (n : Nat) : List Char :=
  let c := Char.ofNat n
  if c = quote ∨ c = '\\' then ['\\', c]
  else if c = '\n' then ['\\', 'n']
  else if c = '\r' then ['\\', 'r']
  else if c = '\t' then ['\\', 't']
  else if !isHalf n && isPrintable c then [c]
  else codeEscape n

def chooseQuote (cs : List Char) : Char :=
  if cs.contains '\'' && !cs.contains '"' then '"' else '\''

def quoted (s : String) : String :=
  let quote := chooseQuote s.toList
  String.ofList (quote :: (codes s).flatMap (quotedCode quote) ++ [quote])

end SurvivalRules.Text
