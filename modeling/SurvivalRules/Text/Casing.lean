import SurvivalRules.Text.Casing.Table
import SurvivalRules.Text.Ranges

/-!
# Upper, lower and title case

Mappings of whole texts. A capital sigma becomes the final form at the end of a word; every other
character is mapped on its own.
-/
namespace SurvivalRules.Text

def CaseRun.map? (r : CaseRun) (c : Nat) : Option Nat :=
  if r.first ≤ c ∧ c ≤ r.last ∧ (c - r.first) % r.step = 0 then some ((c : Int) + r.delta).toNat
  else none

/-- A character maps to its expansion, else by the run that holds it, else to itself. -/
def mapCase (runs : List CaseRun) (expansions : List (Nat × List Nat)) (c : Char) : List Char :=
  match expansions.lookup c.toNat with
  | some cs => cs.map Char.ofNat
  | none => [((runs.findSome? (·.map? c.toNat)).map Char.ofNat).getD c]

def lowerChar : Char → List Char := mapCase lowerRuns lowerExpansions

def upperChar : Char → List Char := mapCase upperRuns upperExpansions

def titleChar : Char → List Char := mapCase titleRuns titleExpansions

def isCased (c : Char) : Bool := inRanges casedRanges c.toNat

def isCaseIgnorable (c : Char) : Bool := inRanges caseIgnorableRanges c.toNat

def nextIsCased (cs : List Char) : Bool :=
  match cs.dropWhile isCaseIgnorable with
  | [] => false
  | c :: _ => isCased c

def capitalSigma : Char := 'Σ'

/-- Lower case of `c` between the reversed characters before it and the characters after it: sigma is
final after a cased letter and before none. -/
def lowerBetween (before : List Char) (c : Char) (after : List Char) : List Char :=
  if c = capitalSigma then
    (if nextIsCased before && !nextIsCased after then ['ς'] else ['σ'])
  else lowerChar c

def lowerAll (before : List Char) : List Char → List Char
  | [] => []
  | c :: rest => lowerBetween before c rest ++ lowerAll (c :: before) rest

/-- Title case: a letter after a cased character is lowered, any other takes its title form. -/
def titleAll (before : List Char) : List Char → List Char
  | [] => []
  | c :: rest =>
    let mapped := if before.head?.any isCased then lowerBetween before c rest else titleChar c
    mapped ++ titleAll (c :: before) rest

def lower (s : String) : String := String.ofList (lowerAll [] s.toList)

def title (s : String) : String := String.ofList (titleAll [] s.toList)

/-- The text with its first character in upper case. -/
def capitalizeFirst (s : String) : String :=
  match s.toList with
  | [] => ""
  | c :: rest => String.ofList (upperChar c ++ rest)

/-- The text with its first character in lower case. -/
def uncapitalizeFirst (s : String) : String :=
  match s.toList with
  | [] => ""
  | c :: rest => String.ofList (lowerAll [] [c] ++ rest)

end SurvivalRules.Text
