/-!
# Splitting texts

Cuts at every occurrence of a separator, from the left. There is always one more piece than there are
separators cut out.
-/
namespace SurvivalRules.Text

/-- Puts a character in front of the first piece. -/
def consPiece (c : Char) : List (List Char) → List (List Char)
  | [] => [[c]]
  | piece :: more => (c :: piece) :: more

def splitAtChar (separator : Char) : List Char → List (List Char)
  | [] => [[]]
  | c :: rest =>
    if c = separator then [] :: splitAtChar separator rest
    else consPiece c (splitAtChar separator rest)

/-- Cuts at two marks in a row that stand between two spaces. -/
def splitAtDoubled (mark : Char) : List Char → List (List Char)
  | [] => [[]]
  | ' ' :: tail@(a :: b :: ' ' :: rest) =>
    if a = mark ∧ b = mark then [] :: splitAtDoubled mark rest
    else consPiece ' ' (splitAtDoubled mark tail)
  | c :: rest => consPiece c (splitAtDoubled mark rest)

/-- The part before the first separator and, if there is one, the part after it. -/
def cutAtChar (separator : Char) : List Char → List Char × Option (List Char)
  | [] => ([], none)
  | c :: rest =>
    if c = separator then ([], some rest)
    else let (front, back) := cutAtChar separator rest; (c :: front, back)

/-- The part after the last separator, or all of it. -/
def lastPiece (separator : Char) (cs : List Char) : List Char :=
  (splitAtChar separator cs).getLastD []

theorem splitAtChar_ne_nil (separator : Char) (cs : List Char) : splitAtChar separator cs ≠ [] := by
  cases cs with
  | nil => simp [splitAtChar]
  | cons c rest =>
    unfold splitAtChar
    split
    · simp
    · unfold consPiece; split <;> simp

end SurvivalRules.Text
