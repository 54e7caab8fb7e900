import SurvivalRules.Text.Ranges

/-!
# Texts in outline files

An outline file goes by lines. A text that spans several of them is folded into one line, a key has to
stand on one line with its colon, and some characters are not admitted at all.
-/
namespace SurvivalRules.Json.Outline

def admittedRanges : List (Nat × Nat) :=
  [(0x9, 0xa), (0xd, 0xd), (0x20, 0x7e), (0x85, 0x85), (0xa0, 0xd7ff), (0xe000, 0xfffd),
    (0x10000, 0x10ffff)]

def isAdmitted (c : Char) : Bool := Text.inRanges admittedRanges c.toNat

/-- The next line, as the end of a line that counts as a line feed. -/
def nextLine : Char := Char.ofNat 0x85

/-- The characters that end a line. -/
def isBreak (c : Char) : Bool :=
  c = '\n' || c = '\r' || c = nextLine || c.toNat = 0x2028 || c.toNat = 0x2029

/-- What stays of a run of blanks with breaks: a single line feed becomes a space, of several the first
goes, and the blanks around them go too. -/
def foldedGap (gap : List Char) : List Char :=
  match (gap.filter isBreak).map fun c => if c = nextLine then '\n' else c with
  | [] => gap
  | [b] => if b = '\n' then [' '] else [b]
  | b :: more => if b = '\n' then more else b :: more

/-- Folds a text; `gap` is the run of blanks and breaks before `cs`, the last one first. -/
def foldAfter (gap : List Char) : List Char → List Char
  | [] => foldedGap gap.reverse
  | c :: rest =>
    if c = ' ' || isBreak c then foldAfter (c :: gap) rest
    else foldedGap gap.reverse ++ c :: foldAfter [] rest

def fold (cs : List Char) : List Char := foldAfter [] cs

/-- Three hyphens or points with a blank behind them, which end a document at the start of a line. -/
def startsWithMark : List Char → Bool
  | a :: b :: c :: d :: _ => (a = '-' || a = '.') && b = a && c = a && (d = ' ' || isBreak d)
  | _ => false

def holdsMark : List Char → Bool
  | [] => false
  | c :: rest => (isBreak c && startsWithMark rest) || holdsMark rest

/-- How far a colon may be from the start of its key. -/
def maxKeyLength : Nat := 1024

/-- Whether a key, as it is written with all in front of its colon, can be told to be a key. -/
def isKey (written : List Char) : Bool := written.length ≤ maxKeyLength && !written.any isBreak

theorem foldAfter_of_not_break {cs : List Char} (h : ∀ c ∈ cs, isBreak c = false) (gap : List Char)
    (hgap : ∀ c ∈ gap, isBreak c = false) : foldAfter gap cs = gap.reverse ++ cs := by
  have hkeep : ∀ run : List Char, (∀ c ∈ run, isBreak c = false) → foldedGap run.reverse = run.reverse := by
    intro run hrun
    have hnone : run.reverse.filter isBreak = [] := by
      simpa [List.filter_eq_nil_iff] using hrun
    simp [foldedGap, hnone]
  induction cs generalizing gap with
  | nil => simp [foldAfter, hkeep gap hgap]
  | cons c rest ih =>
    have hrest : ∀ d ∈ rest, isBreak d = false := fun d hd => h d (by simp [hd])
    have hc : isBreak c = false := h c (by simp)
    unfold foldAfter
    split
    · rw [ih hrest (c :: gap) (by simpa [hc] using hgap)]
      simp
    · rw [ih hrest [] (by simp), hkeep gap hgap]
      simp

/-- A text without breaks stays as it is. -/
theorem fold_of_not_break {cs : List Char} (h : ∀ c ∈ cs, isBreak c = false) : fold cs = cs := by
  simpa [fold] using foldAfter_of_not_break h [] (by simp)

end SurvivalRules.Json.Outline
