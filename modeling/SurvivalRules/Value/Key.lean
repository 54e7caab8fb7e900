import SurvivalRules.Text.Code
import SurvivalRules.Text.Number
import SurvivalRules.Value

/-!
# Keys

The keys of a mapping are texts. A mapping that is made from pairs can also have null, a truth value or
a number for a key, which is then kept as its text behind a mark that starts no text. Such keys are equal
when what they stand for is.
-/
namespace SurvivalRules.Key

/-- The mark in front of a key that is no text: what follows the leading character stands for no code. -/
def mark : List Char := [Text.lead, Char.ofNat 0x10fffe]

/-- The text of a key that is no text. -/
def unnamed? (k : String) : Option String :=
  if mark.isPrefixOf k.toList then some (String.ofList (k.toList.drop mark.length)) else none

/-- What a text behind the mark stands for. -/
def scalarOfText (s : String) : Value :=
  match s with
  | "None" => .null
  | "True" => .bool true
  | "False" => .bool false
  | _ =>
    match Text.readWhole? s, Text.readNumber? s with
    | some n, _ => .int n
    | none, some x => .float x
    | none, none => .text s

/-- What a key stands for. -/
def toValue (k : String) : Value :=
  match unnamed? k with
  | some s => scalarOfText s
  | none => .text k

def isText (k : String) : Bool := (unnamed? k).isNone

/-- A key as it is shown. -/
def shown (k : String) : String := (unnamed? k).getD k

/-- Writes to a key. An equal key keeps its own form. -/
def insert (k : String) (v : Value) : Tree → Tree
  | [] => [(k, v)]
  | (key, w) :: rest =>
    if (toValue key).same (toValue k) then (key, v) :: rest else (key, w) :: insert k v rest

theorem not_mark_of_keptCode {n : Nat} (h : Text.IsCode n) (cs : List Char) :
    mark.isPrefixOf (Text.keptCode n ++ cs) = false := by
  unfold Text.keptCode
  split
  · rename_i hh
    have hn := Text.isHalf_iff.1 hh
    have hne : Char.ofNat 0x10fffe ≠ Char.ofNat (Text.halfOffset + n) := by
      intro he
      have := congrArg Char.toNat he
      rw [Text.toNat_halfOffset_add hh, Text.toNat_ofNat_of_isValidChar (by decide)] at this
      unfold Text.halfOffset at this
      omega
    simp [mark, List.isPrefixOf, hne]
  · split
    · have hne : Char.ofNat 0x10fffe ≠ Text.lead := by decide
      simp [mark, List.isPrefixOf, hne]
    · rename_i hh hl
      have hv : n.isValidChar := h.resolve_right hh
      have hne : Text.lead ≠ Char.ofNat n := fun he => hl (by rw [he, Text.toNat_ofNat_of_isValidChar hv])
      simp [mark, List.isPrefixOf, hne]

/-- A text is no marked key. -/
theorem isText_ofCodes {ns : List Nat} (h : ∀ n ∈ ns, Text.IsCode n) :
    isText (Text.ofCodes ns) = true := by
  cases ns with
  | nil => rfl
  | cons n rest =>
    have hn := h n (by simp)
    have hmark : mark.isPrefixOf (Text.keptCodes (n :: rest)) = false := by
      have hsplit : Text.keptCodes (n :: rest) = Text.keptCode n ++ Text.keptCodes rest := by
        simp [Text.keptCodes]
      rw [hsplit]
      exact not_mark_of_keptCode hn _
    simp [isText, unnamed?, Text.ofCodes, hmark]

theorem unnamed?_ofList_mark (cs : List Char) :
    unnamed? (String.ofList (mark ++ cs)) = some (String.ofList cs) := by
  simp [unnamed?]

theorem toValue_of_isText {k : String} (h : isText k = true) : toValue k = .text k := by
  unfold isText at h
  simp_all [toValue]

theorem shown_of_isText {k : String} (h : isText k = true) : shown k = k := by
  unfold isText at h
  simp_all [shown]

end SurvivalRules.Key
