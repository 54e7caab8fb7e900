/-!
# Traces

Lines that tell what happened, each marked with the tag of its trace.
-/
namespace SurvivalRules

structure Trace where
  tag : String
  lines : List String
  deriving DecidableEq, Repr

namespace Trace

def empty (tag : String) : Trace := ⟨tag, []⟩

def mark (tag line : String) : String := if tag.isEmpty then line else s!"[{tag}] {line}"

def add (t : Trace) (line : String) : Trace := { t with lines := t.lines ++ [mark t.tag line] }

def extend (t : Trace) (lines : List String) : Trace := lines.foldl add t

theorem lines_extend (t : Trace) (lines : List String) :
    (t.extend lines).lines = t.lines ++ lines.map (mark t.tag) := by
  induction lines generalizing t with
  | nil => simp [extend]
  | cons line rest ih =>
    have h : t.extend (line :: rest) = (t.add line).extend rest := rfl
    rw [h, ih]
    simp [add]

end Trace

end SurvivalRules
