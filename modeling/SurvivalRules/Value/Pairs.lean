import SurvivalRules.Value.Printer

/-!
# Mappings made from pairs

A list of pairs stands for a mapping. Of equal keys the first keeps its place and form, and the last
value counts.
-/
namespace SurvivalRules

/-- Lists and mappings are no keys. -/
def Key.ofValue : Value → Except Fault String
  | .text s => .ok s
  | .list _ => .error .illTyped
  | .mapping _ => .error .illTyped
  | v => .ok (String.ofList (Key.mark ++ v.describe.toList))

namespace Value

/-- The parts that a value has when it is taken apart. -/
def parts : Value → Except Fault (List Value)
  | .list vs => .ok vs
  | .text s => .ok ((Text.codes s).map fun n => .text (Text.ofCodes [n]))
  | .mapping es => .ok (es.map fun e => Key.toValue e.1)
  | _ => .error .illTyped

/-- Two parts of a value as a key and what it maps to. -/
def pair (v : Value) : Except Fault (String × Value) := do
  match ← v.parts with
  | [k, w] => return (← Key.ofValue k, w)
  | _ => throw .unreadable

/-- Writes pairs one after another. -/
def addPairs (m : Tree) : List Value → Except Fault Tree
  | [] => .ok m
  | v :: rest => do
    let (k, w) ← v.pair
    addPairs (Key.insert k w m) rest

/-- The mapping that a value is or stands for. -/
def asMapping : Value → Except Fault Tree
  | .mapping es => .ok es
  | v => do addPairs [] (← v.parts)

@[simp] theorem asMapping_mapping (es : List (String × Value)) :
    asMapping (.mapping es) = .ok es := rfl

end Value

end SurvivalRules
