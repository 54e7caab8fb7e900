import SurvivalRules.State.Path

/-!
# State trees

Reading walks down the mappings along a path; anything missing on the way reads as null. Writing
replaces what is no mapping on the way by an empty one.
-/
namespace SurvivalRules

/-- Why a place of the state cannot be used. -/
inductive StateError where
  | path (cause : PathError)
  | fault (cause : Fault)
  deriving DecidableEq

namespace Value

def descend : Value → List String → Value
  | v, [] => v
  | .mapping entries, k :: ks =>
    match OrderedMap.get? k entries with
    | some v => v.descend ks
    | none => .null
  | _, _ :: _ => .null

/-- The entries of a mapping; any other value has none. -/
def entries : Value → Tree
  | .mapping es => es
  | _ => []

@[simp] theorem descend_nil (v : Value) : v.descend [] = v := by cases v <;> rfl

end Value

namespace Tree

def lookup (t : Tree) (k : String) : Value := (OrderedMap.get? k t).getD .null

def get (t : Tree) (p : StatePath) : Value := (Value.mapping t).descend p.keys

/-- Writes along keys; without any key there is nothing to write to. -/
def write (t : Tree) (v : Value) : List String → Tree
  | [] => t
  | [k] => OrderedMap.insert k v t
  | k :: ks => OrderedMap.insert k (.mapping (write (t.lookup k).entries v ks)) t

/-- The tree with one place written to directly. -/
def set (t : Tree) (p : StatePath) (v : Value) : Tree := t.write v p.keys

/-- A section as a mapping: what is missing or vacant has no entries, and nothing else is one. -/
def section? (t : Tree) (k : String) : Except Fault Tree :=
  match t.lookup k with
  | .mapping entries => .ok entries
  | v => if v.isVacant then .ok [] else .error .notAMapping

theorem lookup_insert_self (t : Tree) (k : String) (v : Value) :
    Tree.lookup (OrderedMap.insert k v t) k = v := by
  simp [lookup]

theorem lookup_insert_of_ne {k j : String} (h : k ≠ j) (t : Tree) (v : Value) :
    Tree.lookup (OrderedMap.insert k v t) j = t.lookup j := by
  simp [lookup, OrderedMap.get?_insert_of_ne h]

end Tree

end SurvivalRules
