import SurvivalRules.State.Tree

/-!
# Deltas

The writes of one action are collected section by section. The first write into a section starts from
the section of the state, so a delta holds whole sections, and merging lays them over the state.
-/
namespace SurvivalRules.Delta

/-- What a write into a section starts from: the delta's section, else the state's, else nothing. -/
def base (delta state : Tree) (name : String) : Tree :=
  match delta.lookup name with
  | .mapping entries => entries
  | _ => (state.lookup name).entries

/-- Records a write. A path of one segment replaces its section as a whole. -/
def set (delta state : Tree) (p : StatePath) (v : Value) : Tree :=
  match p.rest with
  | [] => OrderedMap.insert p.head v delta
  | rest => OrderedMap.insert p.head (.mapping ((base delta state p.head).write v rest)) delta

/-- A mapping is laid over a mapping; in every other case the delta's section replaces the state's. -/
def mergeSection (current value : Value) : Value :=
  match current, value with
  | .mapping es, .mapping fs => .mapping (OrderedMap.overlay es fs)
  | _, v => v

def merge (state delta : Tree) : Tree :=
  delta.foldl (fun t e => OrderedMap.insert e.1 (mergeSection (t.lookup e.1) e.2) t) state

/-- The value of a path while a delta is being collected. -/
def current (delta state : Tree) (p : StatePath) : Value :=
  if OrderedMap.contains p.head delta then Tree.get delta p else Tree.get state p

@[simp] theorem merge_nil (state : Tree) : merge state [] = state := rfl

end SurvivalRules.Delta
