import SurvivalRules.OrderedMap
import SurvivalRules.Numeric.Amount

/-!
# Values

The loosely typed data that state trees and content records are made of. A mapping keeps the order in
which its keys were written.
-/
namespace SurvivalRules

inductive Value where
  | null
  | bool (b : Bool)
  | int (n : Int)
  | float (x : Binary64)
  | text (s : String)
  | list (items : List Value)
  | mapping (entries : List (String × Value))
  deriving Inhabited

/-- A state tree is a mapping from section names to sections. -/
abbrev Tree := OrderedMap String Value

namespace Value

def ofAmount : Amount → Value
  | .int n => .int n
  | .float x => .float x

/-- Whole and binary64 numbers; truth values are not numbers. -/
def amount? : Value → Option Amount
  | .int n => some (.int n)
  | .float x => some (.float x)
  | _ => none

/-- As `amount?`, with the truth values counted as one and zero. -/
def numeric? : Value → Option Amount
  | .bool b => some (.int (if b then 1 else 0))
  | v => v.amount?

def mapping? : Value → Option Tree
  | .mapping entries => some entries
  | _ => none

def isNumber (v : Value) : Bool := v.amount?.isSome

def isBool : Value → Bool
  | .bool _ => true
  | _ => false

def isNull : Value → Bool
  | .null => true
  | _ => false

/-- Whether a value counts as empty: nothing, false, zero, or no characters, items or entries. -/
def isVacant : Value → Bool
  | .null => true
  | .bool b => !b
  | .int n => n = 0
  | .float x => x.isZero
  | .text s => s.isEmpty
  | .list items => items.isEmpty
  | .mapping entries => entries.isEmpty

mutual

/-- Whether two values are one and the same, down to the kinds of their numbers and the order of their
entries. -/
def identical : Value → Value → Bool
  | .null, .null => true
  | .bool a, .bool b => decide (a = b)
  | .int a, .int b => decide (a = b)
  | .float a, .float b => decide (a = b)
  | .text a, .text b => decide (a = b)
  | .list a, .list b => identicalItems a b
  | .mapping a, .mapping b => identicalEntries a b
  | _, _ => false

def identicalItems : List Value → List Value → Bool
  | [], [] => true
  | v :: vs, w :: ws => identical v w && identicalItems vs ws
  | _, _ => false

def identicalEntries : List (String × Value) → List (String × Value) → Bool
  | [], [] => true
  | (j, v) :: vs, (k, w) :: ws => decide (j = k) && (identical v w && identicalEntries vs ws)
  | _, _ => false

end

mutual

theorem identical_iff : ∀ v w : Value, identical v w = true ↔ v = w
  | .null, w => by cases w <;> simp [identical]
  | .bool a, w => by cases w <;> simp [identical]
  | .int a, w => by cases w <;> simp [identical]
  | .float a, w => by cases w <;> simp [identical]
  | .text a, w => by cases w <;> simp [identical]
  | .list a, w => by cases w <;> simp [identical, identicalItems_iff a]
  | .mapping a, w => by cases w <;> simp [identical, identicalEntries_iff a]

theorem identicalItems_iff : ∀ vs ws : List Value, identicalItems vs ws = true ↔ vs = ws
  | [], ws => by cases ws <;> simp [identicalItems]
  | v :: vs, ws => by cases ws <;> simp [identicalItems, identical_iff v, identicalItems_iff vs]

theorem identicalEntries_iff :
    ∀ vs ws : List (String × Value), identicalEntries vs ws = true ↔ vs = ws
  | [], ws => by cases ws <;> simp [identicalEntries]
  | (j, v) :: vs, ws => by
    cases ws <;> simp [identicalEntries, identical_iff v, identicalEntries_iff vs, Prod.ext_iff,
      and_assoc]

end

instance : DecidableEq Value := fun v w => decidable_of_iff _ (identical_iff v w)

mutual

/-- Equality of contents: numbers and truth values compare by amount, mappings without regard to
order. -/
def same : Value → Value → Bool
  | .null, .null => true
  | .text s, .text t => s = t
  | .list xs, .list ys => sameItems xs ys
  | .mapping es, .mapping fs => es.length = fs.length && sameEntries es fs
  | v, w =>
    match v.numeric?, w.numeric? with
    | some a, some b => a.same b
    | _, _ => false

def sameItems : List Value → List Value → Bool
  | [], [] => true
  | x :: xs, y :: ys => same x y && sameItems xs ys
  | _, _ => false

/-- Every entry has its equal under the same key of `fs`. -/
def sameEntries : List (String × Value) → List (String × Value) → Bool
  | [], _ => true
  | (k, v) :: rest, fs =>
    (match OrderedMap.get? k fs with
      | some w => same v w
      | none => false) && sameEntries rest fs

end

@[simp] theorem amount?_ofAmount (a : Amount) : (ofAmount a).amount? = some a := by
  cases a <;> rfl

@[simp] theorem isVacant_mapping_nil : isVacant (.mapping []) = true := rfl

end Value

end SurvivalRules
