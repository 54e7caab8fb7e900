import SurvivalRules.Content.Checked
import SurvivalRules.Text.Number

/-!
# Fields

How the fields of a record are read. Numbers and truth values are also read from texts and from each
other where nothing is lost; texts, lists and mappings are taken only as they are.
-/
namespace SurvivalRules

open Numeric Text

namespace Field

def text : Value → Checked String
  | .text s => .ok s
  | _ => .wrong

/-- Underscores stand one at a time between other characters. -/
def withoutUnderscores? (cs : List Char) : Option (List Char) :=
  let rec paired : List Char → Bool
    | '_' :: '_' :: _ => true
    | _ :: rest => paired rest
    | [] => false
  if cs.head? = some '_' || cs.getLast? = some '_' || !cs.contains '_' || paired cs then none
  else some (cs.filter (· ≠ '_'))

/-- A number in plain digits with margins, or one without margins after its underscores are dropped. -/
def numberOfText? (s : String) : Option Binary64 :=
  match exactNumber? plainDigit? (trimMargins s.toList) with
  | some x => some x
  | none => (withoutUnderscores? s.toList).bind (exactNumber? plainDigit?)

def isSign (c : Char) : Bool := c = '+' || c = '-'

/-- Takes a sign off, which no other sign follows; without one the number is not negative. -/
def withoutSign? (cs : List Char) : Option (Bool × List Char) :=
  let (negative, body) := splitSign cs
  if cs.head?.any isSign && body.head?.any isSign then none else some (negative, body)

/-- Whether a character starts a number after the zeros in front: a minus sign does so too. -/
def startsWhole (c : Char) : Bool := ('1' ≤ c && c ≤ '9') || c = '-'

/-- Drops zeros in front, and underscores between them, up to the start of the number; the last
character before a point or the end stays. -/
def withoutLeadingZeros? : List Char → Option (List Char)
  | [] => none
  | c :: rest =>
    if c = '0' then go c rest
    else if startsWhole c then some (c :: rest)
    else none
where
  go (last : Char) : List Char → Option (List Char)
    | [] => some [last]
    | c :: rest =>
      if c = '0' ∨ c = '_' then go c rest
      else if startsWhole c then some (c :: rest)
      else if c = '.' then some (last :: c :: rest)
      else none

/-- Drops a point with zeros behind it, one at least, and nothing else. -/
def withoutZeroFraction (cs : List Char) : List Char :=
  let front := cs.takeWhile (· ≠ '.')
  let fraction := cs.drop (front.length + 1)
  if !fraction.isEmpty && fraction.all (· = '0') then front else cs

/-- Digits without a superfluous zero in front; a number that is not negative yet can have a minus sign
before them. -/
def plainWhole? (negative : Bool) (cs : List Char) : Option Int :=
  let (negative, body) :=
    match negative, cs with
    | false, '-' :: rest => (true, rest)
    | _, _ => (negative, cs)
  match spanDigits plainDigit? body with
  | (ds, []) => if ds.head? = some 0 ∧ 1 < ds.length then none else wholeOfDigits? negative ds
  | _ => none

/-- A whole number in plain digits with margins, a sign, zeros in front, single underscores and a zero
fraction. -/
def wholeOfText? (s : String) : Option Int := do
  let (negative, body) ← withoutSign? (trimMargins s.toList)
  let digits := withoutZeroFraction (← withoutLeadingZeros? body)
  plainWhole? negative ((withoutUnderscores? digits).getD digits)

def binary64 : Value → Checked Binary64
  | .float x => .ok x
  | .int n =>
    match Binary64.ofInt n with
    | .infinity _ => .wrong
    | x => .ok x
  | .bool b => .ok (if b then Binary64.one else Binary64.zero)
  | .text s =>
    match numberOfText? s with
    | some x => .ok x
    | none => .wrong
  | _ => .wrong

/-- The number `2 ^ 63`, which whole numbers read from binary64 ones stay below. -/
def wholeBound : Nat := 9223372036854775808

/-- The whole number that a binary64 number is, if it is not too large. -/
def wholeOfBinary64? (x : Binary64) : Option Int :=
  match x.toRat? with
  | some q => if q.den = 1 ∧ q.num.natAbs < wholeBound then some q.num else none
  | none => none

def whole : Value → Checked Int
  | .int n => .ok n
  | .bool b => .ok (if b then 1 else 0)
  | .float x =>
    match wholeOfBinary64? x with
    | some n => .ok n
    | none => .wrong
  | .text s =>
    match wholeOfText? s with
    | some n => .ok n
    | none => .wrong
  | _ => .wrong

def trueWords : List String := ["1", "t", "y", "on", "yes", "true"]

def falseWords : List String := ["0", "f", "n", "no", "off", "false"]

/-- One and zero are truth values, and so are the usual words in any case. -/
def truth : Value → Checked Bool
  | .bool b => .ok b
  | .int n => ofWhole n
  | .float x =>
    match wholeOfBinary64? x with
    | some n => ofWhole n
    | none => .wrong
  | .text s =>
    let word := String.ofList (s.toList.map asciiLower)
    if trueWords.contains word then .ok true
    else if falseWords.contains word then .ok false
    else .wrong
  | _ => .wrong
where
  ofWhole (n : Int) : Checked Bool :=
    if n = 0 then .ok false else if n = 1 then .ok true else .wrong

/-- The first of two readings that accepts the value. -/
def orElse {α : Type} (first second : Checked α) : Checked α :=
  match first with
  | .ok a => .ok a
  | .invalid _ => second

/-- A number keeps its kind; anything else is a whole number if it can be. -/
def amount (v : Value) : Checked Amount :=
  match v.amount? with
  | some a => .ok a
  | none => orElse ((whole v).map .int) ((binary64 v).map .float)

/-- A truth value or a number, kept as it is; anything else is the first of these that it can be. -/
def mark (v : Value) : Checked Value :=
  match v with
  | .bool b => .ok (.bool b)
  | .text s => orElse ((truth (.text s)).map .bool) ((amount v).map Value.ofAmount)
  | v => (amount v).map Value.ofAmount

/-- Any value at all. -/
def any : Value → Checked Value := .ok

def nullable {α : Type} (read : Value → Checked α) : Value → Checked (Option α)
  | .null => .ok none
  | v => (read v).map some

def list {α : Type} (read : Value → Checked α) : Value → Checked (List α)
  | .list vs => Checked.items read vs
  | _ => .wrong

/-- A mapping with keys of its own; of two keys that are read alike the later value counts. -/
def mappingBy {κ α : Type} [DecidableEq κ] (readKey : String → Checked κ) (read : Value → Checked α) :
    Value → Checked (OrderedMap κ α)
  | .mapping es => (Checked.entries readKey read es).map OrderedMap.ofList
  | _ => .wrong

def mapping {α : Type} (read : Value → Checked α) : Value → Checked (OrderedMap String α) :=
  mappingBy .ok read

/-- A mapping whose keys are whole numbers. -/
def levels {α : Type} (read : Value → Checked α) : Value → Checked (OrderedMap Int α) :=
  mappingBy (fun k => whole (.text k)) read

/-- One of a few words. -/
def word {α : Type} (meaning : String → Option α) : Value → Checked α
  | .text s =>
    match meaning s with
    | some a => .ok a
    | none => .wrong
  | _ => .wrong

/-- A field that has to be there. -/
def required {α : Type} (record : Tree) (name : String) (read : Value → Checked α) : Checked α :=
  match OrderedMap.get? name record with
  | some v => (read v).under name
  | none => .invalid ⟨[name], []⟩

/-- A field with a value of its own when it is left out. -/
def optional {α : Type} (record : Tree) (name : String) (default : α) (read : Value → Checked α) :
    Checked α :=
  match OrderedMap.get? name record with
  | some v => (read v).under name
  | none => .ok default

/-- Only mappings are records. -/
def record {α : Type} (read : Tree → Checked α) : Value → Checked α
  | .mapping es => read es
  | _ => .wrong

end Field

end SurvivalRules
