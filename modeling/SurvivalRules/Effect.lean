import SurvivalRules.Content.Field
import SurvivalRules.Draws
import SurvivalRules.Value.Repetition

/-!
# Effects

An effect entry is a constant, a random range, or one of these behind a chance. Entries are read one by
one when they are needed, and one that cannot be read is the only thing its error concerns.
-/
namespace SurvivalRules

open Text

inductive Constant where
  | truth (b : Bool)
  | amount (a : Amount)
  deriving DecidableEq, Repr

/-- A whole number from `low` to `high`, both ends included. -/
structure RandomRange where
  low : Int
  high : Int
  low_le_high : low ≤ high := by omega
  deriving DecidableEq, Repr

/-- What an entry does once it takes effect. -/
inductive Outcome where
  | constant (c : Constant)
  | range (r : RandomRange)
  deriving DecidableEq, Repr

/-- An outcome as it is written, before a text is read as a range. -/
inductive Token where
  | constant (c : Constant)
  | text (s : String)
  deriving DecidableEq, Repr

/-- An outcome that takes effect with some probability, under a condition, and may be told about. -/
structure Chance where
  probability : Binary64
  value : Token
  condition : Option String
  logMessage : Option String
  triggerEvent : Option String
  deriving DecidableEq, Repr

inductive Effect where
  | sure (outcome : Outcome)
  | chance (c : Chance)
  deriving DecidableEq, Repr

/-- Why an entry cannot be read. A fault is not about the entry alone: it ends what reads the entry. -/
inductive EffectError where
  /-- A text that is no range. -/
  | unreadableToken (s : String)
  | emptyRange (s : String)
  | unsupported (found : Value)
  | invalidChance (cause : Invalid)
  | fault (cause : Fault)
  deriving DecidableEq

def EffectError.message : EffectError → String
  | .unreadableToken s => s!"unparsable effect token '{s}'"
  | .emptyRange s => s!"random range '{s}' has min > max"
  | .unsupported found => "unsupported effect value " ++ found.describe
  | .invalidChance _ => "invalid probability effect"
  | .fault _ => ""

/-- What is told about an entry that is left out. -/
def EffectError.told : EffectError → Except Fault String
  | .fault cause => .error cause
  | e => .ok e.message

def Constant.value : Constant → Value
  | .truth b => .bool b
  | .amount a => Value.ofAmount a

def Token.value : Token → Value
  | .constant c => c.value
  | .text s => .text s

namespace RandomRange

def toText (r : RandomRange) : String :=
  "random(" ++ Numeric.numeral r.low ++ "," ++ Numeric.numeral r.high ++ ")"

/-- How many numbers the range holds. -/
def span (r : RandomRange) : Int := r.high - r.low + 1

/-- The number that a draw selects; a product rounded up to the span selects the last one. -/
def draw (r : RandomRange) (u : Amount) : Except Fault Int := do
  let scaled ← u.mul (.int r.span)
  let k ← scaled.truncate
  return r.low + min k (r.span - 1)

/-- As `draw`, for a draw of any kind. -/
def drawOf (r : RandomRange) (u : Value) : Except Fault Int :=
  match u, u.numeric? with
  | .text s, _ => do
    let k ← Value.wholeOfRepeated s r.span
    return r.low + min k (r.span - 1)
  | .list vs, _ => .error ((Value.repetitionFault? false vs.length r.span).getD .illTyped)
  | _, some a => r.draw a
  | _, none => .error .illTyped

theorem span_pos (r : RandomRange) : 0 < r.span := by
  have := r.low_le_high
  unfold span
  omega

/-- A bound: digits with an optional minus sign in front. -/
def bound? (cs : List Char) : Option (SignedDigits × List Char) :=
  let (negative, body) :=
    match cs with
    | '-' :: rest => (true, rest)
    | _ => (false, cs)
  match spanDigits digitValue? body with
  | ([], _) => none
  | (ds, tail) => some (⟨negative, ds⟩, tail)

/-- Takes one mark off, with blanks in front of it. -/
def mark? (mark : Char) (cs : List Char) : Option (List Char) :=
  match dropBlanks cs with
  | c :: rest => if c = mark then some rest else none
  | [] => none

def keyword : List Char := "random(".toList

/-- The two bounds of a text `random(a,b)`, with blanks anywhere but inside the word and the numbers. -/
def bounds? (s : String) : Option (SignedDigits × SignedDigits) := do
  let cs := dropBlanks s.toList
  if !keyword.isPrefixOf cs then none
  else
    let (lo, afterLo) ← bound? (dropBlanks (cs.drop keyword.length))
    let (hi, afterHi) ← bound? (dropBlanks (← mark? ',' afterLo))
    let rest ← mark? ')' afterHi
    if rest.all isBlank then some (lo, hi) else none

/-- The range of a text. Bounds that are too long to be read are a fault. -/
def ofText (s : String) : Except EffectError RandomRange :=
  match bounds? s with
  | none => .error (.unreadableToken s)
  | some (lo, hi) =>
    match lo.value?, hi.value? with
    | some lo, some hi => if h : lo ≤ hi then .ok ⟨lo, hi, h⟩ else .error (.emptyRange s)
    | _, _ => .error (.fault .tooLong)

end RandomRange

namespace Outcome

def ofToken : Token → Except EffectError Outcome
  | .constant c => .ok (.constant c)
  | .text s => .range <$> RandomRange.ofText s

end Outcome

/-- The token a raw value is. -/
def Token.ofValue? : Value → Option Token
  | .bool b => some (.constant (.truth b))
  | .int n => some (.constant (.amount (.int n)))
  | .float x => some (.constant (.amount (.float x)))
  | .text s => some (.text s)
  | _ => none

/-- A value that is no token is named in its error, so it has to be one that can be written. -/
def Outcome.ofValue (v : Value) : Except EffectError Outcome :=
  match Token.ofValue? v with
  | some t => ofToken t
  | none =>
    match v.described with
    | .ok _ => .error (.unsupported v)
    | .error cause => .error (.fault cause)

namespace Chance

/-- A probability lies between zero and one. -/
def readProbability (v : Value) : Checked Binary64 :=
  (Field.binary64 v).andThen fun x =>
    if Amount.zero.le (.float x) && (Amount.float x).le (.int 1) then .ok x else .wrong

def readToken (v : Value) : Checked Token :=
  match Token.ofValue? v with
  | some t => .ok t
  | none => .wrong

/-- A text among the values has to be a range, though it may be an empty one. -/
def checkValue (c : Chance) : Checked Chance :=
  match c.value with
  | .constant _ => .ok c
  | .text s =>
    if (RandomRange.bounds? s).isSome then .ok c
    else .broken s!"value must be a number, boolean or random(min,max), got '{s}'"

def ofRecord (r : Tree) : Checked Chance :=
  (Chance.mk <$> Field.required r "probability" readProbability
    <*> Field.required r "value" readToken
    <*> Field.optional r "condition" none (Field.nullable Field.text)
    <*> Field.optional r "logMessage" none (Field.nullable Field.text)
    <*> Field.optional r "triggerEvent" none (Field.nullable Field.text)).andThen checkValue

def outcome (c : Chance) : Except EffectError Outcome := Outcome.ofToken c.value

end Chance

/-- A mapping is a chance, and everything else a sure outcome. -/
def Effect.ofValue : Value → Except EffectError Effect
  | .mapping es =>
    match Chance.ofRecord es with
    | .ok c => .ok (.chance c)
    | .invalid e => .error (.invalidChance e)
  | v => .sure <$> Outcome.ofValue v

end SurvivalRules
