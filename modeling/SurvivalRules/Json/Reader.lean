import SurvivalRules.Json.Outline
import SurvivalRules.Text.Code
import SurvivalRules.Text.Number
import SurvivalRules.Value

/-!
# Reading JSON

Objects keep the order of their keys; of a repeated key the last value counts. A number without point
and exponent is whole, any other is a binary64 number, and the words for not-a-number and the
infinities are read too. Files differ in what else they allow, which their dialect says.
-/
namespace SurvivalRules.Json

open Numeric Text

inductive ReadError where
  | malformed
  /-- A whole number with more digits than are read. -/
  | oversized
  /-- A character that the file may not hold. -/
  | notAdmitted
  /-- A tab where a value or a mark should start, or the end of a document inside a text. -/
  | misplaced
  /-- A key that goes over several lines or is too long. -/
  | strayKey
  /-- A value with too many others around it. -/
  | tooDeep
  deriving DecidableEq, Repr

inductive Dialect where
  /-- Half of a pair may stand alone in a text. -/
  | loose
  /-- Texts go by lines, keys are short, halves stay apart and tabs separate nothing. A number with an
  exponent has to have a point and a signed exponent. Any other such number is a text, and so are the
  words for not-a-number and the infinities. -/
  | outline
  /-- Pairs are whole, and the digits in front of a point have a limit. -/
  | strict
  deriving DecidableEq, Repr

/-- How many values may lie around one that is not empty. -/
def Dialect.depth : Dialect → Nat
  | .loose => 985
  | .outline => 485
  | .strict => 200

def Dialect.isSpace (d : Dialect) (c : Char) : Bool :=
  c = ' ' || (c = '\t' && d ≠ .outline) || c = '\n' || c = '\r'

def skipSpace (d : Dialect) (cs : List Char) : List Char := cs.dropWhile d.isSpace

/-- Why nothing can be read at the start of `cs`. -/
def Dialect.refusal (d : Dialect) (cs : List Char) : ReadError :=
  if d = .outline && cs.head? = some '\t' then .misplaced else .malformed

def hexValue? (c : Char) : Option Nat :=
  if '0' ≤ c ∧ c ≤ '9' then some (c.toNat - 48)
  else if 'a' ≤ c ∧ c ≤ 'f' then some (c.toNat - 87)
  else if 'A' ≤ c ∧ c ≤ 'F' then some (c.toNat - 55)
  else none

def codeUnit? (a b c d : Char) : Option Nat := do
  return (((← hexValue? a) * 16 + (← hexValue? b)) * 16 + (← hexValue? c)) * 16 + (← hexValue? d)

/-- The character that follows a backslash, for the short escapes. -/
def shortEscape? (c : Char) : Option Nat :=
  match c with
  | '"' => some 34
  | '\\' => some 92
  | '/' => some 47
  | 'b' => some 8
  | 'f' => some 12
  | 'n' => some 10
  | 'r' => some 13
  | 't' => some 9
  | _ => none

/-- A text as it is written up to its closing quote, and what follows. -/
def quotedPart : List Char → Option (List Char × List Char)
  | [] => none
  | '"' :: rest => some ([], rest)
  | '\\' :: c :: rest => do
    let (content, tail) ← quotedPart rest
    return ('\\' :: c :: content, tail)
  | c :: rest => do
    let (content, tail) ← quotedPart rest
    return (c :: content, tail)

/-- The codes of a text that is written with escapes, which may give halves of pairs. -/
def codesOfContent : List Char → Option (List Nat)
  | [] => some []
  | '\\' :: 'u' :: a :: b :: c :: d :: rest => do
    return (← codeUnit? a b c d) :: (← codesOfContent rest)
  | '\\' :: c :: rest => do
    return (← shortEscape? c) :: (← codesOfContent rest)
  | c :: rest => do
    return c.toNat :: (← codesOfContent rest)

/-- The text that is written in the given way. -/
def textOfContent (d : Dialect) (content : List Char) : Except ReadError String :=
  if content.any (·.toNat < 32) then .error .malformed
  else
    match d with
    | .loose => finish ((codesOfContent content).map Text.joinPairs)
    | .outline =>
      if Outline.holdsMark content then .error .misplaced
      else finish (codesOfContent (Outline.fold content))
    | .strict =>
      finish (((codesOfContent content).map Text.joinPairs).filter fun ns => !ns.any Text.isHalf)
where
  finish (ns : Option (List Nat)) : Except ReadError String :=
    match ns with
    | some ns => .ok (Text.ofCodes ns)
    | none => .error .malformed

/-- Reads a text behind its opening quote. -/
def readString (d : Dialect) (cs : List Char) : Except ReadError (String × List Char) := do
  match quotedPart cs with
  | none => throw .malformed
  | some (content, tail) => return (← textOfContent d content, tail)

/-- Reads a key behind its opening quote, and the colon after it. -/
def readKey (d : Dialect) (cs : List Char) : Except ReadError (String × List Char) := do
  match quotedPart cs with
  | none => throw .malformed
  | some (content, afterKey) =>
    let key ← textOfContent d content
    match skipSpace d afterKey with
    | ':' :: rest =>
      let written := '"' :: content ++ '"' :: afterKey.takeWhile d.isSpace
      if d = .outline && !Outline.isKey written then throw .strayKey
      return (key, rest)
    | other => throw (d.refusal other)

/-- A number has no superfluous zero in front and a digit on both sides of its point. -/
def readNumber (cs : List Char) : Except ReadError (Value × List Char) :=
  let (negative, body) :=
    match cs with
    | '-' :: rest => (true, rest)
    | _ => (false, cs)
  let (whole, afterWhole) := spanDigits plainDigit? body
  if whole.isEmpty ∨ (whole.head? = some 0 ∧ 1 < whole.length) then .error .malformed
  else
    match splitFraction plainDigit? afterWhole with
    | some ([], _) => .error .malformed
    | fraction =>
      let (decimals, afterFraction) := fraction.getD ([], afterWhole)
      match decimals, splitExponent? plainDigit? afterFraction with
      | [], none =>
        match wholeOfDigits? negative whole with
        | some n => .ok (.int n, afterFraction)
        | none => .error .oversized
      | decimals, exponent =>
        let (exponent, rest) := exponent.getD (0, afterFraction)
        let n : Scanned := ⟨negative, valueOfDigits (whole ++ decimals), exponent - decimals.length⟩
        .ok (.float n.toBinary64, rest)

/-- The words that stand for a value. -/
def words : List (List Char × Value) :=
  [("null".toList, .null), ("true".toList, .bool true), ("false".toList, .bool false)]

/-- The words for the values that have no digits. -/
def specialWords : List (List Char × Value) :=
  [("NaN".toList, .float .nan), ("Infinity".toList, .float (.infinity false)),
    ("-Infinity".toList, .float (.infinity true))]

/-- The rest of `cs` after `word`, if it starts with it. -/
def afterWord? (word cs : List Char) : Option (List Char) :=
  if word.isPrefixOf cs then some (cs.drop word.length) else none

def readWord? (ws : List (List Char × Value)) (cs : List Char) : Option (Value × List Char) :=
  ws.findSome? fun w => (afterWord? w.1 cs).map (w.2, ·)

/-- How many digits stand in front of a point or an exponent. -/
def wholeLength (cs : List Char) : Nat :=
  match cs with
  | '-' :: rest => (spanDigits plainDigit? rest).1.length
  | _ => (spanDigits plainDigit? cs).1.length

/-- A number whose digits before the point are not too many. -/
def readShortNumber (cs : List Char) : Except ReadError (Value × List Char) :=
  if maxWholeDigits < wholeLength cs then .error .malformed else readNumber cs

/-- Whether a number has no exponent, or a point and a signed exponent. -/
def isOutlineNumber (token : List Char) : Bool :=
  match token.dropWhile fun c => c ≠ 'e' && c ≠ 'E' with
  | _ :: sign :: _ => token.contains '.' && (sign = '+' || sign = '-')
  | _ => true

def isNumberChar (c : Char) : Bool := (plainDigit? c).isSome || "+-.eE".toList.contains c

/-- A number of an outline file, or the text that it is. -/
def readOutlineNumber (cs : List Char) : Except ReadError (Value × List Char) :=
  match readNumber cs with
  | .error .malformed => .error (Dialect.outline.refusal cs)
  | .error cause => .error cause
  | .ok (v, rest) =>
    let token := cs.takeWhile isNumberChar
    .ok (if isOutlineNumber token then v else .text (String.ofList token), rest)

/-- The words for not-a-number and the infinities, as texts. -/
def wordTexts : List (List Char × Value) :=
  specialWords.map fun w => (w.1, .text (String.ofList w.1))

def readScalar (d : Dialect) (cs : List Char) : Except ReadError (Value × List Char) :=
  let special := match d with
    | .outline => wordTexts
    | _ => specialWords
  match readWord? (words ++ special) cs, d with
  | some found, _ => .ok found
  | none, .loose => readNumber cs
  | none, .outline => readOutlineNumber cs
  | none, .strict => readShortNumber cs

mutual

/-- `fuel` bounds the number of items and `room` the depth of values that are not empty; the length of
the text suffices as fuel. -/
def readValue (d : Dialect) : Nat → Nat → List Char → Except ReadError (Value × List Char)
  | 0, _, _ => .error .malformed
  | fuel + 1, room, cs =>
    match skipSpace d cs with
    | '\x7b' :: rest =>
      match skipSpace d rest with
      | '\x7d' :: tail => .ok (.mapping [], tail)
      | body => do
        let (entries, tail) ← readEntries d fuel room body
        return (.mapping (OrderedMap.ofList entries), tail)
    | '[' :: rest =>
      match skipSpace d rest with
      | ']' :: tail => .ok (.list [], tail)
      | body => do
        let (items, tail) ← readItems d fuel room body
        return (.list items, tail)
    | '"' :: rest => do
      let (s, tail) ← readString d rest
      return (.text s, tail)
    | body => readScalar d body

def readItems (d : Dialect) : Nat → Nat → List Char → Except ReadError (List Value × List Char)
  | 0, _, _ => .error .malformed
  | _, 0, _ => .error .tooDeep
  | fuel + 1, room + 1, cs => do
    let (v, afterValue) ← readValue d fuel room cs
    match skipSpace d afterValue with
    | ',' :: rest =>
      let (items, tail) ← readItems d fuel (room + 1) rest
      return (v :: items, tail)
    | ']' :: tail => return ([v], tail)
    | other => throw (d.refusal other)

def readEntries (d : Dialect) :
    Nat → Nat → List Char → Except ReadError (List (String × Value) × List Char)
  | 0, _, _ => .error .malformed
  | _, 0, _ => .error .tooDeep
  | fuel + 1, room + 1, cs =>
    match skipSpace d cs with
    | '"' :: body => do
      let (key, afterKey) ← readKey d body
      let (v, afterValue) ← readValue d fuel room afterKey
      match skipSpace d afterValue with
      | ',' :: rest =>
        let (entries, tail) ← readEntries d fuel (room + 1) rest
        return ((key, v) :: entries, tail)
      | '\x7d' :: tail => return ([(key, v)], tail)
      | other => throw (d.refusal other)
    | other => .error (d.refusal other)

end

/-- Reads characters that are one value and nothing else. -/
def readCharacters (d : Dialect) (cs : List Char) : Except ReadError Value :=
  if d = .outline && !cs.all Outline.isAdmitted then .error .notAdmitted
  else
    match readValue d (cs.length + 1) d.depth cs with
    | .error e => .error e
    | .ok (v, rest) =>
      match skipSpace d rest with
      | [] => .ok v
      | other => .error (d.refusal other)

/-- Reads a text that is one value and nothing else. -/
def read (d : Dialect) (s : String) : Except ReadError Value :=
  match Text.characters? s with
  | some cs => readCharacters d cs
  | none => .error .malformed

end SurvivalRules.Json
