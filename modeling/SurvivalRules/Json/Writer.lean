import SurvivalRules.Text.Quoted
import SurvivalRules.Value

/-!
# Writing JSON

On one line, or with one entry a line and two spaces for each level. Only quotes, backslashes, control
characters and halves of pairs are escaped, and what is no finite number is written as null.
-/
namespace SurvivalRules.Json

def writtenCode (n : Nat) : List Char :=
  match Char.ofNat n with
  | '"' => ['\\', '"']
  | '\\' => ['\\', '\\']
  | '\n' => ['\\', 'n']
  | '\r' => ['\\', 'r']
  | '\t' => ['\\', 't']
  | _ =>
    if n = 8 then ['\\', 'b']
    else if n = 12 then ['\\', 'f']
    else if n < 32 ∨ Text.isHalf n then '\\' :: 'u' :: Text.hexDigits 4 n
    else Text.keptCode n

def writeString (s : String) : String :=
  String.ofList ('"' :: (Text.codes s).flatMap writtenCode ++ ['"'])

mutual

/-- Whether no text in a value holds half of a pair, which a file has no place for. -/
def isStorable : Value → Bool
  | .text s => !Text.hasHalf s
  | .list items => areStorable items
  | .mapping entries => entriesAreStorable entries
  | _ => true

def areStorable : List Value → Bool
  | [] => true
  | v :: rest => isStorable v && areStorable rest

def entriesAreStorable : List (String × Value) → Bool
  | [] => true
  | (k, v) :: rest => !Text.hasHalf k && (isStorable v && entriesAreStorable rest)

end

def writeScalar : Value → String
  | .bool b => if b then "true" else "false"
  | .int n => Numeric.numeral n
  | .float x => if x.toRat?.isSome then x.toText else "null"
  | .text s => writeString s
  | _ => "null"

mutual

def compact : Value → String
  | .list items => "[" ++ compactItems items ++ "]"
  | .mapping entries => "\x7b" ++ compactEntries entries ++ "\x7d"
  | v => writeScalar v

def compactItems : List Value → String
  | [] => ""
  | [v] => compact v
  | v :: rest => compact v ++ "," ++ compactItems rest

def compactEntries : List (String × Value) → String
  | [] => ""
  | [(k, v)] => writeString k ++ ":" ++ compact v
  | (k, v) :: rest => writeString k ++ ":" ++ compact v ++ "," ++ compactEntries rest

end

def lineBreak (level : Nat) : String := String.ofList ('\n' :: List.replicate (2 * level) ' ')

mutual

def pretty (level : Nat) : Value → String
  | .list [] => "[]"
  | .list items => "[" ++ prettyItems (level + 1) items ++ lineBreak level ++ "]"
  | .mapping [] => "\x7b\x7d"
  | .mapping entries => "\x7b" ++ prettyEntries (level + 1) entries ++ lineBreak level ++ "\x7d"
  | v => writeScalar v

def prettyItems (level : Nat) : List Value → String
  | [] => ""
  | [v] => lineBreak level ++ pretty level v
  | v :: rest => lineBreak level ++ pretty level v ++ "," ++ prettyItems level rest

def prettyEntries (level : Nat) : List (String × Value) → String
  | [] => ""
  | [(k, v)] => lineBreak level ++ writeString k ++ ": " ++ pretty level v
  | (k, v) :: rest =>
    lineBreak level ++ writeString k ++ ": " ++ pretty level v ++ "," ++ prettyEntries level rest

end

end SurvivalRules.Json
