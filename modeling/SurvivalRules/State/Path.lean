import SurvivalRules.Text.Split
import SurvivalRules.Value.Printer

/-!
# State paths

A path names a place in the state tree by dot-separated segments; its first segment is the section.
-/
namespace SurvivalRules

/-- The sections with a meaning of their own; any other first segment belongs to `other`. -/
inductive Section where
  | resources
  | buildings
  | tools
  | weapons
  | clothing
  | relics
  | blessings
  | stats
  | flags
  | story
  | cooldowns
  | cooldownDurations
  | other
  deriving DecidableEq, Repr

namespace Section

def name : Section → String
  | .resources => "resources"
  | .buildings => "buildings"
  | .tools => "tools"
  | .weapons => "weapons"
  | .clothing => "clothing"
  | .relics => "relics"
  | .blessings => "blessings"
  | .stats => "stats"
  | .flags => "flags"
  | .story => "story"
  | .cooldowns => "cooldowns"
  | .cooldownDurations => "cooldownDurations"
  | .other => "other"

def named : List Section :=
  [.resources, .buildings, .tools, .weapons, .clothing, .relics, .blessings, .stats, .flags, .story,
    .cooldowns, .cooldownDurations]

def ofName (s : String) : Section := (named.find? (·.name = s)).getD .other

end Section

/-- A parsed path has at least one segment. -/
structure StatePath where
  raw : String
  head : String
  rest : List String
  deriving DecidableEq, Repr

inductive PathError where
  /-- No text, or an empty one. -/
  | notText (found : Value)
  | badSegment (raw segment : String)
  deriving DecidableEq

def PathError.message : PathError → String
  | .notText found => "state path must be a non-empty string, got " ++ found.describe
  | .badSegment raw segment => s!"invalid state path '{raw}' (bad segment '{segment}')"

namespace StatePath

def isPathChar (c : Char) : Bool :=
  ('A' ≤ c ∧ c ≤ 'Z') || ('a' ≤ c ∧ c ≤ 'z') || ('0' ≤ c ∧ c ≤ '9') ||
    c = '_' || c = '-' || c = '$'

/-- Path characters, at least one, and possibly one line end behind them. -/
def isSegment (cs : List Char) : Bool :=
  let body := if cs.getLast? = some '\n' then cs.dropLast else cs
  !body.isEmpty && body.all isPathChar

def segments (raw : String) : List (List Char) := Text.splitAtChar '.' raw.toList

/-- The first segment that is none decides the error. -/
def parse (raw : String) : Except PathError StatePath :=
  if raw.isEmpty then .error (.notText (.text raw))
  else
    match (segments raw).find? (!isSegment ·) with
    | some bad => .error (.badSegment raw (String.ofList bad))
    | none =>
      match (segments raw).map String.ofList with
      | [] => .error (.notText (.text raw))
      | head :: rest => .ok ⟨raw, head, rest⟩

/-- Only texts are paths. -/
def ofValue : Value → Except PathError StatePath
  | .text s => parse s
  | v => .error (.notText v)

def keys (p : StatePath) : List String := p.head :: p.rest

def leaf (p : StatePath) : String := p.keys.getLastD p.head

def area (p : StatePath) : Section := Section.ofName p.head

/-- Only resource counters add to the value that is there; every other write replaces it. -/
def accumulates (p : StatePath) : Bool := p.area = .resources

/-- The resource that a two-segment path under the resources names. -/
def resource? (p : StatePath) : Option String :=
  match p.area, p.rest with
  | .resources, [name] => some name
  | _, _ => none

end StatePath

end SurvivalRules
