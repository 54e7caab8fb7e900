import SurvivalRules.Content.Field
import SurvivalRules.Draws
import SurvivalRules.Json.Reader
import SurvivalRules.Json.Writer
import SurvivalRules.Text.LineEnd

/-!
# Settings

How a game is set up. Settings are kept in a text file, and a file that is not there is written with
the settings that hold without one.
-/
namespace SurvivalRules

inductive SeedMode where
  | fixed
  | random
  deriving DecidableEq, Repr

structure Settings where
  seedMode : SeedMode
  fixedSeed : Int
  /-- Whether net gains of resources are amplified, to try a game out quickly. -/
  amplifyGains : Bool
  contentFolder : Option String
  showTrace : Bool
  deriving DecidableEq, Repr

namespace SeedMode

def name : SeedMode → String
  | .fixed => "fixed"
  | .random => "random"

def ofName? (s : String) : Option SeedMode := [fixed, random].find? (·.name = s)

theorem ofName?_name (m : SeedMode) : ofName? m.name = some m := by cases m <;> rfl

end SeedMode

namespace Settings

def standard : Settings := ⟨.random, Draws.defaultSeed, false, none, false⟩

def ofRecord (r : Tree) : Checked Settings :=
  Settings.mk <$> Field.optional r "rng_seed_mode" standard.seedMode (Field.word SeedMode.ofName?)
    <*> Field.optional r "fixed_seed" standard.fixedSeed Field.whole
    <*> Field.optional r "amplify_gains" standard.amplifyGains Field.truth
    <*> Field.optional r "content_dir" standard.contentFolder (Field.nullable Field.text)
    <*> Field.optional r "show_trace" standard.showTrace Field.truth

def toRecord (s : Settings) : Tree :=
  [("rng_seed_mode", .text s.seedMode.name), ("fixed_seed", .int s.fixedSeed),
    ("amplify_gains", .bool s.amplifyGains),
    ("content_dir", match s.contentFolder with
      | some folder => .text folder
      | none => .null),
    ("show_trace", .bool s.showTrace)]

def write (s : Settings) : String := Json.pretty 0 (.mapping s.toRecord)

/-- The text of a settings file with the given fields, if they can be stored. -/
def writeRecord? (r : Tree) : Option String :=
  if Json.isStorable (.mapping r) then some (Json.pretty 0 (.mapping r)) else none

/-- Reads a settings file. A text that cannot be read is a fault of the file itself. -/
def read (text : String) : Checked Settings :=
  match Json.read .strict text with
  | .ok v => Field.record ofRecord v
  | .error _ => .wrong

/-- The text of the file once the settings are loaded. -/
def fileText (file : Option String) : String := (file.map Text.withLineFeeds).getD standard.write

def load (file : Option String) : Checked Settings := read (fileText file)

/-- Why a name cannot be set. -/
inductive AmendError where
  | unknown (name : String)
  /-- A name that belongs to all settings or is derived from the fields. -/
  | fixed (name : String)
  /-- A name that takes no value of this kind. -/
  | illTyped (name : String)
  deriving DecidableEq, Repr

/-- The names that belong to all settings or are derived from the fields. -/
def fixedNames : List String :=
  ["model_extra", "model_fields_set", "__fields_set__", "__class_vars__", "__private_attributes__",
    "__signature__", "__weakref__"]

/-- The names that stand for the settings as a whole and take no plain value. -/
def wholeNames : List String := ["__class__", "__dict__"]

/-- Names that start with an underscore are private and not kept in the file. -/
def isPrivate (name : String) : Bool := name.startsWith "_"

/-- A seed is kept as a number. -/
def kept (name : String) (v : Value) : Value :=
  match v with
  | .bool b => if name = "fixed_seed" then .int (if b then 1 else 0) else v
  | v => v

/-- Sets fields without checking them; only fields that settings have can be set. -/
def amend (r : Tree) : List (String × Value) → Except AmendError Tree
  | [] => .ok r
  | (name, v) :: rest =>
    if OrderedMap.contains name r then amend (OrderedMap.insert name (kept name v) r) rest
    else if fixedNames.contains name then .error (.fixed name)
    else if wholeNames.contains name then .error (.illTyped name)
    else if isPrivate name then amend r rest
    else .error (.unknown name)

/-- The generator that the settings ask for; `chance` is the seed when it is left to chance. -/
def draws (s : Settings) (chance : Int) : Draws :=
  match s.seedMode with
  | .fixed => Draws.ofSeed s.fixedSeed
  | .random => Draws.ofSeed chance

end Settings

end SurvivalRules
