import SurvivalRules.Bundled
import SurvivalRules.Content.Audit
import SurvivalRules.Content.Schema
import SurvivalRules.Report.Catalog
import SurvivalRules.Report.Play
import SurvivalRules.Report.Simulation

/-!
# The command line

What a run is asked for, and the text and exit code of its report. A pack is given as one JSON mapping
from the paths of its files to their texts.
-/
namespace SurvivalRules

inductive Tool where
  | play
  | catalog
  | simulate (trial : Trial) (seed : Option Int)
  | audit (warnUnused : Bool)
  | schemas
  deriving DecidableEq

/-- A tool and whether its content comes from the standard input. -/
structure Invocation where
  tool : Tool
  packGiven : Bool
  deriving DecidableEq

namespace Invocation

def usage : String :=
  "Usage: play | catalog [--pack] | simulate ACTION [--times N] [--seed N] [--give PATH=VALUE] " ++
    "[--amplify] [--pack] | validate-content [--warn-unused] [--pack] | schemas"

/-- Reads the options of a simulation one after another. -/
def readTrial (t : Trial) (seed : Option Int) : List String → Option (Trial × Option Int)
  | [] => some (t, seed)
  | "--amplify" :: rest => readTrial { t with amplify := true } seed rest
  | "--give" :: spec :: rest => readTrial { t with given := t.given ++ [spec] } seed rest
  | "--times" :: n :: rest =>
    match Text.readWhole? n with
    | some n => readTrial { t with times := n } seed rest
    | none => none
  | "--seed" :: n :: rest =>
    match Text.readWhole? n with
    | some n => readTrial t (some n) rest
    | none => none
  | _ => none

def readTool : List String → Option Tool
  | ["play"] => some .play
  | ["catalog"] => some .catalog
  | "simulate" :: action :: options =>
    (readTrial ⟨action, 1000, [], false⟩ none options).map fun found => .simulate found.1 found.2
  | ["validate-content"] => some (.audit false)
  | ["validate-content", "--warn-unused"] => some (.audit true)
  | ["schemas"] => some .schemas
  | _ => none

/-- A game in play takes its commands from the standard input, so its content cannot come from there. -/
def read (arguments : List String) : Option Invocation :=
  let packGiven := arguments.contains "--pack"
  match readTool (arguments.filter (· ≠ "--pack")) with
  | some .play => if packGiven then none else some ⟨.play, false⟩
  | some tool => some ⟨tool, packGiven⟩
  | none => none

end Invocation

namespace Pack

/-- A pack from a mapping of file paths to texts. -/
def ofInput (input : String) : Except ContentError Pack :=
  match Json.read .loose input with
  | .ok (.mapping files) => .ok (ofFiles "content" (files.map fun f => (f.1, f.2.display)))
  | .ok _ => .error (.unreadableFile .malformed)
  | .error cause => .error (.unreadableFile cause)

end Pack

namespace Schema

def report : Report :=
  ⟨all.flatMap fun s => s.file :: s.shapes.map fun shape =>
    "  " ++ shape.name ++ ": " ++ ", ".intercalate shape.fields, [], none⟩

end Schema

namespace Failure

def faultText : Fault → String
  | .illTyped => "a value has a kind that cannot be used here"
  | .notAMapping => "a section of the state is no mapping"
  | .outOfRange => "a number is out of range"
  | .unreadable => "a text or number cannot be read"
  | .tooLong => "a number has too many digits"
  | .tooLarge => "a text or list is too large"

def contentText (e : ContentError) : String :=
  match e with
  | .invalid faults =>
    "a record is invalid: " ++ ", ".intercalate (sortedDistinct faults.fields ++ faults.messages)
  | .duplicate _ _ _ => e.message
  | .unreadableFile _ => "a file cannot be read"
  | .fault cause => faultText cause

/-- What is printed when a run stops early, if it has not said why itself. -/
def text? : Failure → Option String
  | .content cause => some (contentText cause)
  | .state (.path cause) => some cause.message
  | .state (.fault cause) => some (faultText cause)
  | .exit _ => none
  | .aborted => some "Aborted."

end Failure

namespace Table

/-- A title and rows of cells with blanks between them. -/
def lines (t : Table) : List String :=
  t.title :: (t.header :: t.rows).map fun row => "  ".intercalate row

end Table

namespace Report

def printed (r : Report) : List String :=
  r.lines ++ r.tables.flatMap Table.lines ++ (r.failure.bind Failure.text?).toList

def exitCode (r : Report) : Nat :=
  match r.failure with
  | none => 0
  | some (.exit code) => code
  | some _ => 1

end Report

namespace Invocation

/-- The report of a tool that needs the content. -/
def withContent (content : Except ContentError Content) (report : Content → Report) : Report :=
  match content with
  | .ok c => report c
  | .error cause => .ofFailure (.content cause)

def auditReport (found : Audit × Option ContentError) : Report := found.1.toReport found.2

def auditPack (pack : Except ContentError Pack) (warnUnused : Bool) : Report :=
  match pack with
  | .ok p => auditReport (Audit.ofPack p warnUnused)
  | .error cause => .ofFailure (.content cause)

/-- The report of an invocation, given the text of the pack if there is one and a seed for what is left
to chance. A game is played without commands. -/
def report (i : Invocation) (input : String) (chance : Int) : Report :=
  let pack := Pack.ofInput input
  let content := if i.packGiven then pack.bind Pack.load else .ok Bundled.content
  let draws := Settings.standard.draws chance
  match i.tool with
  | .play => withContent content fun c => (Session.ofContent c Settings.standard draws none).play []
  | .catalog => withContent content Catalog.report
  | .simulate trial seed =>
    withContent content fun c => trial.report c ((seed.map fun n => Draws.ofSeed n).getD draws)
  | .audit warnUnused =>
    if i.packGiven then auditPack pack warnUnused
    else auditReport (Audit.ofContent Bundled.content warnUnused)
  | .schemas => Schema.report

end Invocation

end SurvivalRules
