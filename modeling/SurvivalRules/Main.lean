import SurvivalRules.CommandLine

/-!
# The program

Prints the report of the tool that is asked for, or holds the conversation of a game.
-/
namespace SurvivalRules

def printReport (r : Report) : IO UInt32 := do
  for line in r.printed do
    IO.println (Text.toCharacters line)
  return r.exitCode.toUInt32

def withoutLineEnd (line : String) : String :=
  Text.ofCharacters (String.ofList (line.toList.filter (· ≠ '\n')))

/-- Asks for commands until the player leaves the game or the input ends. -/
partial def converse (s : Session) (input : IO.FS.Stream) : IO UInt32 := do
  if s.finished then return 0
  IO.print "> "
  (← IO.getStdout).flush
  let line ← input.getLine
  if line.isEmpty then printReport (.ofFailure .aborted)
  else
    match s.execute (Session.prompted (withoutLineEnd line)) with
    | (.error cause, _) => printReport (.ofFailure (.state cause))
    | (.ok lines, next) =>
      for line in lines do
        IO.println (Text.toCharacters line)
      converse next input

def runTool (i : Invocation) (chance : Int) : IO UInt32 := do
  let input ← IO.getStdin
  match i.tool with
  | .play =>
    IO.println Session.greeting
    let draws := Settings.standard.draws chance
    converse (Session.ofContent Bundled.content Settings.standard draws none) input
  | _ =>
    let pack ← if i.packGiven then input.readToEnd else pure ""
    printReport (i.report (Text.ofCharacters pack) chance)

def runProgram (arguments : List String) : IO UInt32 := do
  match Invocation.read (arguments.map Text.ofCharacters) with
  | none =>
    IO.eprintln Invocation.usage
    return 2
  | some i => runTool i (← IO.rand 0 2147483647)

end SurvivalRules

def main (arguments : List String) : IO UInt32 := SurvivalRules.runProgram arguments
