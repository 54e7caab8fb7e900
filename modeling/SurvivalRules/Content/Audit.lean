import SurvivalRules.Content.Pack
import SurvivalRules.Content.Problem
import SurvivalRules.Report

/-!
# Auditing content

An audit reads a whole pack and goes on after a faulty record, so that one run finds all there is to
say about it. Only a file that cannot be read ends it early, or a number that is too long.
-/
namespace SurvivalRules

inductive Finding where
  | notAMapping (file : String) (found : Value)
  | invalid (file : String) (faults : Invalid)
  | duplicate (file : String) (group : RecordGroup) (id : String)
  | problem (file id : String) (p : Problem)
  | missingItem (family item : String)
  | otherSlot (family : EquipmentFamily) (item : Item)
  | unknownBuilding (chain key : String)
  | unknownTarget (item key : String)
  | neverGranted (item : String)
  deriving DecidableEq

namespace Value

/-- The name of the kind of a value. -/
def kindName : Value → String
  | .null => "NoneType"
  | .bool _ => "bool"
  | .int _ => "int"
  | .float _ => "float"
  | .text _ => "str"
  | .list _ => "list"
  | .mapping _ => "dict"

end Value

namespace Finding

/-- Warnings do not make content invalid. -/
def isError : Finding → Bool
  | .unknownTarget _ _ => false
  | .neverGranted _ => false
  | _ => true

/-- What is wrong with the fields of a record is told in short. -/
def message : Finding → String
  | .notAMapping file found => s!"{file}: expected a mapping, got " ++ found.kindName
  | .invalid file _ => s!"{file}: <validation error>"
  | .duplicate file group id => s!"{file}: duplicate {group.name} id '{id}'"
  | .problem file id p => p.message file id
  | .missingItem family item => s!"family '{family}' references missing item '{item}'"
  | .otherSlot family item =>
    s!"family '{family.id}' is {family.slot.name} but '{item.id}' is {item.slot.name}"
  | .unknownBuilding chain key => s!"building chain '{chain}' references unknown building '{key}'"
  | .unknownTarget item key => s!"item '{item}' has bonuses for unknown action/category '{key}'"
  | .neverGranted item => s!"no action grants item '{item}'"

def line (f : Finding) : String := (if f.isError then "[ERROR] " else "[WARN] ") ++ f.message

end Finding

/-- What an audit has read and found so far. -/
structure Audit where
  content : Content
  findings : List Finding
  deriving DecidableEq

namespace Audit

def start : Audit := ⟨Content.empty, []⟩

def report (a : Audit) (f : Finding) : Audit := { a with findings := a.findings ++ [f] }

/-- The problems of a definition that was taken over. -/
def problemsOf (file : String) : Definition → Except Fault (List Finding)
  | .action a => do return (← a.problems).map (.problem file a.id)
  | _ => .ok []

/-- Takes a definition over if its id is free. -/
def addDefinition (file : String) (a : Audit) (d : Definition) : Except Fault Audit :=
  if a.content.isTaken d then .ok (a.report (.duplicate file d.group d.id))
  else do return ⟨a.content.insert d, a.findings ++ (← problemsOf file d)⟩

def addRecord (group : RecordGroup) (file : String) (a : Audit) (v : Value) : Except Fault Audit :=
  match v with
  | .mapping es =>
    let r := match group with
      | .actions => Action.tag es
      | _ => es
    match Definition.ofValue group (.mapping r) with
    | .ok d => a.addDefinition file d
    | .invalid faults => .ok (a.report (.invalid file faults))
  | found => .ok (a.report (.notAMapping file found))

/-- Adds records in order, up to the first that a fault ends. -/
def addRecords (group : RecordGroup) (file : String) (a : Audit) :
    List Value → Audit × Option ContentError
  | [] => (a, none)
  | v :: rest =>
    match a.addRecord group file v with
    | .error cause => (a, some (.fault cause))
    | .ok a => addRecords group file a rest

/-- The files of a pack, group by group. -/
def filesInOrder (p : Pack) : List (RecordGroup × PackFile) :=
  RecordGroup.all.flatMap fun group => (p.filesOf group).map (group, ·)

/-- Reads files in order, up to the first that cannot be read or that a fault ends. -/
def addFiles (root : String) (a : Audit) :
    List (RecordGroup × PackFile) → Audit × Option ContentError
  | [] => (a, none)
  | (group, f) :: rest =>
    match f.records with
    | .error cause => (a, some cause)
    | .ok records =>
      match a.addRecords group (f.displayPath root) records with
      | (a, some cause) => (a, some cause)
      | (a, none) => addFiles root a rest

def tierFindings (c : Content) (f : EquipmentFamily) (id : String) : List Finding :=
  match c.item? id with
  | none => [.missingItem f.id id]
  | some item => if item.slot = f.slot then [] else [.otherSlot f item]

def familyFindings (c : Content) : List Finding :=
  (OrderedMap.values c.families).flatMap fun f => f.tiers.flatMap (tierFindings c f)

def chainFindings (c : Content) : List Finding :=
  (OrderedMap.values c.chains).flatMap fun chain =>
    (chain.tiers.filter fun key => !OrderedMap.contains key c.buildingActions).map
      (.unknownBuilding chain.id)

def isTarget (c : Content) (key : String) : Bool :=
  OrderedMap.contains key c.actions || c.categories.contains key

def targetFindings (c : Content) : List Finding :=
  (OrderedMap.values c.items).flatMap fun i =>
    (i.actionBonuses.keys.filter (!isTarget c ·)).map (.unknownTarget i.id)

/-- What definitions say about each other. -/
def crossFindings (c : Content) : List Finding :=
  familyFindings c ++ chainFindings c ++ targetFindings c

/-- The last segments of the paths that effects write to. -/
def grantedNames (c : Content) : List String :=
  (OrderedMap.values c.actions).flatMap fun a => (Content.effectBlocks a).flatMap fun block =>
    block.keys.map fun path => String.ofList (Text.lastPiece '.' path.toList)

def ungranted (c : Content) : List Finding :=
  let granted := grantedNames c
  (sortedDistinct ((OrderedMap.keys c.items).filter (!granted.contains ·))).map .neverGranted

/-- Adds what can be said only about content as a whole. -/
def close (a : Audit) (warnUnused : Bool) : Audit :=
  ⟨a.content, a.findings ++ crossFindings a.content ++
    if warnUnused then ungranted a.content else []⟩

/-- The audit of a pack, and what ended it early. -/
def ofPack (p : Pack) (warnUnused : Bool) : Audit × Option ContentError :=
  match start.addFiles p.root (filesInOrder p) with
  | (a, some cause) => (a, some cause)
  | (a, none) => (a.close warnUnused, none)

/-- Content passes if nothing that was found is an error. -/
def passes (a : Audit) : Bool := !a.findings.any Finding.isError

def successLine (c : Content) : String :=
  "Content validated successfully (" ++ Numeric.numeral c.actions.length ++ " actions, " ++
    Numeric.numeral c.items.length ++ " items)."

def lines (a : Audit) : List String := a.findings.map Finding.line

/-- The audit of content that is built in, which has no file to name. -/
def ofContent (c : Content) (warnUnused : Bool) : Audit × Option ContentError :=
  match (OrderedMap.values c.actions).mapM fun a => problemsOf "" (.action a) with
  | .error cause => (⟨c, []⟩, some (.fault cause))
  | .ok findings => ((⟨c, findings.flatten⟩ : Audit).close warnUnused, none)

/-- What the audit shows in the end. -/
def toReport (a : Audit) (ended : Option ContentError) : Report :=
  match ended with
  | some cause => ⟨a.lines, [], some (.content cause)⟩
  | none =>
    if a.passes then ⟨a.lines ++ [successLine a.content], [], none⟩
    else ⟨a.lines, [], some (.exit 1)⟩

end Audit

end SurvivalRules
