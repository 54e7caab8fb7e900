import SurvivalRules.Content
import SurvivalRules.Json.Reader

/-!
# Content packs

A pack is a set of files under the folders of the record groups. A file holds one record or a list of
records, and files are read in the order of the components of their paths.
-/
namespace SurvivalRules

structure PackFile where
  path : List String
  text : String
  deriving DecidableEq, Repr

/-- The files of a pack and the name of the folder they are in. -/
structure Pack where
  root : String
  files : List PackFile
  deriving DecidableEq, Repr

namespace PackFile

/-- The order of paths: component by component, a shorter path before its extensions. -/
def pathLe : List String → List String → Bool
  | [], _ => true
  | _ :: _, [] => false
  | a :: as, b :: bs => if a = b then pathLe as bs else Text.le a b

/-- The ending of a file name from its last dot on; a name has none if it starts or ends there. -/
def ending (name : String) : String :=
  let cs := name.toList
  let tail := Text.lastPiece '.' cs
  if tail.isEmpty || cs.length ≤ tail.length + 1 then "" else String.ofList ('.' :: tail)

def outlineEndings : List String := [".yaml", ".yml"]

def lowerEnding (f : PackFile) : String := Text.lower (ending (f.path.getLastD ""))

/-- A file whose text may be left out altogether. -/
def isOutline (f : PackFile) : Bool := outlineEndings.contains f.lowerEnding

def isContent (f : PackFile) : Bool := f.isOutline || f.lowerEnding = ".json"

def isIn (group : RecordGroup) (f : PackFile) : Bool :=
  match f.path with
  | folder :: _ :: _ => folder = group.name
  | _ => false

def displayPath (root : String) (f : PackFile) : String := "/".intercalate (root :: f.path)

def dialect (f : PackFile) : Json.Dialect := if f.isOutline then .outline else .loose

/-- The value a file holds. -/
@[irreducible] def read (f : PackFile) : Except ContentError Value :=
  if f.isOutline && (Json.skipSpace f.dialect f.text.toList).isEmpty then .ok .null
  else
    match Json.read f.dialect f.text with
    | .ok v => .ok v
    | .error .oversized => .error (.fault .unreadable)
    | .error cause => .error (.unreadableFile cause)

/-- A list holds several records; vacant records are left out. -/
def recordsOf : Value → List Value
  | .list vs => vs.filter (!·.isVacant)
  | v => if v.isVacant then [] else [v]

def records (f : PackFile) : Except ContentError (List Value) := recordsOf <$> f.read

end PackFile

namespace Pack

/-- The content files of a group in reading order. -/
def filesOf (p : Pack) (group : RecordGroup) : List PackFile :=
  (p.files.filter fun f => f.isIn group && f.isContent).mergeSort fun a b =>
    PackFile.pathLe a.path b.path

/-- Whether `word` occurs in `cs`. -/
def occursIn (word : List Char) : List Char → Bool
  | [] => word.isEmpty
  | c :: rest => word.isPrefixOf (c :: rest) || occursIn word rest

/-- A record of the actions folder with its kind. What is no mapping is passed on if it names a kind. -/
def taggedAction : Value → Except Fault Value
  | .mapping es => .ok (.mapping (Action.tag es))
  | .text s => if occursIn "kind".toList s.toList then .ok (.text s) else .error .notAMapping
  | .list vs => if vs.any (·.same (.text "kind")) then .ok (.list vs) else .error .notAMapping
  | _ => .error .illTyped

def taggedRecord (group : RecordGroup) (v : Value) : Except Fault Value :=
  match group with
  | .actions => taggedAction v
  | _ => .ok v

def loadRecord (group : RecordGroup) (file : String) (c : Content) (v : Value) :
    Except ContentError Content :=
  match taggedRecord group v with
  | .error e => .error (.fault e)
  | .ok v => c.addChecked (some file) (Definition.ofValue group v)

def loadFile (root : String) (group : RecordGroup) (c : Content) (f : PackFile) :
    Except ContentError Content := do
  (← f.records).foldlM (loadRecord group (f.displayPath root)) c

def loadGroup (p : Pack) (c : Content) (group : RecordGroup) : Except ContentError Content :=
  (p.filesOf group).foldlM (loadFile p.root group) c

def load (p : Pack) : Except ContentError Content := RecordGroup.all.foldlM p.loadGroup Content.empty

/-- Goes from a folder, given by its components from the last one on, along the parts of a path. The
folder around the pack is not in it. -/
def walk (folder : List String) : List String → Option (List String)
  | [] => some folder.reverse
  | part :: rest =>
    if part = "" ∨ part = "." then walk folder rest
    else if part = ".." then
      match folder with
      | [] => none
      | _ :: outer => walk outer rest
    else walk (part :: folder) rest

/-- The components of a path that is written with slashes, if it stays in the pack. -/
def components? (path : String) : Option (List String) :=
  match (Text.splitAtChar '/' path.toList).map String.ofList with
  | "" :: _ :: _ => none
  | parts => walk [] parts

/-- The halves that stand for single bytes of a path. -/
def isByteHalf (n : Nat) : Bool := 0xdc80 ≤ n && n < 0xdd00

/-- Whether a file can be stored: its text holds no halves of pairs, and its path only those of bytes. -/
def isStorable (path text : String) : Bool :=
  !Text.hasHalf text && (Text.codes path).all fun n => !Text.isHalf n || isByteHalf n

/-- The files of a pack by their paths; of several texts for one file the last one is kept. -/
def ofFiles (root : String) (files : List (String × String)) : Pack :=
  let kept := files.filterMap fun f => (components? f.1).map (·, f.2)
  ⟨root, (OrderedMap.ofList kept).map fun f => ⟨f.1, f.2⟩⟩

end Pack

end SurvivalRules
