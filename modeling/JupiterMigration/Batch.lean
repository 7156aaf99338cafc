import JupiterMigration.Conversion
import JupiterMigration.Files.Pattern
import JupiterMigration.Text.Utf8

/-!
# Converting many files

The files below a directory that match the pattern of a configuration are converted one after the
other.  Several workers convert them independently of each other; then only their outcomes are
gathered, not what they say while they work.
-/

namespace JupiterMigration

/-- Why a source cannot be read. -/
inductive ReadError where
  | file (error : FileError)
  | undecodable (fault : Text.Utf8Fault)
  deriving DecidableEq, Repr

/-- The wording of an error. -/
def ReadError.message : ReadError → String
  | file error => error.message
  | undecodable fault => fault.message

/-- The text of the file that a path leads to. -/
def FileTree.readText (tree : FileTree) (path : Path) : Except ReadError String :=
  match tree.read path with
  | .error error => .error (.file error)
  | .ok content =>
    match Text.decode content with
    | .error fault => .error (.undecodable fault)
    | .ok text => .ok text

/--
The files to convert for a path, each by the names that lead to it from there.  A path to a file
leads to this one.
-/
def FileTree.sources (tree : FileTree) (path : Path) (configuration : Configuration) :
    Except PatternError (List (List String)) :=
  if tree.isFile path then .ok [[]]
  else do return tree.filesMatching path (← FilePattern.parse configuration.filePattern)

/-- Converts the file that a path leads to. -/
def Run.ofFile (configuration : Configuration) (tree : FileTree) (path : Path) (firstId : Nat) :
    Run :=
  match tree.readText path with
  | .ok code => Run.start configuration code (some path.text) firstId
  | .error error =>
    ⟨Conversion.failure "" (some path.text) ["Read Error: " ++ error.message] .empty,
      [⟨.error, "Cannot read " ++ path.text ++ ": " ++ error.message⟩], firstId⟩

/-- The outcomes of many conversions in order, and what they leave behind. -/
structure Batch where
  conversions : List Conversion
  log : List LogRecord
  /-- The first number that no node has. -/
  nextId : Nat

namespace Batch

/-- Converts files one after the other. -/
def inTurn (configuration : Configuration) (tree : FileTree) : Nat → List Path → Batch
  | firstId, [] => ⟨[], [], firstId⟩
  | firstId, path :: rest =>
    let run := Run.ofFile configuration tree path firstId
    let others := inTurn configuration tree run.nextId rest
    ⟨run.conversion :: others.conversions, run.log ++ others.log, others.nextId⟩

/-- Converts files independently of each other. -/
def sideBySide (configuration : Configuration) (tree : FileTree) (firstId : Nat)
    (paths : List Path) : Batch where
  conversions := paths.map fun path => (Run.ofFile configuration tree path firstId).conversion
  log := [⟨.debug, "Converting " ++ toString paths.length ++ " files with " ++
    toString configuration.workers ++ " workers"⟩]
  nextId := firstId

/-- Converts files, with several workers if there are several files. -/
def convert (configuration : Configuration) (tree : FileTree) (firstId : Nat)
    (paths : List Path) : Batch :=
  if 1 < configuration.workers && 1 < paths.length then
    sideBySide configuration tree firstId paths
  else inTurn configuration tree firstId paths

end Batch

end JupiterMigration
