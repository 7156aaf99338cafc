import JupiterMigration.Batch
import JupiterMigration.Configuration.Project
import JupiterMigration.Journal.Document

/-!
# Where commands run

A command works on a tree of files.  It shows messages, texts and tables, and it may end early with
an error that it does not handle; what it has done before stays done.
-/

namespace JupiterMigration.CommandLine

/-- A table that is shown. -/
structure Table where
  title : String
  columns : List String
  rows : List (List String)
  deriving DecidableEq, Repr

/-- Something that is shown besides messages. -/
inductive Display where
  | text (content : String)
  | table (content : Table)
  deriving DecidableEq, Repr

/-- A working directory. -/
structure Workspace where
  /-- The path of the working directory as messages show it. -/
  root : String
  tree : FileTree
  /-- The first number that no node has. -/
  nextId : Nat

/-- The state of a running command. -/
structure Shell where
  workspace : Workspace
  /-- The least important messages that are shown. -/
  level : LogLevel
  log : List LogRecord
  displays : List Display
  /-- What is printed for other programs to read. -/
  printed : String
  /-- The traces that have been stored, and where. -/
  stored : Option (Location × TraceDocument)

/-- An error that ends a command. -/
inductive Failure where
  | file (error : FileError)
  | pattern (error : PatternError)
  | undecodable (fault : Text.Utf8Fault)
  | misplaced (value : MisplacedValue)
  deriving DecidableEq, Repr

/-- The wording of an error. -/
def Failure.message : Failure → String
  | file error => error.message
  | pattern error => error.message
  | undecodable fault => fault.message
  | misplaced value => value.message

/-- A part of a command. -/
abbrev Command := ExceptT Failure (StateM Shell)

namespace Command

/-- The tree of files as it is now. -/
def tree : Command FileTree := do
  return (← get).workspace.tree

/-- Puts another tree of files in place. -/
def setTree (tree : FileTree) : Command Unit :=
  modify fun shell => { shell with workspace := { shell.workspace with tree } }

/-- Shows those messages that are important enough. -/
def say (records : List LogRecord) : Command Unit :=
  modify fun shell =>
    let shown := records.filter fun record => shell.level.rank ≤ record.level.rank
    { shell with log := shell.log ++ shown }

/-- Tells what is going on. -/
def info (message : String) : Command Unit :=
  say [⟨.info, "ℹ️  " ++ message⟩]

/-- Tells that something has been done. -/
def success (message : String) : Command Unit :=
  say [⟨.success, "✅ " ++ message⟩]

/-- Tells that something may be wrong. -/
def warning (message : String) : Command Unit :=
  say [⟨.warning, "⚠️  " ++ message⟩]

/-- Tells that something is wrong. -/
def error (message : String) : Command Unit :=
  say [⟨.error, "❌ " ++ message⟩]

/-- Shows something. -/
def display (item : Display) : Command Unit :=
  modify fun shell => { shell with displays := shell.displays ++ [item] }

/-- Prints a line for other programs to read. -/
def printLine (line : String) : Command Unit :=
  modify fun shell => { shell with printed := shell.printed ++ line ++ "\n" }

/-- Gives back a result or ends with an error. -/
def orFail {ε α : Type} (failure : ε → Failure) : Except ε α → Command α
  | .ok result => return result
  | .error error => throw (failure error)

/-- Writes a file and the directories that lead to it; nothing changes if that fails. -/
def store (path : Path) (content : String) : Command (Except FileError Unit) := do
  match (← tree).addFile path (Text.encode content) with
  | .ok changed =>
    setTree changed
    return .ok ()
  | .error error => return .error error

/-- Marks a path in a message. -/
def marked (path : Path) : String :=
  "[path]" ++ path.text ++ "[/path]"

/-- The configuration for a path; nothing if it is not valid, which has then been told. -/
def loadConfiguration (path : Path) (explicit : List (String × Setting)) :
    Command (Option Configuration) := do
  let workspace := (← get).workspace
  let start := if workspace.tree.isDirectory path then path else path.parent
  let loading := Configuration.load workspace.root workspace.tree start explicit
  say loading.log
  match loading.result with
  | .ok configuration => return some configuration
  | .error (.invalid errors) =>
    error ("Invalid configuration: " ++ SettingError.summary errors)
    return none
  | .error (.undecodable fault) => throw (.undecodable fault)
  | .error (.misplaced value) => throw (.misplaced value)

/-- Converts the files that paths lead to. -/
def convertFiles (configuration : Configuration) (paths : List Path) :
    Command (List Conversion) := do
  let workspace := (← get).workspace
  let batch := Batch.convert configuration workspace.tree workspace.nextId paths
  say batch.log
  modify fun shell => { shell with workspace := { shell.workspace with nextId := batch.nextId } }
  return batch.conversions

end Command

end JupiterMigration.CommandLine
