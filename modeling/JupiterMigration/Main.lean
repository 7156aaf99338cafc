import JupiterMigration.CommandLine

/-!
# The program

The program works on the file that its path argument leads to.  If the path leads to a directory,
the files that there are come from standard input, one path on each line, as `find` lists them.
-/

namespace JupiterMigration.Program

open CommandLine

/-- The path that a command works on. -/
def pathOf : Request → Option Path
  | .convert request => some request.path
  | .check path _ => some path
  | .listRecipes => none

/-- The content of a file; nothing if it cannot be read. -/
def contentOf (path : Path) : IO (Option ByteArray) := do
  try
    return some (← IO.FS.readBinFile path.text)
  catch _ =>
    return none

/-- Adds a file to a tree of files, if it can be read. -/
def addFile (tree : FileTree) (path : Path) : IO FileTree := do
  match ← contentOf path with
  | some content => return (tree.addFile path content).toOption.getD tree
  | none => return tree

/-- The project files that may configure the conversion of files. -/
def projectFiles (paths : List Path) : List Path :=
  let directories := paths.flatMap fun path => Configuration.outwards path.names.dropLast
  directories.eraseDups.map fun names => Path.here.below (names ++ [Configuration.projectFileName])

/-- The paths on the lines of a text. -/
def listedPaths (text : String) : List Path :=
  ((Text.splitOn text "\n").filter fun line => !line.isEmpty).map Path.ofString

/-- The files that a command works on. -/
def readTree (path : Path) : IO FileTree := do
  let paths ← match ← contentOf path with
    | some _ => pure [path]
    | none => do
      let stdin ← IO.getStdin
      pure (listedPaths (← stdin.readToEnd))
  (paths ++ projectFiles paths).foldlM addFile FileTree.empty

/-- Writes a file and the directories that lead to it. -/
def writeFile (location : Location) (content : ByteArray) : IO Unit := do
  let path := Path.here.below location
  IO.FS.createDirAll path.parent.text
  IO.FS.writeBinFile path.text content

/-- Shows a table, one row on each line. -/
def showTable (table : Table) : IO Unit := do
  IO.eprintln table.title
  (table.columns :: table.rows).forM fun row => IO.eprintln ("  ".intercalate row)

/-- Shows something besides messages. -/
def showDisplay : Display → IO Unit
  | .text content => IO.eprintln content
  | .table table => showTable table

/-- Shows what a run of the program has shown, and writes the files that it has changed. -/
def finish (before : Workspace) (outcome : Outcome) : IO UInt32 := do
  let shell := outcome.shell
  IO.print shell.printed
  shell.log.forM fun record => IO.eprintln (record.level.name ++ " " ++ record.message)
  shell.displays.forM showDisplay
  (shell.workspace.tree.changedSince before.tree).forM fun (location, content) =>
    writeFile location content
  match outcome.result with
  | .ok code => return code.toUInt32
  | .error failure =>
    IO.eprintln failure.message
    return 1

end JupiterMigration.Program

open JupiterMigration CommandLine Program in
/-- Runs the program. -/
def main (arguments : List String) : IO UInt32 := do
  let path := match Invocation.read arguments with
    | .ok invocation => pathOf invocation.request
    | .error _ => none
  let tree ← match path with
    | some path => readTree path
    | none => pure FileTree.empty
  let workspace : Workspace := ⟨toString (← IO.currentDir), tree, 1⟩
  finish workspace (CommandLine.run workspace arguments)
