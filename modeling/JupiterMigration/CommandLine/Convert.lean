import JupiterMigration.CommandLine.Request
import JupiterMigration.CommandLine.Shell
import JupiterMigration.Difference

/-!
# Converting files

The files of a directory are converted in place, or into another directory under the same names.
The conversion of a single file is printed unless it is to be written somewhere.  A file that
cannot be converted is left alone.
-/

namespace JupiterMigration.CommandLine

open Command

/-- What is shown if a path leads nowhere. -/
def notFound (path : Path) : Command Nat := do
  error ("Input not found: " ++ path.text)
  return 1

/-- The recipes that are asked for, as a setting. -/
def recipeSetting (recipes : Option (List String)) : List (String × Setting) :=
  recipes.toList.map fun names => ("recipes", .list (names.map Setting.text))

namespace ConvertRequest

/-- What is asked for explicitly, as settings. -/
def settings (request : ConvertRequest) : List (String × Setting) :=
  recipeSetting request.recipes ++
    (request.workers.toList.map fun workers => ("workers", .integer workers)) ++
    if request.strict then [("strict_mode", .boolean true)] else []

end ConvertRequest

/-- A file and the outcome of its conversion. -/
structure ConvertedFile where
  /-- The names that lead to the file from the path that was asked for. -/
  names : List String
  path : Path
  conversion : Conversion
  deriving DecidableEq, Repr

/-- Shows what a conversion changes. -/
def showDifference (file : ConvertedFile) : Command Unit := do
  match (← tree).readText file.path with
  | .ok earlier =>
    display (.text (Difference.render ("a/" ++ file.path.text) ("b/" ++ file.path.text) earlier
      file.conversion.code))
  | .error (.file error) => throw (.file error)
  | .error (.undecodable fault) => throw (.undecodable fault)

/-- Writes the outcome of a conversion. -/
def writeOutcome (file : ConvertedFile) (destination : Path) : Command Unit := do
  orFail .file (← store destination file.conversion.code)
  if file.conversion.changed then
    success ("Migrated: " ++ marked file.path ++ " -> " ++ marked destination)

/-- Puts the outcome of a successful conversion where it belongs. -/
def emit (request : ConvertRequest) (file : ConvertedFile) : Command Unit := do
  match request.out with
  | some out => writeOutcome file (out.below file.names)
  | none =>
    if (← tree).isFile request.path then printLine file.conversion.code
    else if file.conversion.changed then writeOutcome file file.path

/-- Shows a conversion if that is asked for, and puts its outcome where it belongs. -/
def handle (request : ConvertRequest) (file : ConvertedFile) : Command Unit := do
  if request.diff && file.conversion.changed then showDifference file
  if file.conversion.success then emit request file

/-- The traces of converted files: a single one on its own, several by path. -/
def traceDocument : List ConvertedFile → TraceDocument
  | [file] => .single file.conversion.trace
  | files => .byFile (files.map fun file => (file.path.text, file.conversion.trace))

/-- Stores the traces of converted files. -/
def storeTrace (destination : Path) (files : List ConvertedFile) : Command Unit := do
  let document := traceDocument files
  match ← store destination document.render with
  | .error problem => error ("Failed to write trace: " ++ problem.message)
  | .ok () =>
    let location := ((← tree).locate destination).toOption
    modify fun shell => { shell with stored := location.map fun location => (location, document) }
    info ("Trace saved to " ++ marked destination)

/-- Whether there is something to say about a conversion. -/
def hasIssues (conversion : Conversion) : Bool :=
  !conversion.success || !conversion.errors.isEmpty

/-- The row of a file that there is something to say about. -/
def issueRow (file : ConvertedFile) : List String :=
  [file.path.text,
    if file.conversion.success then "⚠️ Warnings" else "❌ Failed",
    if file.conversion.errors.isEmpty then "Unknown Error"
    else "; ".intercalate file.conversion.errors]

/-- Shows what has been done, file by file if there is something to say about one. -/
def summarize (files : List ConvertedFile) : Command Unit := do
  let total := toString files.length
  let changed := toString (files.countP fun file => file.conversion.changed)
  let issues := files.filter fun file => hasIssues file.conversion
  if issues.isEmpty then
    success ("Batch Complete: " ++ changed ++ "/" ++ total ++ " files migrated, no issues.")
  else
    display (.table ⟨"Migration Report", ["File", "Status", "Issues"], issues.map issueRow⟩)
    display (.text ("\n[bold]Summary:[/bold] " ++ changed ++ " migrated, " ++
      toString issues.length ++ " with issues, " ++ total ++ " total."))

/-- Converts the files that names lead to from the path that was asked for. -/
def convertSources (configuration : Configuration) (path : Path) (sources : List (List String)) :
    Command (List ConvertedFile) := do
  let conversions ← convertFiles configuration (sources.map path.below)
  return (sources.zip conversions).map fun (names, conversion) =>
    ⟨names, path.below names, conversion⟩

/-- The exit code of a conversion: zero if every file could be converted. -/
def exitCode (files : List ConvertedFile) : Nat :=
  if files.all fun file => file.conversion.success then 0 else 1

/-- Converts a file or the files of a directory. -/
def convert (request : ConvertRequest) : Command Nat := do
  let path := request.path
  if !(← tree).contains path then return ← notFound path
  match ← loadConfiguration path request.settings with
  | none => return 1
  | some configuration =>
    let sources ← orFail .pattern ((← tree).sources path configuration)
    if sources.isEmpty then
      warning ("No files matching '" ++ configuration.filePattern ++ "' found in " ++ path.text)
      return 0
    if (← tree).isDirectory path then
      info ("Processing " ++ toString sources.length ++ " files from " ++ marked path ++ "...")
    let files ← convertSources configuration path sources
    files.forM (handle request)
    if let some destination := request.jsonTrace then storeTrace destination files
    summarize files
    return exitCode files

end JupiterMigration.CommandLine
