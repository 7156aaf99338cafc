import JupiterMigration.CommandLine.Check

/-!
# The command line

`CommandLine.run` does what arguments ask for in a workspace and tells how it ended.
-/

namespace JupiterMigration.CommandLine

open Command

/-- The name of the program. -/
def programName : String := "junit-switcheroo"

/-- The version of the program. -/
def version : String := "0.1.0"

/-- How the program is used. -/
def usage : String :=
  "\n".intercalate [
    "usage: " ++ programName ++ " [-h] [--version] [-v | -q] COMMAND ...",
    "",
    "  convert PATH [--out PATH] [--recipe NAME]... [--workers N] [--strict] [--diff]",
    "          [--json-trace PATH]    migrate a Java file or the files of a directory",
    "  check PATH [--recipe NAME]...  exit with 1 if a file would be migrated",
    "  recipes                        list the recipes"]

/-- Shows the recipes in the order in which they are applied. -/
def listRecipes : Command Nat := do
  display (.table ⟨"junit-switcheroo Recipes", ["Name", "Recipe", "Marker Type", "Rewrite"],
    Recipe.all.map fun recipe =>
      [recipe.name, recipe.title, recipe.markerType, recipe.description]⟩)
  return 0

/-- Does what is asked for. -/
def Request.run : Request → Command Nat
  | convert request => CommandLine.convert request
  | check path recipes => CommandLine.check path recipes
  | listRecipes => CommandLine.listRecipes

/-- How a run of the program ended, and what it has shown. -/
structure Outcome where
  /-- The exit code, or the error that ended the run. -/
  result : Except Failure Nat
  /-- Why nothing has been done. -/
  stop : Option Stop
  shell : Shell

/-- The state in which a command starts. -/
def Shell.start (workspace : Workspace) (level : LogLevel) : Shell :=
  ⟨workspace, level, [], [], "", none⟩

/-- The exit code if nothing is done. -/
def Stop.exitCode : Stop → Nat
  | help => 0
  | version => 0
  | misuse => 2

/-- What is printed if nothing is done. -/
def Stop.printed : Stop → String
  | help => usage ++ "\n"
  | version => programName ++ " " ++ CommandLine.version ++ "\n"
  | misuse => ""

/-- Does what arguments ask for. -/
def run (workspace : Workspace) (arguments : List String) : Outcome :=
  match Invocation.read arguments with
  | .error stop =>
    ⟨.ok stop.exitCode, some stop, { Shell.start workspace .info with printed := stop.printed }⟩
  | .ok invocation =>
    let (result, shell) := (invocation.request.run.run).run (Shell.start workspace invocation.level)
    ⟨result, none, shell⟩

end JupiterMigration.CommandLine
