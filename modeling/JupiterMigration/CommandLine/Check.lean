import JupiterMigration.CommandLine.Convert

/-!
# Checking files

A check tells which files a conversion would change, and changes none.
-/

namespace JupiterMigration.CommandLine

open Command

/-- The path of a conversion's source. -/
def pathText (conversion : Conversion) : String :=
  "[path]" ++ conversion.path.getD "None" ++ "[/path]"

/-- Tells that a file would be changed. -/
def tellPending (conversion : Conversion) : Command Unit :=
  warning ("Would migrate " ++ pathText conversion ++ " (" ++
    ", ".intercalate (conversion.applied.map Recipe.name) ++ ")")

/-- Tells that a file could not be converted. -/
def tellFailed (conversion : Conversion) : Command Unit :=
  error ("Cannot check " ++ pathText conversion ++ ": " ++ "; ".intercalate conversion.errors)

/-- Checks a file or the files of a directory. -/
def check (path : Path) (recipes : Option (List String)) : Command Nat := do
  if !(← tree).contains path then return ← notFound path
  match ← loadConfiguration path (recipeSetting recipes) with
  | none => return 1
  | some configuration =>
    let sources ← orFail .pattern ((← tree).sources path configuration)
    let conversions ← convertFiles configuration (sources.map path.below)
    let pending := conversions.filter (·.changed)
    let failed := conversions.filter fun conversion => !conversion.success
    pending.forM tellPending
    failed.forM tellFailed
    if !pending.isEmpty || !failed.isEmpty then return 1
    success (toString conversions.length ++ " file(s) already migrated.")
    return 0

end JupiterMigration.CommandLine
