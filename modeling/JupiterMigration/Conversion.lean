import JupiterMigration.Configuration.Validation
import JupiterMigration.Java.Source

/-!
# Conversions

A conversion reads a source, applies the recipes one after the other, and prints the result.  A
source that cannot be read is left as it is, and so is one with warnings if the configuration is
strict.  A source that no recipe has migrated is given back as it was.

Of a text by itself, only what it becomes is of interest, or why it does not (`migrate`).
-/

namespace JupiterMigration

/-- The outcome of a conversion. -/
structure Conversion where
  code : String
  path : Option String
  /-- The warnings, or the reason why the source cannot be read. -/
  errors : List String
  success : Bool
  changed : Bool
  /-- The recipes that have migrated something. -/
  applied : List Recipe
  trace : Trace
  deriving DecidableEq, Repr

namespace Conversion

/-- What a source is called in messages. -/
def label (path : Option String) : String :=
  match path with
  | some path => if path.isEmpty then "<string>" else path
  | none => "<string>"

/-- The outcome in which the source is left as it is. -/
def failure (code : String) (path : Option String) (errors : List String) (trace : Trace) :
    Conversion where
  code := code
  path := path
  errors := errors
  success := false
  changed := false
  applied := []
  trace := trace

/-- Reads a source as a phase; nothing if it cannot be read. -/
def readUnit (code : String) (path : Option String) :
    Migration (Except SyntaxError SourceUnit) := do
  match SourceUnit.read? code path with
  | some unit => return .ok (← Migration.number unit.numbered)
  | none =>
    let error := SyntaxError.unreadable
    Migration.log .warning ("Cannot parse " ++ label path ++ ": " ++ error.message)
    Migration.record (.warning ("Parse Error: " ++ error.message))
    return .error error

/-- A file and the recipes that have migrated it. -/
structure Applied where
  /-- The migrated file, if a recipe has migrated it. -/
  update : Option SourceUnit
  recipes : List Recipe

/-- Applies a recipe to what the recipes before it have made of a file. -/
def applyRecipe (layout : Layout) (unit : SourceUnit) (before : Applied) (recipe : Recipe) :
    Migration Applied := do
  let result ← Stages.phase ("Recipe " ++ recipe.name) recipe.description
    (recipe.apply layout (before.update.getD unit))
  return match result with
    | some update => ⟨some update, before.recipes ++ [recipe]⟩
    | none => before

/-- Applies recipes to a file, one after the other. -/
def applyRecipes (layout : Layout) (recipes : List Recipe) (unit : SourceUnit) :
    Migration Applied :=
  recipes.foldlM (applyRecipe layout unit) ⟨none, []⟩

/-- The outcome of a conversion in which the source could be read. -/
def conclude (configuration : Configuration) (code : String) (path : Option String)
    (result : Applied) : Migration Conversion := do
  let errors ← Migration.warnings
  let trace := (← get).journal.trace
  if configuration.strict && !errors.isEmpty then
    Migration.log .error ("Strict mode: " ++ label path ++ " left unchanged (" ++
      toString errors.length ++ " warning(s))")
    return failure code path errors trace
  let output := (result.update.map SourceUnit.print).getD code
  if !result.recipes.isEmpty then
    Migration.log .debug (label path ++ ": applied " ++
      ", ".intercalate (result.recipes.map Recipe.name))
  return {
    code := output
    path
    errors
    success := true
    changed := output ≠ code
    applied := result.recipes
    trace }

/-- Converts a source. -/
def convert (configuration : Configuration) (code : String) (path : Option String) :
    Migration Conversion := do
  Migration.startPhase "Migration Pipeline" (label path)
  match ← Stages.phase "Parsing" "Java source -> SourceUnit" (readUnit code path) with
  | .error error =>
    Migration.endPhase
    return failure code path ["Parse Error: " ++ error.message] (← get).journal.trace
  | .ok unit =>
    let layout := Layout.ofUnit unit configuration.indent
    let result ← applyRecipes layout configuration.recipes unit
    Migration.endPhase
    conclude configuration code path result

end Conversion

/-- A conversion and what it leaves behind. -/
structure Run where
  conversion : Conversion
  log : List LogRecord
  /-- The first number that no node has. -/
  nextId : Nat

/-- Converts a source on its own; nodes are numbered from the given number on. -/
def Run.start (configuration : Configuration) (code : String) (path : Option String)
    (firstId : Nat) : Run :=
  let (conversion, session) :=
    (Conversion.convert configuration code path).run ⟨.empty, firstId⟩
  ⟨conversion, session.journal.log, session.nextId⟩

/-! ## Texts by themselves -/

/-- Why a text has not been migrated. -/
inductive MigrationError where
  /-- The settings to migrate it with are no configuration. -/
  | misconfigured (errors : List SettingError)
  /-- The conversion has failed for these reasons. -/
  | failed (errors : List String)
  deriving DecidableEq, Repr

/-- The wording of a migration error; for settings, its first line. -/
def MigrationError.message : MigrationError → String
  | .misconfigured errors => SettingError.summary errors
  | .failed errors => "Migration failed:\n" ++ "\n".intercalate errors

/-- The code that a conversion has made, if it has succeeded. -/
def Conversion.result (conversion : Conversion) : Except MigrationError String :=
  if conversion.success then .ok conversion.code else .error (.failed conversion.errors)

/-- The settings of a migration: its recipes, if not all are to be applied, and its strictness. -/
def migrationSettings (recipes : Option Setting) (strict : Bool) : List (String × Setting) :=
  (recipes.map fun names => ("recipes", names)).toList ++ [("strict_mode", .boolean strict)]

/-- Migrates a text that is in no file. -/
def migrate (code : String) (recipes : Option Setting) (strict : Bool) :
    Except MigrationError String :=
  match Configuration.ofSettings (migrationSettings recipes strict) with
  | .error errors => .error (.misconfigured errors)
  | .ok configuration => (Run.start configuration code none 1).conversion.result

end JupiterMigration
