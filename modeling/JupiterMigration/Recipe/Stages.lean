import JupiterMigration.Imports

/-!
# The stages of a recipe

A recipe looks for its marker type, collects plans, migrates the planned classes and brings the
imports up to date.  It stops early, and then leaves the file as it is, if the file does not use the
marker type, if nothing is planned, or if no class was migrated.
-/

namespace JupiterMigration

/-- How the imports of a migrated file are brought up to date. -/
structure ImportUpdate where
  /-- The imports that go unless they are still used. -/
  dropped : List String
  /-- The package whose import on demand goes unless one of its types is still used. -/
  package : String
  /-- The public types of that package. -/
  packageTypes : List String
  /-- The imports that are added if they are missing, in this order. -/
  required : List Imports.Change
  deriving DecidableEq, Repr

/-- The changes of an update, one after the other. -/
def ImportUpdate.changes (update : ImportUpdate) : List Imports.Change :=
  update.dropped.map (fun name => .removeIfUnused name false) ++
    [.removeWildcardIfUnused update.package update.packageTypes] ++ update.required

/-- A file after the planned classes have been migrated. -/
structure MigratedUnit where
  unit : SourceUnit
  /-- The names of the migrated classes. -/
  classes : List String
  imports : ImportUpdate

/-- The stages of a recipe whose plans are of some type. -/
structure Stages (Plan : Type) where
  markerType : String
  collectDetail : String
  collect : SourceUnit → Migration (List Plan)
  /-- What the migration of a number of classes is called. -/
  migrateDetail : Nat → String
  migrate : List Plan → SourceUnit → Migration MigratedUnit
  importDetail : String
  /-- What introduces the names of the migrated classes in the log. -/
  summary : String

namespace Stages

variable {Plan : Type}

/-- Runs a step as a phase of the trace. -/
def phase {α : Type} (name detail : String) (step : Migration α) : Migration α := do
  Migration.startPhase name detail
  let result ← step
  Migration.endPhase
  return result

/-- Brings the imports of a migrated file up to date. -/
def finish (stages : Stages Plan) (result : MigratedUnit) : Migration SourceUnit := do
  let unit ← phase "Imports" stages.importDetail
    (Imports.makeAll result.imports.changes result.unit)
  Migration.log .debug (stages.summary ++ ": " ++ ", ".intercalate result.classes)
  return unit

/-- Migrates the planned classes; nothing if none was migrated. -/
def migratePlanned (stages : Stages Plan) (plans : List Plan) (unit : SourceUnit) :
    Migration (Option SourceUnit) := do
  let result ← phase "Rewrite" (stages.migrateDetail plans.length) (stages.migrate plans unit)
  if result.classes.isEmpty then return none
  return some (← stages.finish result)

/-- Applies a recipe to a file; nothing if the file is left as it is. -/
def apply (stages : Stages Plan) (unit : SourceUnit) : Migration (Option SourceUnit) := do
  if unit.usesType stages.markerType then
    let plans ← phase "Collect" stages.collectDetail (stages.collect unit)
    if plans.isEmpty then return none
    stages.migratePlanned plans unit
  else return none

end Stages

end JupiterMigration
