import JupiterMigration.ExpectedException.Collection
import JupiterMigration.ExpectedException.ClassMigration
import JupiterMigration.Recipe.Stages

/-!
# The recipe for expected exceptions

Rules for expected exceptions become assertions that statements throw.
-/

namespace JupiterMigration

namespace ExpectedException

/-- The imports that the new assertions need. -/
def requiredImports (progress : Progress) : List Imports.Change :=
  (if progress.usesMatchers then [.ensure "org.hamcrest.MatcherAssert.assertThat" true] else []) ++
    (if progress.usesAssertThrows then
      [.ensure "org.junit.jupiter.api.Assertions.assertThrows" true]
    else [])

/-- The imports before and after the migration. -/
def importUpdate (progress : Progress) : ImportUpdate where
  dropped := ["org.junit.Rule", "org.junit.ClassRule", expectedExceptionType]
  package := "org.junit.rules"
  packageTypes := ["DisableOnDebug", "ErrorCollector", "ExpectedException", "ExternalResource",
    "MethodRule", "RuleChain", "Stopwatch", "TemporaryFolder", "TestName", "TestRule",
    "TestWatcher", "TestWatchman", "Timeout", "Verifier"]
  required := requiredImports progress

/-- Migrates the planned classes of a file. -/
def migratePlans (layout : Layout) (plans : List (Nat × RulePlan)) (unit : SourceUnit) :
    Migration MigratedUnit := do
  let (unit, progress) ← migrate layout plans unit
  return ⟨unit, progress.migrated, importUpdate progress⟩

/-- The stages of the recipe. -/
def stages (layout : Layout) : Stages (Nat × RulePlan) where
  markerType := expectedExceptionType
  collectDetail := "Expected-exception scan"
  collect := collect
  migrateDetail count := toString count ++ " class(es) with ExpectedException"
  migrate := migratePlans layout
  importDetail := "Expected-exception import maintenance"
  summary := "Migrated ExpectedException rules in"

end ExpectedException

end JupiterMigration
