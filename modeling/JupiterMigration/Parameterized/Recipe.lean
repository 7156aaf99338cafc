import JupiterMigration.Parameterized.Collection
import JupiterMigration.Parameterized.ClassMigration
import JupiterMigration.Recipe.Stages

/-!
# The recipe for parameterized classes

Classes with the runner for parameterized classes become classes of parameterized tests that take
their arguments from a method.
-/

namespace JupiterMigration

namespace Parameterized

/-- The imports before and after the migration. -/
def importUpdate : ImportUpdate where
  dropped := ["org.junit.Test", "org.junit.runner.RunWith", "org.junit.runners.Parameterized",
    "org.junit.runners.Parameterized.Parameters", "org.junit.runners.Parameterized.Parameter",
    "org.junit.jupiter.api.Test"]
  package := "org.junit.runners"
  packageTypes := ["AllTests", "BlockJUnit4ClassRunner", "JUnit4", "MethodSorters",
    "Parameterized", "ParentRunner", "Suite"]
  required := [.ensure "org.junit.jupiter.params.ParameterizedTest" false,
    .ensure "org.junit.jupiter.params.provider.MethodSource" false]

/-- Migrates the planned classes of a file. -/
def migratePlans (layout : Layout) (plans : List (Nat × ClassPlan)) (unit : SourceUnit) :
    Migration MigratedUnit := do
  let (unit, classes) ← migrate layout plans unit
  return ⟨unit, classes, importUpdate⟩

/-- The stages of the recipe. -/
def stages (layout : Layout) : Stages (Nat × ClassPlan) where
  markerType := parameterizedType
  collectDetail := "Parameterized fact collection"
  collect unit := return (← collect unit).plans
  migrateDetail count := toString count ++ " parameterized class(es)"
  migrate := migratePlans layout
  importDetail := "Parameterized import maintenance"
  summary := "Migrated parameterized classes"

end Parameterized

end JupiterMigration
