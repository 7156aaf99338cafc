import JupiterMigration.ExpectedException.Recipe
import JupiterMigration.Parameterized.Recipe

/-!
# Recipes

A recipe migrates one idiom.
-/

namespace JupiterMigration

/-- The recipes. -/
inductive Recipe where
  | parameterized
  | expectedException
  deriving DecidableEq, Repr

namespace Recipe

/-- All recipes, in the order in which they run by default. -/
def all : List Recipe := [parameterized, expectedException]

/-- The name that a recipe is chosen by. -/
def name : Recipe → String
  | parameterized => Parameterized.recipeName
  | expectedException => ExpectedException.recipeName

/-- The title of a recipe. -/
def title : Recipe → String
  | parameterized => "JUnit 4 Parameterized runner"
  | expectedException => "JUnit 4 ExpectedException rule"

/-- What a recipe does, in one line. -/
def description : Recipe → String
  | parameterized => "@RunWith(Parameterized.class) -> @ParameterizedTest + @MethodSource"
  | expectedException => "@Rule ExpectedException + expect*() -> assertThrows(...)"

/-- The type whose use makes a recipe apply. -/
def markerType : Recipe → String
  | parameterized => parameterizedType
  | expectedException => expectedExceptionType

/-- The rank of a recipe; lower ones run first. -/
def order : Recipe → Nat
  | parameterized => 10
  | expectedException => 20

/-- The recipe of a name, if there is one. -/
def ofName? (name : String) : Option Recipe :=
  all.find? (·.name == name)

/-- Applies a recipe to a file; nothing if the file is left as it is. -/
def apply (layout : Layout) (unit : SourceUnit) : Recipe → Migration (Option SourceUnit)
  | parameterized => (Parameterized.stages layout).apply unit
  | expectedException => (ExpectedException.stages layout).apply unit

end Recipe

end JupiterMigration
