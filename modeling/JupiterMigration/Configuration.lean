import JupiterMigration.Recipe

/-!
# Configurations

What a run can be told: which recipes to apply and in which order, the unit of indentation, how many
workers convert many files, which files of a directory are converted, and whether warnings make a
conversion fail.
-/

namespace JupiterMigration

/-- The settings of a run. -/
structure Configuration where
  recipes : List Recipe
  /-- The unit of indentation; nothing if it is read off each file. -/
  indent : Option String
  workers : Nat
  /-- The pattern of the files to convert in a directory. -/
  filePattern : String
  /-- Whether warnings make a conversion fail. -/
  strict : Bool
  deriving DecidableEq, Repr

namespace Configuration

/-- The settings where nothing is asked for. -/
def standard : Configuration where
  recipes := Recipe.all
  indent := none
  workers := 1
  filePattern := "**/*.java"
  strict := false

end Configuration

end JupiterMigration
