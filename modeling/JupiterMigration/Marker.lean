import JupiterMigration.Marker.Pattern

/-!
# Marker annotations

The annotations that the recipes look for.
-/

namespace JupiterMigration

/-- The type of the runner for parameterized classes. -/
def parameterizedType : String := "org.junit.runners.Parameterized"

/-- The type of the rule for expected exceptions. -/
def expectedExceptionType : String := "org.junit.rules.ExpectedException"

/-- An annotation that a recipe looks for. -/
inductive Marker where
  /-- Chooses the runner for parameterized classes. -/
  | runner
  | test
  | jupiterTest
  /-- Marks the factory of the arguments. -/
  | parameters
  /-- Marks a field that receives an argument. -/
  | parameter
  | rule
  | classRule
  deriving DecidableEq, Repr

namespace Marker

/-- All markers. -/
def all : List Marker :=
  [runner, test, jupiterTest, parameters, parameter, rule, classRule]

/-- The pattern of a marker. -/
def pattern : Marker → AnnotationPattern
  | runner => ⟨"org.junit.runner.RunWith", some parameterizedType⟩
  | test => ⟨"org.junit.Test", none⟩
  | jupiterTest => ⟨"org.junit.jupiter.api.Test", none⟩
  | parameters => ⟨parameterizedType ++ ".Parameters", none⟩
  | parameter => ⟨parameterizedType ++ ".Parameter", none⟩
  | rule => ⟨"org.junit.Rule", none⟩
  | classRule => ⟨"org.junit.ClassRule", none⟩

/-- Whether an annotation is one of some markers. -/
def marks (markers : List Marker) (scope : TypeScope) (use : Annotation) : Bool :=
  markers.any fun marker => marker.pattern.describes scope use

/-- The first annotation that is one of some markers. -/
def find? (markers : List Marker) (scope : TypeScope) (uses : List Annotation) :
    Option Annotation :=
  List.find? (marks markers scope) uses

end Marker

end JupiterMigration
