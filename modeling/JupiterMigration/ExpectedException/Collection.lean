import JupiterMigration.ExpectedException.Plan
import JupiterMigration.Journal
import JupiterMigration.Tree.Traversal

/-!
# Collecting plans for classes with a rule

A walk through a file plans every class that has a rule for expected exceptions when it leaves the
class.
-/

namespace JupiterMigration

namespace ExpectedException

/-- The name of the recipe. -/
def recipeName : String := "expected_exception"

/-- A step of a walk; the plans so far, by the numbers of their classes. -/
abbrev Collecting := StateT (List (Nat × RulePlan)) Migration

namespace Collecting

/-- Reports that a class has rule fields but not the single one that could be migrated. -/
def reportFields (scope : TypeScope) (name : String) (members : List Member) : Migration Unit := do
  let count := (ruleFields scope members).length
  if count ≠ 0 then
    Migration.log .debug (name ++ ": " ++ toString count ++
      " ExpectedException rule fields, not migrating")

/-- Plans a class when it is left. -/
def leaveClass (scope : TypeScope) (head : ClassHead) (members : List Member) :
    Collecting Unit := do
  match ruleField? scope members with
  | none => (reportFields scope head.name members : Migration Unit)
  | some rule =>
    match scanClass rule members with
    | .error reason => (Migration.skip head.name reason.message : Migration Unit)
    | .ok plan =>
      (Migration.record (.matched ("@org.junit.Rule " ++ expectedExceptionType)
        (head.name ++ "." ++ plan.fieldName) recipeName) : Migration Unit)
      modify (· ++ [(head.id, plan)])

/-- Leaves a node. -/
def leave (scope : TypeScope) (_above : List Node) : Node → Collecting Unit
  | .member (.classDecl head members) => leaveClass scope head members
  | _ => pure ()

/-- The visitor that collects plans; it does not enter method bodies. -/
def visitor (scope : TypeScope) : Visitor Collecting where
  enter _ node := pure (node.kind != .block)
  leave := leave scope

end Collecting

/-- Walks through a file and collects plans. -/
def collect (unit : SourceUnit) : Migration (List (Nat × RulePlan)) := do
  let result ← ((Collecting.visitor (TypeScope.ofUnit unit)).visit unit).run []
  return result.2

end ExpectedException

end JupiterMigration
