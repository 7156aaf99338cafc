import JupiterMigration.ExpectedException.Plan
import JupiterMigration.Template
import JupiterMigration.Tree.Edit
import JupiterMigration.Tree.Traversal

/-!
# Migrating classes with a rule for expected exceptions

A planned class loses its rule field.  The statements of a planned method, apart from the
expectations, move into the lambda of an assertion that names the expected type and message.  Where
a matcher is expected, the thrown exception is bound to a fresh name and the matchers are asserted
on it afterwards.

If some new node cannot be made, the class stays as it was.
-/

namespace JupiterMigration

namespace ExpectedException

/-- The exception type where none is expected. -/
def defaultType : String := "Exception"

/-- The preferred name for the thrown exception. -/
def bindingBase : String := "exception"

/-- The assertion that statements throw. -/
def throwsTemplate : String :=
  "assertThrows(#\x7b\x7d.class, () -> \x7b#\x7b\x7d\n\x7d#\x7b\x7d);"

/-- The assertion that statements throw, with a name for what is thrown. -/
def boundThrowsTemplate : String := "#\x7b\x7d #\x7b\x7d = " ++ throwsTemplate

/-- The assertion that a matcher holds, for the kinds that are checked by one. -/
def matcherTemplate : ExpectationKind → String
  | .messageMatcher => "assertThat(#\x7b\x7d.getMessage(), #\x7b\x7d);"
  | .causeMatcher => "assertThat(#\x7b\x7d.getCause(), #\x7b\x7d);"
  | _ => "assertThat(#\x7b\x7d, #\x7b\x7d);"

/-- The base name if it is not taken, or else the base with the least number that is not taken. -/
def freshName (base : String) (taken : List String) : String :=
  if taken.contains base then
    let numbered := (List.range (taken.length + 1)).map fun count => base ++ toString (count + 1)
    (numbered.find? fun name => !taken.contains name).getD base
  else base

namespace MethodPlan

/-- The expected exception type. -/
def exceptionType (plan : MethodPlan) : String :=
  ((plan.expectation? .type).bind (·.argument.classType?)).getD defaultType

/-- The message as a further argument, written from the first column on. -/
def messageArgument (plan : MethodPlan) (indent : String) : String :=
  match plan.expectation? .message with
  | some expectation => ", " ++ Layout.shiftFrom expectation.argument.text indent ""
  | none => ""

/-- The statements that move into the lambda; the first leading one gets a line of its own. -/
def moved (plan : MethodPlan) (indent : String) : List Statement :=
  match plan.leading with
  | [] => plan.body
  | first :: rest => { first with lead := "\n" ++ indent } :: rest ++ plan.body

/-- What stands before the migrated statements. -/
def lead (plan : MethodPlan) : String :=
  match plan.leading with
  | first :: _ => first.lead
  | [] => plan.anchor.lead

end MethodPlan

/-- The names that may not be used for the thrown exception. -/
def takenNames (method : Method) : List String :=
  (Member.method method).namesUsed ++ method.parameters.map (·.name)

/-- The assertion of a matcher on the thrown exception. -/
def matcherStatement (binding indent : String) (expectation : Expectation) : Synthesis Statement :=
  Template.statement (matcherTemplate expectation.kind)
    [.text binding, .text (Layout.shiftFrom expectation.argument.text indent "")] indent
    ("\n" ++ indent)

/-- The statements of a migrated method. -/
def assertions (layout : Layout) (plan : MethodPlan) (method : Method) (indent : String) :
    Synthesis (List Statement) := do
  let type := plan.exceptionType
  let lambda := layout.lambdaBody (plan.moved indent) indent
  let message := plan.messageArgument indent
  if plan.usesMatchers then
    let binding := freshName bindingBase (takenNames method)
    let throwing ← Template.statement boundThrowsTemplate
      [.text type, .text binding, .text type, .text lambda, .text message] indent plan.lead
    let matchers := plan.expectations.filter (·.kind.isMatcher)
    return throwing :: (← matchers.mapM (matcherStatement binding indent))
  else
    let throwing ← Template.statement throwsTemplate
      [.text type, .text lambda, .text message] indent plan.lead
    return [throwing]

/-- Migrates a planned method. -/
def migrateMethod (layout : Layout) (memberIndent : String) (plan : MethodPlan) (method : Method) :
    Synthesis Method := do
  let statements ← assertions layout plan method (layout.statementIndent method memberIndent)
  return { method with body := method.body.map fun block => { block with statements } }

/-- Migrates a member if it is a planned method. -/
def migrateMember (layout : Layout) (memberIndent : String) (plan : RulePlan) :
    Member → Synthesis Member
  | .method decl => do
    match plan.methods.lookup decl.id with
    | some methodPlan => return .method (← migrateMethod layout memberIndent methodPlan decl)
    | none => return .method decl
  | member => return member

/-- The members of a class without the one that has the given number. -/
def withoutMember (id : Nat) (members : List Member) : List Member :=
  match members.findIdx? (·.id == id) with
  | some position => Member.removeAt position members
  | none => members

/-- Migrates a class by its plan. -/
def migrateClass (layout : Layout) (plan : RulePlan) (decl : ClassDecl) : Synthesis ClassDecl := do
  let memberIndent := layout.memberIndent decl
  let members ← (withoutMember plan.fieldId decl.members).mapM
    (migrateMember layout memberIndent plan)
  return { decl with members }

/-- What the migration of classes has done so far. -/
structure Progress where
  /-- The names of the migrated classes. -/
  migrated : List String
  usesAssertThrows : Bool
  usesMatchers : Bool
  deriving DecidableEq, Repr

/-- Nothing has been done yet. -/
def Progress.start : Progress := ⟨[], false, false⟩

/-- The progress after a class has been migrated by a plan. -/
def Progress.add (name : String) (plan : RulePlan) (progress : Progress) : Progress where
  migrated := progress.migrated ++ [name]
  usesAssertThrows := progress.usesAssertThrows || !plan.methods.isEmpty
  usesMatchers := progress.usesMatchers || plan.methods.any (·.2.usesMatchers)

/-- A step of the migration of classes. -/
abbrev Migrating := StateT Progress Migration

/-- Migrates a class if it is planned, and leaves it as it is if a new node cannot be made. -/
def leaveClass (layout : Layout) (plans : List (Nat × RulePlan)) (entered decl : ClassDecl) :
    Migrating (Edit Member) := do
  match plans.lookup entered.id with
  | none => return .keep
  | some plan =>
    match ← (migrateClass layout plan decl).run with
    | .error error =>
      (Migration.warn (entered.name ++ ": reverted, synthesis failed: " ++ error.message) :
        Migration Unit)
      return .keep
    | .ok result =>
      modify (Progress.add entered.name plan)
      (Migration.record (.transformed "ClassNode" decl.print result.print) : Migration Unit)
      return .replace result.toMember

/-- Migrates a member if it is a planned class. -/
def leaveMember (layout : Layout) (plans : List (Nat × RulePlan)) (leaving : Leaving Member) :
    Migrating (Edit Member) :=
  match leaving.entered.class?, leaving.current.class? with
  | some entered, some decl => leaveClass layout plans entered decl
  | _, _ => return .keep

/-- The editor for planned classes. -/
def classEditor (layout : Layout) (plans : List (Nat × RulePlan)) : Editor Migrating :=
  { Editor.identity with leaveMember := leaveMember layout plans }

/-- Migrates the planned classes of a file. -/
def migrate (layout : Layout) (plans : List (Nat × RulePlan)) (unit : SourceUnit) :
    Migration (SourceUnit × Progress) := do
  let (edit, progress) ← ((classEditor layout plans).edit unit).run .start
  return ((edit.apply unit).getD unit, progress)

end ExpectedException

end JupiterMigration
