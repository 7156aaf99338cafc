import JupiterMigration.Parameterized.Plan
import JupiterMigration.Template
import JupiterMigration.Tree.Traversal

/-!
# Migrating parameterized classes

A planned class loses the runner and the mark of its factory.  Its constructor becomes the
initializer, or an initializer that assigns the marked fields is added at the end.  Every test takes
the planned parameters, names the factory as the source of its arguments, and calls the initializer
first.

If some new node cannot be made, the class stays as it was; warnings remain.
-/

namespace JupiterMigration

namespace Parameterized

/-- The method that assigns the fields. -/
def initializerTemplate : String := "public void #\x7b\x7d(#\x7b\x7d) \x7b#\x7b\x7d\n\x7d"

/-- The statement that calls the initializer. -/
def initializerCallTemplate : String := "#\x7b\x7d(#\x7b\x7d);"

/-- The annotation that names the factory. -/
def methodSourceTemplate : String := "@MethodSource(\"#\x7b\x7d\")"

/-- The annotation of a test. -/
def testTemplate : String := "@ParameterizedTest"

/-- The annotation of a test with named invocations. -/
def namedTestTemplate : String := "@ParameterizedTest(name = #\x7b\x7d)"

/-- What the migration of a class depends on. -/
structure ClassMigration where
  scope : TypeScope
  layout : Layout
  plan : ClassPlan
  /-- The column of the members. -/
  memberIndent : String

namespace ClassMigration

/-- The planned parameters as the parameters of a test. -/
def testParameters : List PlannedParameter → List Parameter
  | [] => []
  | first :: rest =>
    { first.node with lead := "" } :: rest.map fun parameter => { parameter.node with lead := " " }

/-- The annotations with the mark of a test replaced by others. -/
def replaceMark (mark : Annotation) (replacement : List Annotation) (uses : List Annotation) :
    List Annotation :=
  uses.flatMap fun use => if use.id = mark.id then replacement else [use]

/-- The annotations that take the place of the mark of a test. -/
def testAnnotations (migration : ClassMigration) (method : Method) (mark : Annotation) :
    Synthesis (List Annotation) := do
  let plan := migration.plan
  let source ← Template.annotationUse methodSourceTemplate [.text plan.factoryName] mark.lead
  let lead := if method.declLead.toList.contains '\n' then method.declLead else " "
  let test ←
    match plan.nameTemplate with
    | some name => Template.annotationUse namedTestTemplate [.text name] lead
    | none => Template.annotationUse testTemplate [] lead
  return [source, test]

/-- Statements of which the first begins on a line of its own. -/
def onOwnLine (lead : String) : List Statement → List Statement
  | [] => []
  | first :: rest =>
    if first.lead.toList.contains '\n' then first :: rest else { first with lead } :: rest

/-- The body of a test that calls the initializer first. -/
def testBody (migration : ClassMigration) (method : Method) (block : Block) : Synthesis Block := do
  let plan := migration.plan
  let lead := "\n" ++ migration.layout.statementIndent method migration.memberIndent
  let call ← Template.statement initializerCallTemplate
    [.text plan.initializerName, .texts (plan.parameters.map (·.name))] "" lead
  return { block with
    statements := call :: onOwnLine lead block.statements
    closing :=
      if block.closing.toList.contains '\n' then block.closing
      else "\n" ++ migration.memberIndent }

/-- Migrates a test. -/
def migrateTest (migration : ClassMigration) (method : Method) (mark : Annotation) :
    Synthesis Method := do
  let plan := migration.plan
  if !mark.arguments.isEmpty then
    (Migration.warn (plan.className ++ "." ++ method.name ++ ": dropping @Test arguments '" ++
      mark.text ++ "'") : Migration Unit)
  let replacement ← migration.testAnnotations method mark
  let body ← method.body.mapM (migration.testBody method)
  return { method with
    annotations := replaceMark mark replacement method.annotations
    parameters := testParameters plan.parameters
    emptySpace := ""
    body }

/-- Migrates a method: the constructor, the factory, a test, or none of these. -/
def migrateMethod (migration : ClassMigration) (method : Method) : Synthesis Method := do
  if migration.plan.constructorId = some method.id then
    return { method with
      returnType := some "void"
      typeSpace := " "
      name := migration.plan.initializerName }
  else
    match Marker.find? [.parameters] migration.scope method.annotations,
        Marker.find? [.test, .jupiterTest] migration.scope method.annotations with
    | some mark, _ => return method.eraseAnnotation mark.id
    | none, some mark => migration.migrateTest method mark
    | none, none => return method

/-- Migrates a field: those that the initializer assigns lose their mark. -/
def migrateField (migration : ClassMigration) (field : Field) : Field :=
  if migration.plan.fieldIds.contains field.id then
    match Marker.find? [.parameter] migration.scope field.annotations with
    | some mark => field.eraseAnnotation mark.id
    | none => field
  else field

/-- Migrates a member. -/
def migrateMember (migration : ClassMigration) : Member → Synthesis Member
  | .method decl => return .method (← migration.migrateMethod decl)
  | .field decl => return .field (migration.migrateField decl)
  | member => return member

/-- The new initializer, unless the constructor becomes the initializer. -/
def newInitializer (migration : ClassMigration) : Synthesis (List Member) := do
  let plan := migration.plan
  match plan.newInitializer with
  | none => return []
  | some lines =>
    let body := String.join (lines.map fun line => "\n" ++ migration.layout.unit ++ line)
    let member ← Template.member initializerTemplate
      [.text plan.initializerName,
        .sequence (plan.parameters.map fun parameter => .node (.parameter parameter.node)),
        .text body]
      migration.memberIndent ("\n\n" ++ migration.memberIndent)
    return [member]

end ClassMigration

/-- The class without the runner. -/
def withoutRunner (scope : TypeScope) (decl : ClassDecl) : ClassDecl :=
  match Marker.find? [.runner] scope decl.annotations with
  | some mark => { decl with toClassHead := decl.toClassHead.eraseAnnotation mark.id }
  | none => decl

/-- Migrates a class by its plan. -/
def migrateClass (scope : TypeScope) (layout : Layout) (plan : ClassPlan) (decl : ClassDecl) :
    Synthesis ClassDecl := do
  let decl := withoutRunner scope decl
  let migration : ClassMigration := ⟨scope, layout, plan, layout.memberIndent decl⟩
  let members ← decl.members.mapM migration.migrateMember
  return { decl with members := members ++ (← migration.newInitializer) }

/-- A step of the migration of classes that notes the names of the classes it has migrated. -/
abbrev Migrating := StateT (List String) Migration

/-- Migrates a class if it is planned, and leaves it as it is if a new node cannot be made. -/
def leaveClass (scope : TypeScope) (layout : Layout) (plans : List (Nat × ClassPlan))
    (entered decl : ClassDecl) : Migrating (Edit Member) := do
  match plans.lookup entered.id with
  | none => return .keep
  | some plan =>
    match ← (migrateClass scope layout plan decl).run with
    | .error error =>
      (Migration.warn (entered.name ++ ": reverted, synthesis failed: " ++ error.message) :
        Migration Unit)
      return .keep
    | .ok result =>
      modify (· ++ [entered.name])
      (Migration.record (.transformed "ClassNode" decl.print result.print) : Migration Unit)
      return .replace result.toMember

/-- Migrates a member if it is a planned class. -/
def leaveMember (scope : TypeScope) (layout : Layout) (plans : List (Nat × ClassPlan))
    (leaving : Leaving Member) : Migrating (Edit Member) :=
  match leaving.entered.class?, leaving.current.class? with
  | some entered, some decl => leaveClass scope layout plans entered decl
  | _, _ => return .keep

/-- The editor for planned classes. -/
def classEditor (scope : TypeScope) (layout : Layout) (plans : List (Nat × ClassPlan)) :
    Editor Migrating :=
  { Editor.identity with leaveMember := leaveMember scope layout plans }

/-- Migrates the planned classes of a file; also gives their names. -/
def migrate (layout : Layout) (plans : List (Nat × ClassPlan)) (unit : SourceUnit) :
    Migration (SourceUnit × List String) := do
  let (edit, migrated) ← ((classEditor (TypeScope.ofUnit unit) layout plans).edit unit).run []
  return ((edit.apply unit).getD unit, migrated)

end Parameterized

end JupiterMigration
