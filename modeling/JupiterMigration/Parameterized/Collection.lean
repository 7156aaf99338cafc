import JupiterMigration.Journal
import JupiterMigration.Parameterized.Plan
import JupiterMigration.Tree.Traversal

/-!
# Collecting facts about parameterized classes

A walk through a file observes the members of classes and records the observations as facts about
the innermost class around them.  When the walk leaves a class, the facts about it are taken off
the board and the class is planned at once.
-/

namespace JupiterMigration

namespace Parameterized

/-- The name of the recipe. -/
def recipeName : String := "parameterized"

/-- What a member of a class says about the migration of the class. -/
inductive Observation where
  | factory (method : Method) (mark : Annotation)
  | constructor (method : Method) (delegating : Bool)
  | field (position : Int) (field : Field)
  | malformed (note : String)
  deriving DecidableEq, Repr

namespace Observation

/-- Whether a text is a call of another constructor. -/
def isDelegation (text : String) : Bool :=
  let follows (keyword : String) : Bool :=
    Text.beginsWith text keyword &&
      ((text.toList.drop keyword.length).dropWhile Text.isBlank).head? == some '('
  follows "this" || follows "super"

/-- Whether a constructor calls another one in a statement of its body. -/
def delegates (method : Method) : Bool :=
  ((method.body.map (·.statements)).getD []).any fun statement => isDelegation statement.text

/-- What a field with a mark says. -/
def ofMarkedField (field : Field) (mark : Annotation) : Observation :=
  match mark.element? "value" with
  | none => .field 0 field
  | some value =>
    match value.form with
    | .integer position => .field position field
    | _ =>
      .malformed ("@Parameter position '" ++ value.text ++ "' of field '" ++ field.name ++
        "' is not an integer literal")

/-- What a member says, if anything. -/
def ofMember? (scope : TypeScope) : Member → Option Observation
  | .method decl =>
    if decl.isConstructor then some (.constructor decl (delegates decl))
    else (Marker.find? [.parameters] scope decl.annotations).map (.factory decl)
  | .field decl => (Marker.find? [.parameter] scope decl.annotations).map (ofMarkedField decl)
  | _ => none

/-- Records an observation. -/
def record : Observation → Facts → Facts
  | factory method mark => Facts.recordFactory method mark
  | constructor method delegating => Facts.recordConstructor method delegating
  | field position decl => Facts.recordField position decl
  | malformed note => Facts.recordMalformed note

end Observation

/-- The facts that the direct members of a class amount to; nothing if they say nothing. -/
def Facts.ofClass (scope : TypeScope) (decl : ClassDecl) : Option Facts :=
  let observations := decl.members.filterMap (Observation.ofMember? scope)
  if observations.isEmpty then none
  else some (observations.foldl (fun facts observation => observation.record facts)
    (.empty decl.name))

/-- What a walk has gathered: the facts about the classes it is in, and the plans so far. -/
structure Collection where
  board : FactBoard
  /-- The plans in the order in which they were made, by the numbers of their classes. -/
  plans : List (Nat × ClassPlan)
  deriving DecidableEq, Repr

/-- The collection before a walk. -/
def Collection.empty : Collection := ⟨.empty, []⟩

/-- A step of a walk. -/
abbrev Collecting := StateT Collection Migration

namespace Collecting

/-- Records an observation about the innermost class. -/
def observe (above : List Node) (observation : Observation) : Collecting Unit :=
  match nearestClass? above with
  | some decl => modify fun collection =>
      { collection with board := collection.board.record decl.toClassHead observation.record }
  | none => pure ()

/-- Reports why a class with facts is not migrated, or only in part. -/
def report (facts : Facts) : Migration Unit := do
  facts.conflicts.forM fun conflict => Migration.warn (facts.className ++ ": " ++ conflict)
  facts.rejections.forM fun rejection =>
    Migration.warn (facts.className ++ ": not migrated, " ++ rejection)

/-- Plans a class with facts. -/
def plan (facts : Facts) : Migration (Option ClassPlan) := do
  report facts
  match classPlan facts with
  | .error violation =>
    Migration.warn (facts.className ++ ": malformed parameterized pattern: " ++ violation.message)
    return none
  | .ok (some plan) =>
    Migration.log .debug ("Planned " ++ plan.initializerName ++ " with parameters " ++
      Text.quotedTuple (plan.parameters.map (·.name)))
    return some plan
  | .ok none =>
    if facts.rejections.isEmpty then
      let factory := (facts.factory.map (·.name)).getD "None"
      Migration.skip facts.className ("incomplete pattern (factory: " ++ factory ++ ", mode: " ++
        facts.mode.name ++ ")")
    return none

/-- Plans a class that has the runner. -/
def planClass (name : String) (facts : Option Facts) : Migration (Option ClassPlan) := do
  Migration.record (.matched Marker.runner.pattern.signature name recipeName)
  match facts with
  | some facts => plan facts
  | none =>
    Migration.skip name "no @Parameters factory method"
    return none

/-- Leaves a class: takes its facts off the board and plans it if it has the runner. -/
def leaveClass (scope : TypeScope) (head : ClassHead) : Collecting Unit := do
  let facts := (← get).board.facts? head
  modify fun collection => { collection with board := collection.board.remove head }
  if (Marker.find? [.runner] scope head.annotations).isSome then
    if let some plan ← (planClass head.name facts : Migration (Option ClassPlan)) then
      modify fun collection => { collection with plans := collection.plans ++ [(head.id, plan)] }

/-- Leaves a node. -/
def leave (scope : TypeScope) (above : List Node) : Node → Collecting Unit
  | .member (.classDecl head _) => leaveClass scope head
  | .member member =>
    match Observation.ofMember? scope member with
    | some observation => observe above observation
    | none => pure ()
  | _ => pure ()

/-- The visitor that collects facts; it does not enter method bodies. -/
def visitor (scope : TypeScope) : Visitor Collecting where
  enter _ node := pure (node.kind != .block)
  leave := leave scope

end Collecting

/-- Walks through a file and collects facts and plans. -/
def collect (unit : SourceUnit) : Migration Collection := do
  let result ← ((Collecting.visitor (TypeScope.ofUnit unit)).visit unit).run .empty
  return result.2

end Parameterized

end JupiterMigration
