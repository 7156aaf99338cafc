import JupiterMigration.Proofs.Initialization.Call
import JupiterMigration.Proofs.Initialization.Plan
import JupiterMigration.Proofs.Mentions

/-!
# How the tests of a migrated class are initialized

A test of a migrated class takes the planned parameters and hands them to the initializer, which
takes parameters of the same names (`Parameterized.initializes_of_migrate`).  The call has the
rendered text if the names are words joined by dots; the name of a receiver parameter may hide the
end of the call in a comment (`Parameterized.called_without_arguments`).
-/

namespace JupiterMigration

namespace Parameterized

open Java (IsPath isNamePart isWord)
open Member (RevisedAll)
open Synthesis

/-- The text of the statement that calls the initializer of a plan. -/
def ClassPlan.call (plan : ClassPlan) : String :=
  plan.initializerName ++ "(" ++ ", ".intercalate (plan.parameters.map (·.name)) ++ ");"

/-- The same statement, possibly after other white space and comments. -/
def SameStatement (statement other : Statement) : Prop :=
  ∃ lead, other = { statement with lead }

/-- A migrated test takes the planned parameters, and its body first calls the initializer. -/
structure CallsFirst (plan : ClassPlan) (test result : Method) : Prop where
  name : result.name = test.name
  texts : result.parameters.map (·.text) = plan.parameters.map (·.node.text)
  noBody : test.body = none → result.body = none
  body : ∀ block, test.body = some block →
    ∃ changed call statements, result.body = some changed ∧
      changed.statements = call :: statements ∧
      List.Forall₂ SameStatement block.statements statements ∧
      ((∀ parameter ∈ plan.parameters, IsPath parameter.name) → call.text = plan.call)

/-- The initializer of a migrated class. -/
inductive InitializedBy (plan : ClassPlan) (inner result : ClassDecl) : Prop
  /-- The planned constructor has become the initializer. -/
  | converted (constructor : Method)
      (own : .method constructor ∈ inner.members)
      (planned : plan.constructorId = some constructor.id)
      (names : constructor.parameters.map (·.name) = plan.parameters.map (·.name))
      (inside : .method { constructor with
        returnType := some "void"
        typeSpace := " "
        name := plan.initializerName } ∈ result.members)
      (sameLength : result.members.length = inner.members.length) :
      InitializedBy plan inner result
  /-- An initializer that assigns the planned fields in order has been added as the last member. -/
  | added (initializer : Method) (others : List Member) (unit : String)
      (last : result.members = others ++ [.method initializer])
      (sameLength : others.length = inner.members.length)
      (name : initializer.name = plan.initializerName)
      (isVoid : initializer.returnType = some "void")
      (made : Template.Made initializerTemplate
        [.text plan.initializerName,
          .sequence (plan.parameters.map fun parameter => .node (.parameter parameter.node)),
          .text (String.join (plan.parameters.map fun parameter =>
            "\n" ++ unit ++ assignment parameter))] (.method initializer)) :
      InitializedBy plan inner result

/-- A method that is to be migrated as a test calls the initializer first afterwards. -/
def CallsIfTest (scope : TypeScope) (plan : ClassPlan) (member other : Member) : Prop :=
  ∀ test mark, member = .method test → plan.constructorId ≠ some test.id →
    Marker.find? [.parameters] scope test.annotations = none →
    Marker.find? [.test, .jupiterTest] scope test.annotations = some mark →
    ∃ result, other = .method result ∧ CallsFirst plan test result

/-- A migrated class whose tests take the planned parameters and hand them to the initializer. -/
structure Initializes (scope : TypeScope) (plan : ClassPlan) (decl result : ClassDecl) : Prop where
  someParameter : plan.parameters ≠ []
  initializerName : plan.initializerName = "init" ++ decl.name
  tests : ∃ changed appended, result.members = changed ++ appended ∧
    List.Forall₂ (CallsIfTest scope plan) decl.members changed
  initializer : InitializedBy plan decl result

/-! ## Migrating the tests -/

/-- What a view of parameters that leaves their leads out sees of the parameters of a test. -/
theorem map_testParameters
    {β : Type}
    {view : Parameter → β}
    (leavesOut : ∀ parameter lead, view { parameter with lead } = view parameter)
    (parameters : List PlannedParameter) :
    (ClassMigration.testParameters parameters).map view =
      parameters.map fun parameter => view parameter.node := by
  cases parameters with
  | nil => rfl
  | cons first rest => simp [ClassMigration.testParameters, leavesOut]

theorem forall₂_onOwnLine (lead : String) (statements : List Statement) :
    List.Forall₂ SameStatement statements (ClassMigration.onOwnLine lead statements) := by
  have same (statements : List Statement) : List.Forall₂ SameStatement statements statements :=
    List.forall₂_same.mpr fun statement _ => ⟨statement.lead, rfl⟩
  cases statements with
  | nil => exact .nil
  | cons first rest =>
      rw [ClassMigration.onOwnLine]
      split
      · exact same _
      · exact .cons ⟨lead, rfl⟩ (same rest)

namespace ClassMigration

variable {migration : ClassMigration} {earlier later : Session} {className : String}

/-- The body of a migrated test begins with the call. -/
theorem calls_of_testBody
    {method : Method}
    {block result : Block}
    (named : migration.plan.initializerName = "init" ++ className)
    (namePart : isNamePart className = true)
    (someParameter : migration.plan.parameters ≠ [])
    (makes : (migration.testBody method block).Makes earlier result later) :
    ∃ call statements, result.statements = call :: statements ∧
      List.Forall₂ SameStatement block.statements statements ∧
      ((∀ parameter ∈ migration.plan.parameters, IsPath parameter.name) →
        call.text = migration.plan.call) := by
  obtain ⟨call, middle, makesCall, rest⟩ := makes_bind.mp makes
  obtain ⟨rfl, -⟩ := makes_pure.mp rest
  refine ⟨call, _, rfl, forall₂_onOwnLine _ _, fun arePaths => ?_⟩
  have spelled : isWord migration.plan.initializerName = true := by
    rw [named]
    exact Java.isWord_append (by decide) namePart
  refine text_of_call spelled (by simpa using someParameter) (fun name isName => ?_) makesCall
  obtain ⟨parameter, inside, rfl⟩ := List.mem_map.mp isName
  exact arePaths parameter inside

theorem callsFirst_of_migrateTest
    {test result : Method}
    {mark : Annotation}
    (named : migration.plan.initializerName = "init" ++ className)
    (namePart : isNamePart className = true)
    (someParameter : migration.plan.parameters ≠ [])
    (makes : (migration.migrateTest test mark).Makes earlier result later) :
    CallsFirst migration.plan test result := by
  obtain ⟨_, replacement, annotated, body, -, -, makesBody, rfl⟩ := makes_migrateTest makes
  refine ⟨rfl, map_testParameters (fun _ _ => rfl) _, fun noBody => ?_, fun block isBody => ?_⟩
  · rw [noBody] at makesBody
    exact (makes_pure.mp makesBody).1
  · rw [isBody] at makesBody
    obtain ⟨changed, last, makesBlock, rest⟩ := makes_bind.mp makesBody
    obtain ⟨rfl, -⟩ := makes_pure.mp rest
    obtain ⟨call, statements, parts⟩ := calls_of_testBody named namePart someParameter makesBlock
    exact ⟨changed, call, statements, rfl, parts⟩

theorem callsIfTest_of_migrateMember
    {member result : Member}
    (named : migration.plan.initializerName = "init" ++ className)
    (namePart : isNamePart className = true)
    (someParameter : migration.plan.parameters ≠ [])
    (makes : (migration.migrateMember member).Makes earlier result later) :
    CallsIfTest migration.scope migration.plan member result := by
  rintro test mark rfl notConstructor noFactory isTest
  obtain ⟨migrated, middle, makesMethod, rest⟩ := makes_bind.mp makes
  obtain ⟨rfl, -⟩ := makes_pure.mp rest
  unfold migrateMethod at makesMethod
  rw [if_neg notConstructor, noFactory, isTest] at makesMethod
  exact ⟨migrated, rfl, callsFirst_of_migrateTest named namePart someParameter makesMethod⟩

/-- The planned constructor becomes the initializer. -/
theorem converted_of_migrateMember
    {constructor : Method}
    {result : Member}
    (planned : migration.plan.constructorId = some constructor.id)
    (makes : (migration.migrateMember (.method constructor)).Makes earlier result later) :
    result = .method { constructor with
      returnType := some "void"
      typeSpace := " "
      name := migration.plan.initializerName } := by
  obtain ⟨migrated, middle, makesMethod, rest⟩ := makes_bind.mp makes
  obtain ⟨rfl, -⟩ := makes_pure.mp rest
  unfold migrateMethod at makesMethod
  rw [if_pos planned] at makesMethod
  rw [(makes_pure.mp makesMethod).1]

theorem eq_nil_of_newInitializer
    {results : List Member}
    (converted : migration.plan.newInitializer = none)
    (makes : migration.newInitializer.Makes earlier results later) : results = [] := by
  unfold newInitializer at makes
  dsimp only at makes
  rw [converted] at makes
  exact (makes_pure.mp makes).1

/-- What a new initializer is made of. -/
theorem made_of_newInitializer
    {lines : List String}
    {results : List Member}
    (asked : migration.plan.newInitializer = some lines)
    (makes : migration.newInitializer.Makes earlier results later) :
    ∃ member, results = [member] ∧ Template.Made initializerTemplate
      [.text migration.plan.initializerName,
        .sequence (migration.plan.parameters.map fun parameter =>
          .node (.parameter parameter.node)),
        .text (String.join (lines.map fun line => "\n" ++ migration.layout.unit ++ line))]
      member := by
  unfold newInitializer at makes
  dsimp only at makes
  rw [asked] at makes
  obtain ⟨member, middle, makesMember, rest⟩ := makes_bind.mp makes
  obtain ⟨rfl, -⟩ := makes_pure.mp rest
  exact ⟨member, rfl, Template.made_of_makes makesMember⟩

end ClassMigration

/-! ## Migrating a class -/

/-- What the migration of a class with revised members makes. -/
theorem initializes_of_makes
    {scope : TypeScope}
    {layout : Layout}
    {plan : ClassPlan}
    {entered inner result : ClassDecl}
    {earlier later : Session}
    (named : plan.initializerName = "init" ++ entered.name)
    (namePart : isNamePart entered.name = true)
    (someParameter : plan.parameters ≠ [])
    (receives : plan.Receives entered)
    (revised : List.Forall₂ (fun member other => member.class? = none → other = member)
      entered.members inner.members)
    (makes : (migrateClass scope layout plan inner).Makes earlier result later) :
    Initializes scope plan entered result := by
  obtain ⟨changed, middle, makesMembers, rest⟩ := makes_bind.mp makes
  obtain ⟨appended, last, makesInitializer, rest⟩ := makes_bind.mp rest
  obtain ⟨rfl, -⟩ := makes_pure.mp rest
  have each := forall₂_of_mapM makesMembers
  rw [withoutRunner_members] at each
  have whole := forall₂_comp revised each
  refine ⟨someParameter, named, ⟨changed, appended, rfl, ?_⟩, ?_⟩
  · refine whole.imp ?_
    rintro member other ⟨_, same, _, _, makesMember⟩ test mark rfl
    rw [same rfl] at makesMember
    exact ClassMigration.callsIfTest_of_migrateMember named namePart someParameter makesMember
      test mark rfl
  · cases receives with
    | constructor constructor own planned parameters converted =>
        have noMember := ClassMigration.eq_nil_of_newInitializer converted makesInitializer
        obtain ⟨other, isChanged, _, same, _, _, makesMember⟩ :=
          exists_of_forall₂ whole.flip own
        rw [same rfl] at makesMember
        refine .converted constructor own planned ?_ ?_ ?_
        · rw [parameters, PlannedParameter.map_name_ofParameter]
        · rw [← ClassMigration.converted_of_migrateMember planned makesMember]
          exact List.mem_append_left _ isChanged
        · dsimp only
          rw [noMember, List.append_nil]
          exact whole.length_eq.symm
    | fields noConstructor parameters assigns =>
        obtain ⟨member, rfl, made⟩ := ClassMigration.made_of_newInitializer assigns makesInitializer
        obtain ⟨decl, rfl, name_eq, isVoid⟩ := method_of_made namePart (named ▸ made)
        rw [List.map_map] at made
        exact .added decl changed layout.unit rfl whole.length_eq.symm (name_eq.trans named.symm)
          isVoid made

/-- A plan for one of the classes of a file is the plan for that class. -/
theorem ofClass_of_planned
    {unit : SourceUnit}
    (nodup : ((Member.classesAll unit.members).map (·.id)).Nodup)
    {entered : ClassDecl}
    {plan : ClassPlan}
    {session : Session}
    (inside : entered ∈ Member.classesAll unit.members)
    (planned : (entered.id, plan) ∈ ((collect unit).run session).1.plans) :
    ClassPlan.ofClass (TypeScope.ofUnit unit) entered = some plan := by
  rw [fst_run_collect nodup] at planned
  obtain ⟨other, otherLeft, isPlanned⟩ := List.mem_filterMap.mp planned
  obtain ⟨_, ofOther, same⟩ := Option.map_eq_some_iff.mp isPlanned
  obtain ⟨sameId, rfl⟩ := Prod.mk.inj same
  have otherInside := unit.perm_classesLeft.mem_iff.mp otherLeft
  rwa [List.inj_on_of_nodup_map nodup inside otherInside sameId.symm]

/--
In each class of a file that the recipe rewrites, the tests take the planned parameters and first
call the initializer.  The initializer is the planned constructor, with parameters of the names that
the call hands over, or a new last member made from the planned fields.
-/
theorem initializes_of_migrate
    {source : String}
    {path : Option String}
    {next : Nat}
    {result : SourceUnit × Nat}
    (parsed : SourceUnit.parse source path next = .ok result)
    (layout : Layout)
    (early session : Session) :
    let scope := TypeScope.ofUnit result.1
    let plans := ((collect result.1).run early).1.plans
    let migrated := ((migrate layout plans result.1).run session).1.1
    ∃ rewritten, RevisedAll
      (fun entered _ outcome => ∃ plan, ClassPlan.ofClass scope entered = some plan ∧
        Initializes scope plan entered outcome)
      rewritten result.1.members migrated.members := by
  have nodup := Member.nodup_classesAll_of_parse parsed
  have namePart := SourceUnit.namePart_of_parse parsed
  dsimp only
  rw [migrate_eq]
  refine Member.revisedAll_rewriteAll ?_ result.1.members (fun _ inside => inside) [] session
  refine decides_decideByPlan _ _ (records_migrateClass _ layout) ?_
  intro head members inner rewritten plan outcome earlier later inside revised planned makes
  have ofClass := ofClass_of_planned nodup inside planned
  obtain ⟨named, someParameter, receives⟩ := ClassPlan.receives_of_ofClass ofClass
  have isName : isNamePart head.name = true := by
    refine namePart head.name ?_
    rw [SourceUnit.nonImports, Member.classNames_filter_isImport]
    exact List.mem_map_of_mem inside
  exact ⟨plan, ofClass, initializes_of_makes named isName someParameter receives
    revised.forall₂_of_noClass makes⟩

/-- A parameterized class with two fields, of which the second one is received first. -/
def receivingFields : String :=
  "@org.junit.runner.RunWith(org.junit.runners.Parameterized.class)\nclass A \x7b\n" ++
    "    @org.junit.runners.Parameterized.Parameter(1) int x;\n" ++
    "    @org.junit.runners.Parameterized.Parameter(0) String s;\n" ++
    "    @org.junit.runners.Parameterized.Parameters\n" ++
    "    static Object f() \x7b return null; \x7d\n" ++
    "    @org.junit.Test void t() \x7b run(); \x7d\n\x7d\n"

theorem initializes_of_migrate_receivingFields :
    ∃ result, SourceUnit.parse receivingFields none 1 = .ok result ∧
      ∃ rewritten, RevisedAll
        (fun entered _ outcome => ∃ plan,
          ClassPlan.ofClass (TypeScope.ofUnit result.1) entered = some plan ∧
            Initializes (TypeScope.ofUnit result.1) plan entered outcome)
        rewritten result.1.members
        ((migrate (Layout.ofUnit result.1 none)
          ((collect result.1).run ⟨.empty, result.2⟩).1.plans result.1).run
            ⟨.empty, result.2⟩).1.1.members := by
  have accepted : (SourceUnit.parse receivingFields none 1).toBool = true := by decide +kernel
  obtain ⟨result, parsed⟩ := SourceUnit.exists_of_accepted accepted
  exact ⟨result, parsed, initializes_of_migrate parsed _ _ _⟩

/-- A parameterized class in another one, whose constructor hides the end of a call in a comment. -/
def hiddenReceiver : String :=
  "class Outer \x7b\n    @org.junit.runner.RunWith(org.junit.runners.Parameterized.class)\n" ++
    "    class A \x7b\n        A(Outer Outer. /* );//*/this, int x) \x7b\n        \x7d\n\n" ++
    "        @org.junit.runners.Parameterized.Parameters\n        static Object f() \x7b\n" ++
    "            return null;\n        \x7d\n\n        @org.junit.Test\n        void t() \x7b\n" ++
    "            run();\n        \x7d\n    \x7d\n\x7d\n"

/-- The classes of a source after the planned ones have been migrated. -/
def migratedClasses (source : String) : List ClassDecl :=
  match SourceUnit.parse source none 1 with
  | .ok (unit, next) =>
    let plans := ((collect unit).run ⟨.empty, next⟩).1.plans
    ((migrate (Layout.ofUnit unit none) plans unit).run ⟨.empty, next⟩).1.1.classes
  | .error _ => []

/-- The test and the initializer take two parameters, and the call hands over none. -/
theorem called_without_arguments :
    ∃ decl ∈ migratedClasses hiddenReceiver, decl.name = "A" ∧
      (∃ initializer ∈ decl.members.filterMap Member.method?,
        initializer.name = "initA" ∧ initializer.parameters.length = 2) ∧
      ∃ test ∈ decl.members.filterMap Member.method?,
        test.name = "t" ∧ test.parameters.length = 2 ∧
          test.body.map (fun block => block.statements.map (·.text)) =
            some ["initA();", "run();"] := by
  decide +kernel

end Parameterized

end JupiterMigration
