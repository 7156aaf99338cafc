import JupiterMigration.Proofs.Renumbering.Facts

/-!
# Parameterized classes in two runs

The plan with other numbers has the same effect on the class with other numbers, apart from the
numbers (`Parameterized.renumbers_migrateClass`).
-/

namespace JupiterMigration

namespace Parameterized

variable (number : Nat → Nat)

namespace ClassMigration

/-- The migration of a class by the plan with other numbers in it. -/
def renumbered (migration : ClassMigration) : ClassMigration :=
  { migration with plan := migration.plan.renumbered number }

/-! ## Tests -/

theorem testParameters_renumbered (parameters : List PlannedParameter) :
    testParameters (parameters.map (PlannedParameter.renumbered number)) =
      (testParameters parameters).map (Parameter.renumbered number) := by
  cases parameters with
  | nil => rfl
  | cons first rest =>
      rw [List.map_cons, testParameters, testParameters, List.map_cons, List.map_map, List.map_map]
      rfl

theorem onOwnLine_renumbered (lead : String) (statements : List Statement) :
    onOwnLine lead (statements.map (Statement.renumbered number)) =
      (onOwnLine lead statements).map (Statement.renumbered number) := by
  cases statements with
  | nil => rfl
  | cons first rest =>
      have lead_eq : (first.renumbered number).lead = first.lead := rfl
      rw [List.map_cons, onOwnLine, onOwnLine, lead_eq]
      split <;> rfl

theorem replaceMark_renumbered
    (injective : Function.Injective number)
    (mark : Annotation)
    (replacement uses : List Annotation) :
    replaceMark (mark.renumbered number) (replacement.map ( Annotation.renumbered number))
        (uses.map ( Annotation.renumbered number)) =
      (replaceMark mark replacement uses).map ( Annotation.renumbered number) := by
  unfold replaceMark
  rw [List.flatMap_map, List.map_flatMap]
  refine congrArg (fun change => uses.flatMap change) (funext fun use => ?_)
  have same : (use.renumbered number).id = (mark.renumbered number).id ↔ use.id = mark.id :=
    injective.eq_iff
  simp only [same]
  split <;> rfl

variable {number} (migration : ClassMigration)

theorem renumbers_testAnnotations (method : Method) (mark : Annotation) :
    (Synthesis.renumbering number).Holds
      (fun uses others => others = uses.map ( Annotation.renumbered number))
      (migration.testAnnotations method mark)
      ((migration.renumbered number).testAnnotations (method.renumbered number)
        (mark.renumbered number)) := by
  have plan_eq : (migration.renumbered number).plan.nameTemplate =
      migration.plan.nameTemplate := rfl
  unfold testAnnotations
  dsimp only
  rw [plan_eq]
  refine (Synthesis.renumbering number).bind
    (Template.renumbers_annotationUse _ _ _) fun source _ sources => ?_
  cases migration.plan.nameTemplate with
  | some name =>
      refine (Synthesis.renumbering number).bind
        (Template.renumbers_annotationUse _ _ _) fun test _ tests => ?_
      exact (Synthesis.renumbering number).pure (by rw [sources, tests]; rfl)
  | none =>
      refine (Synthesis.renumbering number).bind
        (Template.renumbers_annotationUse _ _ _) fun test _ tests => ?_
      exact (Synthesis.renumbering number).pure (by rw [sources, tests]; rfl)

theorem renumbers_testBody (method : Method) (block : Block) :
    (Synthesis.renumbering number).Holds (fun result other => other = result.renumbered number)
      (migration.testBody method block)
      ((migration.renumbered number).testBody (method.renumbered number)
        (block.renumbered number)) := by
  have names_eq : (migration.renumbered number).plan.parameters.map (·.name) =
      migration.plan.parameters.map (·.name) := List.map_map
  have initializer_eq : (migration.renumbered number).plan.initializerName =
      migration.plan.initializerName := rfl
  have layout_eq : (migration.renumbered number).layout = migration.layout := rfl
  have statements_eq : (block.renumbered number).statements =
      block.statements.map (Statement.renumbered number) := rfl
  unfold testBody
  dsimp only
  rw [layout_eq, Layout.statementIndent_renumbered, names_eq, initializer_eq, statements_eq,
    onOwnLine_renumbered]
  refine (Synthesis.renumbering number).bind
    (Template.renumbers_statement _ _ _ _) fun call _ calls => ?_
  exact (Synthesis.renumbering number).pure (by rw [calls]; rfl)

theorem renumbers_migrateTest
    (injective : Function.Injective number)
    (method : Method)
    (mark : Annotation) :
    (Synthesis.renumbering number).Holds (fun result other => other = result.renumbered number)
      (migration.migrateTest method mark)
      ((migration.renumbered number).migrateTest (method.renumbered number)
        (mark.renumbered number)) := by
  have parameters_eq : (migration.renumbered number).plan.parameters =
      migration.plan.parameters.map (PlannedParameter.renumbered number) := rfl
  have annotations_eq : (method.renumbered number).annotations =
      method.annotations.map ( Annotation.renumbered number) := rfl
  have body_eq : (method.renumbered number).body = method.body.map (Block.renumbered number) := rfl
  have rest : (Synthesis.renumbering number).Holds
      (fun result other => other = result.renumbered number)
      (do
        let replacement ← migration.testAnnotations method mark
        let body ← method.body.mapM (migration.testBody method)
        return { method with
          annotations := replaceMark mark replacement method.annotations
          parameters := testParameters migration.plan.parameters
          emptySpace := ""
          body })
      (do
        let replacement ← (migration.renumbered number).testAnnotations (method.renumbered number)
          (mark.renumbered number)
        let body ← (method.renumbered number).body.mapM
          ((migration.renumbered number).testBody (method.renumbered number))
        return { method.renumbered number with
          annotations := replaceMark (mark.renumbered number) replacement
            (method.renumbered number).annotations
          parameters := testParameters (migration.renumbered number).plan.parameters
          emptySpace := ""
          body }) := by
    rw [parameters_eq, testParameters_renumbered, annotations_eq, body_eq]
    refine (Synthesis.renumbering number).bind
      (renumbers_testAnnotations migration method mark) ?_
    rintro replacement _ rfl
    rw [replaceMark_renumbered number injective]
    refine (Synthesis.renumbering number).bind ((Synthesis.renumbering number).optionMapM_image
      (renumbers_testBody migration method) method.body) ?_
    rintro body _ rfl
    exact (Synthesis.renumbering number).pure rfl
  have arguments_eq : (mark.renumbered number).arguments = mark.arguments := rfl
  unfold migrateTest
  rw [arguments_eq]
  split
  · exact (Synthesis.renumbering number).bind ((Migration.renumbering number).orFailing_lift
      (Migration.renumbers_warn _)) fun _ _ _ => rest
  · exact rest

theorem renumbers_migrateMethod
    (injective : Function.Injective number)
    (method : Method) :
    (Synthesis.renumbering number).Holds (fun result other => other = result.renumbered number)
      (migration.migrateMethod method)
      ((migration.renumbered number).migrateMethod (method.renumbered number)) := by
  have same : (migration.renumbered number).plan.constructorId =
      some (method.renumbered number).id ↔ migration.plan.constructorId = some method.id :=
    (Option.map_injective injective).eq_iff' rfl
  have scope_eq : (migration.renumbered number).scope = migration.scope := rfl
  have found (markers : List Marker) :
      Marker.find? markers migration.scope (method.renumbered number).annotations =
        (Marker.find? markers migration.scope method.annotations).map
          ( Annotation.renumbered number) := Marker.find?_renumbered number _ _ _
  unfold migrateMethod
  simp only [same, scope_eq, found]
  split
  · exact (Synthesis.renumbering number).pure rfl
  · cases Marker.find? [.parameters] migration.scope method.annotations with
    | some mark =>
        exact (Synthesis.renumbering number).pure
          (method.eraseAnnotation_renumbered injective mark.id)
    | none =>
        cases Marker.find? [.test, .jupiterTest] migration.scope method.annotations with
        | some mark => exact renumbers_migrateTest migration injective method mark
        | none => exact (Synthesis.renumbering number).pure rfl

theorem migrateField_renumbered
    (injective : Function.Injective number)
    (field : Field) :
    (migration.renumbered number).migrateField (field.renumbered number) =
      (migration.migrateField field).renumbered number := by
  have same : (migration.renumbered number).plan.fieldIds.contains (field.renumbered number).id =
      migration.plan.fieldIds.contains field.id := by
    rw [Bool.eq_iff_iff, List.contains_iff_mem, List.contains_iff_mem]
    exact List.mem_map_of_injective injective
  have found : Marker.find? [.parameter] (migration.renumbered number).scope
      (field.renumbered number).annotations =
        (Marker.find? [.parameter] migration.scope field.annotations).map
          ( Annotation.renumbered number) := Marker.find?_renumbered number _ _ _
  unfold migrateField
  rw [same, found]
  split
  · cases Marker.find? [.parameter] migration.scope field.annotations with
    | some mark => exact field.eraseAnnotation_renumbered injective mark.id
    | none => rfl
  · rfl

theorem renumbers_migrateMember
    (injective : Function.Injective number)
    (member : Member) :
    (Synthesis.renumbering number).Holds (fun result other => other = result.renumbered number)
      (migration.migrateMember member)
      ((migration.renumbered number).migrateMember (member.renumbered number)) := by
  cases member with
  | method decl =>
      refine (Synthesis.renumbering number).bind
        (renumbers_migrateMethod migration injective decl) fun _ _ method => ?_
      exact (Synthesis.renumbering number).pure (by rw [method]; rfl)
  | field decl =>
      exact (Synthesis.renumbering number).pure
        (congrArg Member.field (migrateField_renumbered migration injective decl))
  | classDecl head members =>
      rw [Member.renumbered_classDecl]
      exact (Synthesis.renumbering number).pure (Member.renumbered_classDecl number _ _).symm
  | importDecl _ | verbatim _ => exact (Synthesis.renumbering number).pure rfl

/-! ## The new initializer -/

theorem bindAll_parameters_renumbered (parameters : List PlannedParameter) :
    Template.Value.bindAll ((parameters.map (PlannedParameter.renumbered number)).map
        fun parameter => .node (.parameter parameter.node)) =
      Template.Value.bindAll
        (parameters.map fun parameter => .node (.parameter parameter.node)) := by
  induction parameters with
  | nil => rfl
  | cons first rest inductionHypothesis =>
      simp only [List.map_cons, Template.Value.bindAll, inductionHypothesis]
      rfl

theorem renumbers_newInitializer :
    (Synthesis.renumbering number).Holds
      (fun members others => others = members.map (Member.renumbered number))
      migration.newInitializer (migration.renumbered number).newInitializer := by
  have lines_eq : (migration.renumbered number).plan.newInitializer =
      migration.plan.newInitializer := rfl
  have parameters_eq : (migration.renumbered number).plan.parameters =
      migration.plan.parameters.map (PlannedParameter.renumbered number) := rfl
  have render_eq (template name body : String) :
      Template.render template [.text name,
          .sequence ((migration.plan.parameters.map (PlannedParameter.renumbered number)).map
            fun parameter => .node (.parameter parameter.node)), .text body] =
        Template.render template [.text name,
          .sequence (migration.plan.parameters.map
            fun parameter => .node (.parameter parameter.node)), .text body] := by
    simp only [Template.render, Template.Value.bindAll, Template.Value.bind,
      bindAll_parameters_renumbered, List.length_cons]
  unfold newInitializer
  dsimp only
  rw [lines_eq, parameters_eq]
  cases migration.plan.newInitializer with
  | none => exact (Synthesis.renumbering number).pure rfl
  | some lines =>
      dsimp only
      unfold Template.member
      rw [render_eq]
      refine (Synthesis.renumbering number).bind
        (Template.renumbers_member _ _ _ _) fun _ _ member => ?_
      exact (Synthesis.renumbering number).pure (by rw [member]; rfl)

end ClassMigration

theorem withoutRunner_renumbered
    (injective : Function.Injective number)
    (scope : TypeScope)
    (decl : ClassDecl) :
    withoutRunner scope (decl.renumbered number) =
      (withoutRunner scope decl).renumbered number := by
  have found : Marker.find? [.runner] scope (decl.renumbered number).annotations =
      (Marker.find? [.runner] scope decl.annotations).map ( Annotation.renumbered number) :=
    Marker.find?_renumbered number _ _ _
  unfold withoutRunner
  rw [found]
  cases Marker.find? [.runner] scope decl.annotations with
  | none => rfl
  | some mark =>
      exact congrArg (ClassDecl.mk · _)
        (ClassHead.eraseAnnotation_renumbered injective mark.id decl.toClassHead)

section Stages

variable {number} (injective : Function.Injective number)
include injective

/-- A plan with other numbers has the same effect on a class with other numbers. -/
theorem renumbers_migrateClass
    (scope : TypeScope)
    (layout : Layout)
    (plan : ClassPlan)
    (decl : ClassDecl) :
    (Synthesis.renumbering number).Holds (fun result other => other = result.renumbered number)
      (migrateClass scope layout plan decl)
      (migrateClass scope layout (plan.renumbered number) (decl.renumbered number)) := by
  let migration : ClassMigration :=
    ⟨scope, layout, plan, layout.memberIndent (withoutRunner scope decl)⟩
  unfold migrateClass
  dsimp only
  rw [withoutRunner_renumbered number injective, Layout.memberIndent_renumbered]
  refine (Synthesis.renumbering number).bind ((Synthesis.renumbering number).mapM_image
    (ClassMigration.renumbers_migrateMember migration injective) _) fun _ _ members => ?_
  refine (Synthesis.renumbering number).bind
    (ClassMigration.renumbers_newInitializer migration) fun _ _ initializer => ?_
  exact (Synthesis.renumbering number).pure (by rw [members, initializer, ← List.map_append]; rfl)

theorem renumbers_migratePlans
    (layout : Layout)
    (plans : List (Nat × ClassPlan))
    {unit other : SourceUnit}
    (related : unit.IsRenumbered number other) :
    (Migration.renumbering number).Holds (MigratedUnit.IsRenumbered number)
      (migratePlans layout plans unit)
      (migratePlans layout (plans.map fun entry => (number entry.1, entry.2.renumbered number))
        other) := by
  unfold migratePlans
  rw [migrate_eq, migrate_eq, related.scope_eq]
  refine (Migration.renumbering number).bind (renumbers_rewriteUnit injective
    (renumbers_migrateClass injective _ layout) (fun _ _ _ => rfl) plans related []) ?_
  rintro ⟨result, classes⟩ ⟨twinResult, _⟩ ⟨units, rfl⟩
  exact (Migration.renumbering number).pure ⟨units, rfl, rfl⟩

end Stages

end Parameterized

end JupiterMigration
