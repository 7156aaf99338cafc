import JupiterMigration.Conversion
import JupiterMigration.Proofs.Numbering.Order
import JupiterMigration.Proofs.Traversal

/-!
# What the steps of recipes are made of

The steps in which plans are collected and classes are migrated consist of messages, of events that
record no change and no phase, and of numbers that are dealt out.  A kind of steps that all these
are of (`StepKind.Plain`) is the kind of those steps, too.  Only where migrated classes and changes
to the imports are recorded, more is asked of the kind (`StepKind.Unphased`), and more again where
steps are phases of the trace (`StepKind.Phased`).
-/

namespace JupiterMigration

namespace Happening

/-- Whether something happens without any change to the file, in whatever phase is open. -/
def isPlain : Happening → Bool
  | matched .. => true
  | warning _ => true
  | inspection .. => true
  | _ => false

end Happening

namespace StepKind

/-- A kind of steps that recording plain events is of, and messages and new numbers. -/
structure Plain (kind : StepKind Migration) : Prop where
  log : ∀ level message, kind.Holds (Migration.log level message)
  record : ∀ happening, happening.isPlain = true → kind.Holds (Migration.record happening)
  number : ∀ {α : Type} {numbering : Numbering α}, Migration.Ascends numbering →
    kind.Holds (Migration.number numbering)

/-- A kind of steps that also recording changes to the file is of. -/
structure Unphased (kind : StepKind Migration) : Prop extends Plain kind where
  transformed : ∀ node before after, kind.Holds (Migration.record (.transformed node before after))
  importAction : ∀ action name isStatic,
    kind.Holds (Migration.record (.importAction action name isStatic))

/-- A kind of steps that is also the kind of phases of such steps. -/
structure Phased (kind : StepKind Migration) : Prop extends Unphased kind where
  phase : ∀ {α : Type} (name detail : String) {step : Migration α}, kind.Holds step →
    kind.Holds (Stages.phase name detail step)

variable {kind : StepKind Migration}

theorem Plain.warn (plain : kind.Plain) (message : String) : kind.Holds (Migration.warn message) :=
  kind.bind (plain.log _ _) fun _ => plain.record _ rfl

theorem Plain.skip (plain : kind.Plain) (target reason : String) :
    kind.Holds (Migration.skip target reason) :=
  kind.bind (plain.log _ _) fun _ => plain.record _ rfl

end StepKind

/-! ## New nodes -/

namespace Template

variable {kind : StepKind Migration} (plain : kind.Plain)
include plain

theorem holds_numbered
    {α : Type}
    {number : α → Numbering α}
    (ascends : ∀ node, Migration.Ascends (number node))
    (node : Except SynthesisError α) : kind.orFailing.Holds (Synthesis.numbered node number) := by
  have given : kind.orFailing.Holds (Synthesis.ofExcept node) := kind.pure node
  exact kind.orFailing.bind given fun unnumbered =>
    kind.orFailing_lift (plain.number (ascends unnumbered))

theorem holds_member (template : String) (values : List Value) (indent lead : String) :
    kind.orFailing.Holds (member template values indent lead) :=
  holds_numbered plain (fun node => node.dealsOut_numbered.ascends) _

theorem holds_statement (template : String) (values : List Value) (indent lead : String) :
    kind.orFailing.Holds (statement template values indent lead) :=
  holds_numbered plain (fun node => node.dealsOut_numbered.ascends) _

theorem holds_annotationUse (template : String) (values : List Value) (lead : String) :
    kind.orFailing.Holds (annotationUse template values lead) :=
  holds_numbered plain (fun node => node.dealsOut_numbered.ascends) _

end Template

/-! ## Imports -/

namespace Imports

variable {kind : StepKind Migration} (unphased : kind.Unphased)
include unphased

theorem holds_note (action name : String) (isStatic : Bool) :
    kind.Holds (note action name isStatic) :=
  kind.bind (unphased.log _ _) fun _ => unphased.importAction action name isStatic

theorem holds_keep (target reason : String) : kind.Holds (keep target reason) :=
  kind.bind (unphased.log _ _) fun _ => unphased.record _ rfl

theorem holds_make (unit : SourceUnit) (change : Change) : kind.Holds (change.make unit) := by
  cases change with
  | ensure name isStatic =>
      dsimp only [Change.make, ensure]
      split
      · exact kind.pure _
      · exact kind.bind (unphased.number fun next => Nat.le_succ next) fun _ =>
          kind.bind (holds_note unphased _ _ _) fun _ => kind.pure _
  | removeIfUnused name isStatic =>
      dsimp only [Change.make, removeIfUnused]
      split
      · exact kind.pure _
      · split
        · exact kind.bind (holds_keep unphased _ _) fun _ => kind.pure _
        · exact kind.bind (holds_note unphased _ _ _) fun _ => kind.pure _
  | removeWildcardIfUnused package types =>
      dsimp only [Change.make, removeWildcardIfUnused]
      split
      · exact kind.pure _
      · split
        · exact kind.bind (holds_note unphased _ _ _) fun _ => kind.pure _
        · exact kind.bind (holds_keep unphased _ _) fun _ => kind.pure _

/-- Changes to the imports record nothing but events about imports. -/
theorem holds_makeAll (changes : List Change) (unit : SourceUnit) :
    kind.Holds (makeAll changes unit) :=
  kind.foldlM (fun unit change _ =>
    kind.bind (holds_make unphased unit change) fun _ => kind.pure _) unit

end Imports

/-! ## The recipe for parameterized classes -/

namespace Parameterized

variable {kind : StepKind Migration} (plain : kind.Plain)
include plain

namespace ClassMigration

variable (migration : ClassMigration)

theorem holds_testAnnotations (method : Method) (mark : Annotation) :
    kind.orFailing.Holds (migration.testAnnotations method mark) := by
  unfold testAnnotations
  refine kind.orFailing.bind (Template.holds_annotationUse plain _ _ _) fun source => ?_
  dsimp only
  split
  · exact kind.orFailing.bind (Template.holds_annotationUse plain _ _ _) fun _ =>
      kind.orFailing.pure _
  · exact kind.orFailing.bind (Template.holds_annotationUse plain _ _ _) fun _ =>
      kind.orFailing.pure _

theorem holds_testBody (method : Method) (block : Block) :
    kind.orFailing.Holds (migration.testBody method block) :=
  kind.orFailing.bind (Template.holds_statement plain _ _ _ _) fun _ => kind.orFailing.pure _

theorem holds_migrateTest (method : Method) (mark : Annotation) :
    kind.orFailing.Holds (migration.migrateTest method mark) := by
  have rest : kind.orFailing.Holds (do
      let replacement ← migration.testAnnotations method mark
      let body ← method.body.mapM (migration.testBody method)
      return { method with
        annotations := replaceMark mark replacement method.annotations
        parameters := testParameters migration.plan.parameters
        emptySpace := ""
        body }) := by
    refine kind.orFailing.bind (holds_testAnnotations plain migration method mark) fun _ => ?_
    have bodies := kind.orFailing.optionMapM (holds_testBody plain migration method) method.body
    exact kind.orFailing.bind bodies fun _ => kind.orFailing.pure _
  unfold migrateTest
  split
  · exact kind.orFailing.bind (kind.orFailing_lift (plain.warn _)) fun _ => rest
  · exact rest

theorem holds_migrateMember (member : Member) :
    kind.orFailing.Holds (migration.migrateMember member) := by
  cases member with
  | method decl =>
      refine kind.orFailing.bind ?_ fun _ => kind.orFailing.pure _
      unfold migrateMethod
      split
      · exact kind.orFailing.pure _
      · split
        · exact kind.orFailing.pure _
        · exact holds_migrateTest plain migration decl _
        · exact kind.orFailing.pure _
  | _ => exact kind.orFailing.pure _

theorem holds_newInitializer : kind.orFailing.Holds migration.newInitializer := by
  unfold newInitializer
  dsimp only
  split
  · exact kind.orFailing.pure _
  · exact kind.orFailing.bind (Template.holds_member plain _ _ _ _) fun _ => kind.orFailing.pure _

end ClassMigration

theorem holds_migrateClass
    (scope : TypeScope)
    (layout : Layout)
    (plan : ClassPlan)
    (decl : ClassDecl) : kind.orFailing.Holds (migrateClass scope layout plan decl) := by
  unfold migrateClass
  refine kind.orFailing.bind (kind.orFailing.mapM fun member _ => ?_) fun _ => ?_
  · exact ClassMigration.holds_migrateMember plain _ member
  · exact kind.orFailing.bind (ClassMigration.holds_newInitializer plain _) fun _ =>
      kind.orFailing.pure _

namespace Collecting

theorem holds_plan (facts : Facts) : kind.Holds (plan facts) := by
  have reports : kind.Holds (report facts) :=
    kind.bind (kind.forM fun _ _ => plain.warn _) fun _ => kind.forM fun _ _ => plain.warn _
  unfold plan
  refine kind.bind reports fun _ => ?_
  split
  · exact kind.bind (plain.warn _) fun _ => kind.pure _
  · exact kind.bind (plain.log _ _) fun _ => kind.pure _
  · split
    · exact kind.bind (plain.skip _ _) fun _ => kind.pure _
    · exact kind.pure _

theorem holds_planClass (name : String) (facts : Option Facts) :
    kind.Holds (planClass name facts) := by
  unfold planClass
  refine kind.bind (plain.record _ rfl) fun _ => ?_
  split
  · exact holds_plan plain _
  · exact kind.bind (plain.skip _ _) fun _ => kind.pure _

theorem holds_leave (scope : TypeScope) (above : List Node) (node : Node) :
    (kind.withState Collection).Holds (leave scope above node) := by
  unfold leave
  split
  · unfold leaveClass
    refine (kind.withState Collection).bind kind.withState_get fun _ => ?_
    refine (kind.withState Collection).bind (kind.withState_modify _) fun _ => ?_
    split
    · refine (kind.withState Collection).bind
        (kind.withState_lift (holds_planClass plain _ _)) fun _ => ?_
      split
      · exact kind.withState_modify _
      · exact (kind.withState Collection).pure _
    · exact (kind.withState Collection).pure _
  · split
    · unfold observe
      split
      · exact kind.withState_modify _
      · exact (kind.withState Collection).pure _
    · exact (kind.withState Collection).pure _
  · exact (kind.withState Collection).pure _

end Collecting

/-- The collection of plans records nothing but plain events. -/
theorem holds_collect (unit : SourceUnit) : kind.Holds (collect unit) := by
  have visits : (kind.withState Collection).Holds
      ((Collecting.visitor (TypeScope.ofUnit unit)).visit unit) :=
    Visitor.holds_visit {
      enter := fun _ _ _ _ => (kind.withState Collection).pure _
      leave := fun above _ node _ => Collecting.holds_leave plain _ above node }
  exact kind.bind (visits .empty) fun _ => kind.pure _

end Parameterized

/-! ## The recipe for expected exceptions -/

namespace ExpectedException

variable {kind : StepKind Migration} (plain : kind.Plain)
include plain

theorem holds_migrateMethod
    (layout : Layout)
    (memberIndent : String)
    (plan : MethodPlan)
    (method : Method) :
    kind.orFailing.Holds (migrateMethod layout memberIndent plan method) := by
  unfold migrateMethod assertions
  refine kind.orFailing.bind ?_ fun _ => kind.orFailing.pure _
  dsimp only
  split
  · refine kind.orFailing.bind (Template.holds_statement plain _ _ _ _) fun _ => ?_
    refine kind.orFailing.bind (kind.orFailing.mapM fun _ _ => ?_) fun _ => kind.orFailing.pure _
    exact Template.holds_statement plain _ _ _ _
  · exact kind.orFailing.bind (Template.holds_statement plain _ _ _ _) fun _ =>
      kind.orFailing.pure _

theorem holds_migrateClass
    (layout : Layout)
    (plan : RulePlan)
    (decl : ClassDecl) : kind.orFailing.Holds (migrateClass layout plan decl) := by
  unfold migrateClass
  refine kind.orFailing.bind (kind.orFailing.mapM fun member _ => ?_) fun _ =>
    kind.orFailing.pure _
  cases member with
  | method decl =>
      dsimp only [migrateMember]
      split
      · exact kind.orFailing.bind (holds_migrateMethod plain _ _ _ _) fun _ =>
          kind.orFailing.pure _
      · exact kind.orFailing.pure _
  | _ => exact kind.orFailing.pure _

namespace Collecting

theorem holds_leave (scope : TypeScope) (above : List Node) (node : Node) :
    (kind.withState (List (Nat × RulePlan))).Holds (leave scope above node) := by
  unfold leave
  split
  · unfold leaveClass
    split
    · refine kind.withState_lift ?_
      unfold reportFields
      dsimp only
      split
      · exact plain.log _ _
      · exact kind.pure _
    · split
      · exact kind.withState_lift (plain.skip _ _)
      · refine (kind.withState _).bind (kind.withState_lift (plain.record _ rfl)) fun _ => ?_
        exact kind.withState_modify _
  · exact (kind.withState _).pure _

end Collecting

/-- The collection of plans records nothing but plain events. -/
theorem holds_collect (unit : SourceUnit) : kind.Holds (collect unit) := by
  have visits : (kind.withState (List (Nat × RulePlan))).Holds
      ((Collecting.visitor (TypeScope.ofUnit unit)).visit unit) :=
    Visitor.holds_visit {
      enter := fun _ _ _ _ => (kind.withState _).pure _
      leave := fun above _ node _ => Collecting.holds_leave plain _ above node }
  exact kind.bind (visits []) fun _ => kind.pure _

end ExpectedException

/-! ## Migrating planned classes -/

/-- Decisions about planned classes only record the classes that are migrated. -/
theorem holds_decideByPlan
    {kind : StepKind Migration}
    (unphased : kind.Unphased)
    {Plan σ : Type}
    {migrate : Plan → ClassDecl → Synthesis ClassDecl}
    (migrates : ∀ plan decl, kind.orFailing.Holds (migrate plan decl))
    (plans : List (Nat × Plan))
    (note : String → Plan → σ → σ)
    (entered decl : ClassDecl) :
    (kind.withState σ).Holds (decideByPlan plans migrate note entered decl) := by
  unfold decideByPlan
  split
  · exact (kind.withState σ).pure _
  · next plan _ =>
      refine (kind.withState σ).bind (kind.withState_lift (migrates plan decl)) fun result => ?_
      cases result with
      | error error =>
          exact (kind.withState σ).bind (kind.withState_lift (unphased.warn _)) fun _ =>
            (kind.withState σ).pure _
      | ok result =>
          refine (kind.withState σ).bind (kind.withState_modify _) fun _ => ?_
          exact (kind.withState σ).bind (kind.withState_lift (unphased.transformed _ _ _)) fun _ =>
            (kind.withState σ).pure _

/-! ## Recipes -/

namespace Parameterized

theorem holds_migratePlans
    {kind : StepKind Migration}
    (unphased : kind.Unphased)
    (layout : Layout)
    (plans : List (Nat × ClassPlan))
    (unit : SourceUnit) : kind.Holds (migratePlans layout plans unit) := by
  have rewrites := Member.holds_rewriteAll (holds_decideByPlan unphased
    (holds_migrateClass unphased.toPlain (TypeScope.ofUnit unit) layout) plans
    fun name _ names => names ++ [name]) unit.members []
  unfold migratePlans
  rw [migrate_eq]
  exact kind.bind (kind.bind rewrites fun _ => kind.pure _) fun _ => kind.pure _

end Parameterized

namespace ExpectedException

theorem holds_migratePlans
    {kind : StepKind Migration}
    (unphased : kind.Unphased)
    (layout : Layout)
    (plans : List (Nat × RulePlan))
    (unit : SourceUnit) : kind.Holds (migratePlans layout plans unit) := by
  have rewrites := Member.holds_rewriteAll (holds_decideByPlan unphased
    (holds_migrateClass unphased.toPlain layout) plans Progress.add) unit.members .start
  unfold migratePlans
  rw [migrate_eq]
  exact kind.bind (kind.bind rewrites fun _ => kind.pure _) fun _ => kind.pure _

end ExpectedException

namespace Stages

variable {kind : StepKind Migration} (phased : kind.Phased) {Plan : Type} (stages : Stages Plan)
include phased

theorem holds_finish (result : MigratedUnit) : kind.Holds (stages.finish result) := by
  have imports := Imports.holds_makeAll phased.toUnphased result.imports.changes result.unit
  exact kind.bind (phased.phase _ _ imports) fun _ =>
    kind.bind (phased.log _ _) fun _ => kind.pure _

theorem holds_apply
    {stages : Stages Plan}
    {unit : SourceUnit}
    (collects : kind.Holds (stages.collect unit))
    (migrates : ∀ plans, kind.Holds (stages.migrate plans unit)) :
    kind.Holds (stages.apply unit) := by
  unfold apply
  split
  · refine kind.bind (phased.phase _ _ collects) fun plans => ?_
    split
    · exact kind.pure _
    · refine kind.bind (phased.phase _ _ (migrates plans)) fun result => ?_
      split
      · exact kind.pure _
      · exact kind.bind (holds_finish phased stages result) fun _ => kind.pure _
  · exact kind.pure _

end Stages

section Conversions

variable {kind : StepKind Migration} (phased : kind.Phased) (layout : Layout) (unit : SourceUnit)
include phased

/-- The kind of the smallest steps of a recipe is the kind of the recipe. -/
theorem Recipe.holds_apply (recipe : Recipe) : kind.Holds (recipe.apply layout unit) := by
  cases recipe with
  | parameterized =>
      refine Stages.holds_apply phased ?_ fun plans =>
        Parameterized.holds_migratePlans phased.toUnphased layout plans unit
      exact kind.bind (Parameterized.holds_collect phased.toPlain unit) fun _ => kind.pure _
  | expectedException =>
      exact Stages.holds_apply phased (ExpectedException.holds_collect phased.toPlain unit)
        fun plans => ExpectedException.holds_migratePlans phased.toUnphased layout plans unit

theorem Conversion.holds_applyRecipes (recipes : List Recipe) :
    kind.Holds (applyRecipes layout recipes unit) := by
  refine kind.foldlM (fun before recipe _ => ?_) _
  exact kind.bind (phased.phase _ _ (recipe.holds_apply phased layout _)) fun _ => kind.pure _

end Conversions

theorem Conversion.holds_readUnit
    {kind : StepKind Migration}
    (plain : kind.Plain)
    (code : String)
    (path : Option String) : kind.Holds (readUnit code path) := by
  unfold readUnit
  split
  · next unit _ =>
      exact kind.bind (plain.number unit.dealsOut_numbered.ascends) fun _ => kind.pure _
  · exact kind.bind (plain.log _ _) fun _ =>
      kind.bind (plain.record _ rfl) fun _ => kind.pure _

end JupiterMigration
