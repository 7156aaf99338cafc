import JupiterMigration.Proofs.Conversion
import JupiterMigration.Proofs.Imports.Order
import JupiterMigration.Proofs.Revision.Basic
import JupiterMigration.Proofs.Session.Pairs

/-!
# Imports of generated names

Migrated classes use names that they did not use before (`generatedNames`).  A recipe asks for the
imports of those that its migrated classes use, and no recipe ever takes such an import away
(`Recipe.isCovered_apply`).  So in the end the names are covered that are used by the classes for
which plans have been carried out (`Conversion.generated_covered`).
-/

namespace JupiterMigration

open Imports (Change isCovered makeAll)

/-! ## Changes that uncover names -/

/-- The names that migrated classes may use, and whether they are imported statically. -/
def generatedNames : List (String × Bool) :=
  [("org.junit.jupiter.params.ParameterizedTest", false),
    ("org.junit.jupiter.params.provider.MethodSource", false),
    ("org.junit.jupiter.api.Assertions.assertThrows", true),
    ("org.hamcrest.MatcherAssert.assertThat", true)]

namespace Imports

/-- Whether a change may remove an import that covers a name. -/
def Change.mayUncover (name : String) (isStatic : Bool) : Change → Bool
  | ensure .. => false
  | removeIfUnused dropped group => group == isStatic && dropped == name
  | removeWildcardIfUnused package _ => !isStatic && package == Text.beforeLastDot name

variable {name : String} {isStatic : Bool}

theorem covers_of_removed
    {change : Change}
    {decl : Import}
    (keeps : change.mayUncover name isStatic = false)
    (removes : change.removes decl = true) : decl.covers name isStatic = false := by
  cases change with
  | ensure _ _ => cases removes
  | removeIfUnused dropped group =>
      simp only [Change.removes, Bool.and_eq_true, Bool.not_eq_true', beq_iff_eq] at removes
      obtain ⟨⟨notWildcard, rfl⟩, rfl⟩ := removes
      rw [Import.covers, notWildcard]
      exact keeps
  | removeWildcardIfUnused package types =>
      simp only [Change.removes, Bool.and_eq_true, Bool.not_eq_true', beq_iff_eq] at removes
      obtain ⟨⟨isWildcard, notStatic⟩, rfl⟩ := removes
      rw [Import.covers, isWildcard, notStatic]
      cases isStatic with
      | false => exact keeps
      | true => rfl

/-- A name stays covered if a change may not uncover it. -/
theorem isCovered_make
    {unit result : SourceUnit}
    {change : Change}
    {session : Session}
    (keeps : change.mayUncover name isStatic = false)
    (made : ((change.make unit).run session).1 = some result)
    (covered : isCovered name isStatic unit = true) : isCovered name isStatic result = true := by
  rw [isCovered_eq, List.any_eq_true] at covered ⊢
  obtain ⟨decl, inside, covers⟩ := covered
  refine ⟨decl, ?_, covers⟩
  cases imports_cases_of_made made with
  | inl inserted =>
      obtain ⟨_, _, front, back, -, -, -, before_eq, after_eq⟩ := inserted
      rw [before_eq, List.mem_append] at inside
      rw [after_eq, List.mem_append, List.mem_cons]
      exact inside.imp_right .inr
  | inr removed =>
      obtain ⟨front, other, back, removes, before_eq, after_eq⟩ := removed
      rw [before_eq, List.mem_append, List.mem_cons] at inside
      rw [after_eq, List.mem_append]
      refine inside.imp_right fun removedOrBehind => removedOrBehind.resolve_left ?_
      rintro rfl
      rw [covers_of_removed keeps removes] at covers
      cases covers

variable {changes : List Change} {unit : SourceUnit}

theorem isCovered_makeAll
    (keep : ∀ change ∈ changes, change.mayUncover name isStatic = false)
    (covered : isCovered name isStatic unit = true)
    (session : Session) : isCovered name isStatic ((makeAll changes unit).run session).1 = true :=
  keeps_makeAll (fun unit => isCovered name isStatic unit = true)
    (fun change inside _ _ _ made => isCovered_make (keep change inside) made) covered session

/-- A name that is asked for is covered after all changes if none of them may uncover it. -/
theorem isCovered_makeAll_of_mem
    (keep : ∀ change ∈ changes, change.mayUncover name isStatic = false)
    (required : .ensure name isStatic ∈ changes)
    (session : Session) :
    isCovered name isStatic ((makeAll changes unit).run session).1 = true := by
  obtain ⟨front, back, rfl⟩ := List.append_of_mem required
  unfold makeAll
  rw [List.foldlM_append, Migration.run_bind, List.foldlM_cons, Migration.run_bind]
  refine isCovered_makeAll (fun change behind => keep change (by simp [behind])) ?_ _
  exact (ensures_ensure name isStatic _ _).covered

end Imports

/-! ## Plans that are carried out -/

section CarriedOut

variable
  {Plan σ : Type}
  (plans : List (Nat × Plan))
  (migrate : Plan → ClassDecl → Synthesis ClassDecl)

/-- The names of the classes that are migrated, in order, each with the plan that is carried out. -/
def carriedOut (members : List Member) (session : Session) : List (String × Plan) :=
  (((Member.rewriteAll (decideByPlan plans migrate fun name plan done => done ++ [(name, plan)])
    members).run []).run session).1.2

/-- Whatever is noted of migrated classes is noted of the plans that are carried out. -/
theorem notes_carriedOut
    (note : String → Plan → σ → σ)
    (Noted : σ → List (String × Plan) → Prop)
    (notes : ∀ name plan state done, Noted state done →
      Noted (note name plan state) (done ++ [(name, plan)]))
    {start : σ}
    (starts : Noted start [])
    (members : List Member)
    (session : Session) :
    Noted (((Member.rewriteAll (decideByPlan plans migrate note) members).run start).run
      session).1.2 (carriedOut plans migrate members session) := by
  let kind : PairKind Migration Migration := .withState .results Eq
  have same (step : Migration Unit) : kind.Holds (fun _ _ => True) step step := by
    rintro session _ rfl
    exact ⟨trivial, rfl⟩
  have found (head twinHead : ClassHead) (inner others : List Member)
      (related : Member.classDecl head inner = .classDecl twinHead others) :
      Option.Rel Eq (plans.lookup head.id) (plans.lookup twinHead.id) := by
    cases related
    cases plans.lookup head.id with
    | none => exact .none
    | some plan => exact .some rfl
  have migrates (plan other : Plan) (samePlan : plan = other) (decl twinDecl : ClassDecl)
      (sameMember : decl.toMember = twinDecl.toMember) :
      (kind.orFailing SynthesisError).Holds
        (fun result twinResult => result.toMember = twinResult.toMember)
        (migrate plan decl) (migrate other twinDecl) := by
    obtain ⟨head, inner⟩ := decl
    obtain ⟨twinHead, others⟩ := twinDecl
    cases samePlan
    cases sameMember
    rintro session _ rfl
    refine ⟨?_, rfl⟩
    cases ((migrate plan ⟨head, inner⟩).run.run session).1 with
    | ok result => exact .ok rfl
    | error error => exact .error error
  have decides : (kind.withState Noted).Decides Eq (decideByPlan plans migrate note)
      (decideByPlan plans migrate fun name plan done => done ++ [(name, plan)]) := by
    refine PairKind.decides_decideByPlan .eq (fun _ => same _) (fun _ _ => same _) found
      migrates ?_
    rintro name plan _ rfl
    exact notes name plan
  exact ((kind.withState Noted).rewriteAll PairKind.Congruent.eq.agree decides members members
    (List.forall₂_refl members) start [] starts session session rfl).1.2

theorem carriedOut_nil (members : List Member) (session : Session) :
    carriedOut [] migrate members session = [] := by
  let kind : StepKind (StateT (List (String × Plan)) Migration) :=
    .preserving fun done _ => done = []
  exact Member.holds_rewriteAll (fun _ _ => kind.pure Edit.keep) members [] session rfl

end CarriedOut

/--
Classes stay classes when they are rewritten, so the imports among declarations stay as they are.
-/
theorem Member.RevisedAll.filterMap_import?
    {Rewrites : ClassDecl → ClassDecl → ClassDecl → Prop}
    {rewritten : List Nat}
    {members others : List Member}
    (revised : RevisedAll Rewrites rewritten members others) :
    others.filterMap import? = members.filterMap import? := by
  induction members generalizing rewritten others with
  | nil =>
      cases revised with
      | nil => rfl
  | cons first rest inductionHypothesis =>
      cases revised with
      | cons head tail =>
          rw [List.filterMap_cons, List.filterMap_cons, inductionHypothesis tail]
          cases head with
          | other => rfl
          | kept => rfl
          | rewritten => rfl

/-- Migrating the planned classes of a file leaves its imports alone. -/
theorem filterMap_import?_rewriteAll
    {Plan σ : Type}
    (plans : List (Nat × Plan))
    {migrate : Plan → ClassDecl → Synthesis ClassDecl}
    (note : String → Plan → σ → σ)
    (quietly : ∀ plan decl, Synthesis.quiet.Holds (migrate plan decl))
    (members : List Member)
    (state : σ)
    (session : Session) :
    (((Member.rewriteAll (decideByPlan plans migrate note) members).run state).run
      session).1.1.filterMap Member.import? = members.filterMap Member.import? := by
  have decides : Member.Decides (fun _ _ _ => True) (decideByPlan plans migrate note) members :=
    decides_decideByPlan plans note quietly fun _ _ _ _ _ _ _ _ _ _ _ _ => trivial
  obtain ⟨rewritten, revised⟩ :=
    Member.revisedAll_rewriteAll decides members (fun _ inside => inside) state session
  exact revised.filterMap_import?

/-! ## Recipes -/

namespace Stages

section Outcome

variable {Plan : Type} (stages : Stages Plan) (unit : SourceUnit) (session : Session)

/-- The plans that a recipe collects for a file, and the session in which it migrates classes. -/
def planned : List Plan × Session :=
  let collected := (phase "Collect" stages.collectDetail (stages.collect unit)).run session
  (collected.1,
    ((Migration.startPhase "Rewrite" (stages.migrateDetail collected.1.length)).run collected.2).2)

/-- A file after a recipe has migrated the planned classes. -/
def migrated : MigratedUnit :=
  let planned := stages.planned unit session
  ((stages.migrate planned.1 unit).run planned.2).1

/-- A recipe stops early, or it brings the imports of the migrated file up to date. -/
theorem run_apply :
    let migrated := stages.migrated unit session
    let result := ((stages.apply unit).run session).1
    (result = none ∧ (unit.usesType stages.markerType = false ∨
        (stages.planned unit session).1 = [] ∨ migrated.classes = [])) ∨
      ∃ late, result = some ((makeAll migrated.imports.changes migrated.unit).run late).1 := by
  unfold apply
  dsimp only
  split
  · rw [Migration.run_bind]
    split
    · next noPlans => exact .inl ⟨rfl, .inr (.inl (List.isEmpty_iff.mp noPlans))⟩
    · unfold migratePlanned
      rw [Migration.run_bind]
      split
      · next noClasses => exact .inl ⟨rfl, .inr (.inr (List.isEmpty_iff.mp noClasses))⟩
      · exact .inr ⟨_, rfl⟩
  · next notUsed => exact .inl ⟨rfl, .inl (Bool.eq_false_iff.mpr notUsed)⟩

end Outcome

variable {Plan : Type} (stages : Stages (Nat × Plan))

/-- The plans that a recipe carries out on a file, each with the name of the migrated class. -/
def carriedOut
    (migrate : Plan → ClassDecl → Synthesis ClassDecl)
    (unit : SourceUnit)
    (session : Session) : List (String × Plan) :=
  if unit.usesType stages.markerType then
    let planned := stages.planned unit session
    JupiterMigration.carriedOut planned.1 migrate unit.members planned.2
  else []

variable {stages} {migrate : SourceUnit → Plan → ClassDecl → Synthesis ClassDecl}

/-- The stages of a recipe that leaves the imports of generated names alone. -/
structure Maintenance
    (stages : Stages (Nat × Plan))
    (migrate : SourceUnit → Plan → ClassDecl → Synthesis ClassDecl) : Prop where
  imports_eq : ∀ plans unit session,
    ((stages.migrate plans unit).run session).1.unit.imports = unit.imports
  classes_eq : ∀ plans unit session,
    ((stages.migrate plans unit).run session).1.classes =
      (JupiterMigration.carriedOut plans (migrate unit) unit.members session).map Prod.fst
  keep : ∀ plans unit session,
    ∀ change ∈ ((stages.migrate plans unit).run session).1.imports.changes,
    ∀ generated ∈ generatedNames, change.mayUncover generated.1 generated.2 = false

variable (maintenance : stages.Maintenance migrate) (unit : SourceUnit) (session : Session)
include maintenance

/-- Generated names stay covered. -/
theorem Maintenance.isCovered_apply
    {generated : String × Bool}
    (isGenerated : generated ∈ generatedNames)
    (covered : isCovered generated.1 generated.2 unit = true) :
    isCovered generated.1 generated.2 (((stages.apply unit).run session).1.getD unit) = true := by
  cases stages.run_apply unit session with
  | inl stopped =>
      rw [stopped.1]
      exact covered
  | inr finished =>
      obtain ⟨late, result_eq⟩ := finished
      rw [result_eq]
      refine Imports.isCovered_makeAll
        (fun change inside => maintenance.keep _ unit _ change inside generated isGenerated) ?_ late
      rw [isCovered, migrated, maintenance.imports_eq]
      exact covered

/-- A generated name that is asked for is covered if a plan is carried out. -/
theorem Maintenance.isCovered_apply_of_carriedOut
    {name : String}
    {isStatic : Bool}
    (isGenerated : (name, isStatic) ∈ generatedNames)
    (carries : stages.carriedOut (migrate unit) unit session ≠ [])
    (required : .ensure name isStatic ∈ (stages.migrated unit session).imports.changes) :
    isCovered name isStatic (((stages.apply unit).run session).1.getD unit) = true := by
  unfold carriedOut at carries
  cases stages.run_apply unit session with
  | inl stopped =>
      refine absurd ?_ carries
      obtain ⟨-, notUsed | noPlans | noClasses⟩ := stopped
      · rw [if_neg (by simp [notUsed])]
      · dsimp only
        rw [noPlans, carriedOut_nil]
        exact ite_self []
      · rw [migrated, maintenance.classes_eq, List.map_eq_nil_iff] at noClasses
        dsimp only
        rw [noClasses]
        exact ite_self []
  | inr finished =>
      obtain ⟨late, result_eq⟩ := finished
      rw [result_eq]
      exact Imports.isCovered_makeAll_of_mem
        (fun change inside => maintenance.keep _ unit _ change inside _ isGenerated) required late

end Stages

namespace Parameterized

/-- The plans that the recipe carries out on a file, each with the name of the migrated class. -/
def carriedOut (layout : Layout) (unit : SourceUnit) : Session → List (String × ClassPlan) :=
  (stages layout).carriedOut (migrateClass (TypeScope.ofUnit unit) layout) unit

theorem maintenance (layout : Layout) :
    (stages layout).Maintenance fun unit => migrateClass (TypeScope.ofUnit unit) layout where
  imports_eq plans unit session := by
    unfold stages migratePlans
    dsimp only
    rw [migrate_eq]
    exact filterMap_import?_rewriteAll plans _ (records_migrateClass _ layout) unit.members []
      session
  classes_eq plans unit session := by
    have noted := notes_carriedOut plans (migrateClass (TypeScope.ofUnit unit) layout)
      (fun name _ names => names ++ [name]) (fun names done => names = done.map Prod.fst)
      (fun name plan names done noted => by simp [noted]) rfl unit.members session
    unfold stages migratePlans
    dsimp only
    rw [migrate_eq]
    exact noted
  keep plans unit session := by
    have keep : ∀ change ∈ importUpdate.changes, ∀ generated ∈ generatedNames,
        change.mayUncover generated.1 generated.2 = false := by decide
    exact keep

end Parameterized

namespace ExpectedException

/-- The plans that the recipe carries out on a file, each with the name of the migrated class. -/
def carriedOut (layout : Layout) (unit : SourceUnit) : Session → List (String × RulePlan) :=
  (stages layout).carriedOut (migrateClass layout) unit

/-- What is to be noted of the plans that are carried out. -/
def progressOf (carried : List (String × RulePlan)) : Progress where
  migrated := carried.map Prod.fst
  usesAssertThrows := carried.any fun done => !done.2.methods.isEmpty
  usesMatchers := carried.any fun done => done.2.methods.any (·.2.usesMatchers)

theorem run_migratePlans
    (layout : Layout)
    (plans : List (Nat × RulePlan))
    (unit : SourceUnit)
    (session : Session) :
    let progress := progressOf
      (JupiterMigration.carriedOut plans (migrateClass layout) unit.members session)
    let migrated := ((migratePlans layout plans unit).run session).1
    migrated.unit.imports = unit.imports ∧ migrated.classes = progress.migrated ∧
      migrated.imports = importUpdate progress := by
  have noted := notes_carriedOut plans (migrateClass layout) Progress.add
    (fun progress carried => progress = progressOf carried)
    (fun name plan progress done noted => by simp [Progress.add, progressOf, noted]) rfl
    unit.members session
  have imports_eq := filterMap_import?_rewriteAll plans Progress.add
    (records_migrateClass layout) unit.members .start session
  unfold migratePlans
  rw [migrate_eq, ← noted]
  exact ⟨imports_eq, rfl, rfl⟩

theorem mayUncover_changes (progress : Progress) :
    ∀ change ∈ (importUpdate progress).changes, ∀ generated ∈ generatedNames,
      change.mayUncover generated.1 generated.2 = false := by
  obtain ⟨migrated, usesAssertThrows, usesMatchers⟩ := progress
  have changes_eq : (importUpdate ⟨migrated, usesAssertThrows, usesMatchers⟩).changes =
      (importUpdate ⟨[], usesAssertThrows, usesMatchers⟩).changes := rfl
  rw [changes_eq]
  clear changes_eq
  revert usesAssertThrows usesMatchers
  decide

theorem maintenance (layout : Layout) :
    (stages layout).Maintenance fun _ => migrateClass layout where
  imports_eq plans unit session := (run_migratePlans layout plans unit session).1
  classes_eq plans unit session := (run_migratePlans layout plans unit session).2.1
  keep plans unit session := by
    have imports_eq : (((stages layout).migrate plans unit).run session).1.imports = _ :=
      (run_migratePlans layout plans unit session).2.2
    rw [imports_eq]
    exact mayUncover_changes _

/-- If the plan of a class with planned methods is carried out, their assertion is imported. -/
theorem mem_requiredImports
    {carried : List (String × RulePlan)}
    {done : String × RulePlan}
    (inside : done ∈ carried)
    (planned : done.2.methods ≠ []) :
    .ensure "org.junit.jupiter.api.Assertions.assertThrows" true ∈
      requiredImports (progressOf carried) := by
  have uses : (progressOf carried).usesAssertThrows = true :=
    List.any_eq_true.mpr ⟨done, inside, by simpa using planned⟩
  rw [requiredImports, if_pos uses]
  simp

/-- If one of the planned methods has a matcher, so is the assertion that it holds. -/
theorem mem_requiredImports_of_usesMatchers
    {carried : List (String × RulePlan)}
    {done : String × RulePlan}
    (inside : done ∈ carried)
    (matchers : ∃ planned ∈ done.2.methods, planned.2.usesMatchers = true) :
    .ensure "org.hamcrest.MatcherAssert.assertThat" true ∈
      requiredImports (progressOf carried) := by
  have uses : (progressOf carried).usesMatchers = true :=
    List.any_eq_true.mpr ⟨done, inside, List.any_eq_true.mpr matchers⟩
  rw [requiredImports, if_pos uses]
  simp

theorem mem_carriedOut
    {layout : Layout}
    {unit : SourceUnit}
    {session : Session}
    {done : String × RulePlan}
    (inside : done ∈ carriedOut layout unit session) :
    let planned := (stages layout).planned unit session
    done ∈ JupiterMigration.carriedOut planned.1 (migrateClass layout) unit.members planned.2 := by
  unfold carriedOut Stages.carriedOut at inside
  split at inside
  · exact inside
  · exact absurd inside List.not_mem_nil

/-- The imports that the carried out plans ask for are made. -/
theorem mem_changes
    {layout : Layout}
    {unit : SourceUnit}
    {session : Session}
    {change : Change}
    (required :
      let planned := (stages layout).planned unit session
      change ∈ requiredImports (progressOf
        (JupiterMigration.carriedOut planned.1 (migrateClass layout) unit.members planned.2))) :
    change ∈ ((stages layout).migrated unit session).imports.changes := by
  have imports_eq : ((stages layout).migrated unit session).imports = _ :=
    (run_migratePlans layout _ unit _).2.2
  rw [imports_eq]
  exact List.mem_append_right _ required

end ExpectedException

namespace Recipe

/-- No recipe takes away what covers a generated name. -/
theorem isCovered_apply
    (recipe : Recipe)
    (layout : Layout)
    {generated : String × Bool}
    (isGenerated : generated ∈ generatedNames)
    {unit : SourceUnit}
    (covered : isCovered generated.1 generated.2 unit = true)
    (session : Session) :
    isCovered generated.1 generated.2 (((recipe.apply layout unit).run session).1.getD unit) =
      true := by
  cases recipe with
  | parameterized =>
      exact (Parameterized.maintenance layout).isCovered_apply unit session isGenerated covered
  | expectedException =>
      exact (ExpectedException.maintenance layout).isCovered_apply unit session isGenerated covered

end Recipe

namespace Conversion

variable (layout : Layout) (unit : SourceUnit)

/-- The session in which a recipe is applied to a file after another session. -/
def opened (recipe : Recipe) (session : Session) : Session :=
  ((Migration.startPhase ("Recipe " ++ recipe.name) recipe.description).run session).2

/-- What a recipe makes of what the recipes before it have made of a file. -/
theorem getD_applyRecipe (before : Applied) (recipe : Recipe) (session : Session) :
    ((applyRecipe layout unit before recipe).run session).1.update.getD unit =
      ((recipe.apply layout (before.update.getD unit)).run (opened recipe session)).1.getD
        (before.update.getD unit) := by
  unfold applyRecipe
  rw [Migration.run_bind, Migration.run_pure]
  have phase_eq : ((Stages.phase ("Recipe " ++ recipe.name) recipe.description
        (recipe.apply layout (before.update.getD unit))).run session).1 =
      ((recipe.apply layout (before.update.getD unit)).run (opened recipe session)).1 := rfl
  rw [phase_eq]
  cases ((recipe.apply layout (before.update.getD unit)).run (opened recipe session)).1 <;> rfl

/-- Recipes that are applied one after the other take away nothing that covers a generated name. -/
theorem isCovered_foldlM
    {generated : String × Bool}
    (isGenerated : generated ∈ generatedNames)
    (recipes : List Recipe)
    {before : Applied}
    (covered : isCovered generated.1 generated.2 (before.update.getD unit) = true)
    (session : Session) :
    isCovered generated.1 generated.2
      (((recipes.foldlM (applyRecipe layout unit) before).run session).1.update.getD unit) =
        true := by
  induction recipes generalizing before session with
  | nil => exact covered
  | cons first rest inductionHypothesis =>
      rw [List.foldlM_cons, Migration.run_bind]
      refine inductionHypothesis ?_ _
      rw [getD_applyRecipe]
      exact first.isCovered_apply layout isGenerated covered _

/-- What covers a generated name after one of the recipes covers it after all of them. -/
theorem isCovered_applyRecipes
    (front back : List Recipe)
    (recipe : Recipe)
    (session : Session)
    {generated : String × Bool}
    (isGenerated : generated ∈ generatedNames)
    (covered :
      let before := (applyRecipes layout front unit).run session
      let entered := before.1.update.getD unit
      isCovered generated.1 generated.2
        (((recipe.apply layout entered).run (opened recipe before.2)).1.getD entered) = true) :
    isCovered generated.1 generated.2
      (((applyRecipes layout (front ++ recipe :: back) unit).run session).1.update.getD unit) =
        true := by
  rw [applyRecipes, List.foldlM_append, Migration.run_bind, List.foldlM_cons, Migration.run_bind]
  refine isCovered_foldlM layout unit isGenerated back ?_ _
  rw [getD_applyRecipe]
  exact covered

/--
The names that migrated classes use are covered in the end, whatever recipes are applied before and
after: those of parameterized tests if any plan for a parameterized class is carried out, and those
of assertions if a plan is carried out for a class that has a method with expectations.  What is
covered before a recipe is covered in the end.
-/
theorem generated_covered (front back : List Recipe) (session : Session) :
    let before := (applyRecipes layout front unit).run session
    let entered := before.1.update.getD unit
    let final (recipe : Recipe) : SourceUnit :=
      ((applyRecipes layout (front ++ recipe :: back) unit).run session).1.update.getD unit
    (Parameterized.carriedOut layout entered (opened .parameterized before.2) ≠ [] →
      isCovered "org.junit.jupiter.params.ParameterizedTest" false (final .parameterized) = true ∧
        isCovered "org.junit.jupiter.params.provider.MethodSource" false (final .parameterized) =
          true) ∧
    (∀ carried ∈ ExpectedException.carriedOut layout entered (opened .expectedException before.2),
      carried.2.methods ≠ [] →
        isCovered "org.junit.jupiter.api.Assertions.assertThrows" true (final .expectedException) =
          true ∧
        ((∃ planned ∈ carried.2.methods, planned.2.usesMatchers = true) →
          isCovered "org.hamcrest.MatcherAssert.assertThat" true (final .expectedException) =
            true)) ∧
    ∀ recipe, ∀ generated ∈ generatedNames,
      isCovered generated.1 generated.2 entered = true →
        isCovered generated.1 generated.2 (final recipe) = true := by
  intro before entered final
  refine ⟨fun carries => ?_, fun carried inside planned => ?_, ?_⟩
  · have covered (name : String) (isGenerated : (name, false) ∈ generatedNames)
        (required : .ensure name false ∈ Parameterized.importUpdate.changes) :
        isCovered name false (final .parameterized) = true :=
      isCovered_applyRecipes layout unit front back .parameterized session isGenerated
        ((Parameterized.maintenance layout).isCovered_apply_of_carriedOut entered _ isGenerated
          carries required)
    exact ⟨covered _ (by decide) (by decide),
      covered _ (by decide) (by decide)⟩
  · have carries := List.ne_nil_of_mem inside
    have isCarriedOut := ExpectedException.mem_carriedOut inside
    have covered (name : String) (isGenerated : (name, true) ∈ generatedNames)
        (required : .ensure name true ∈
          (((ExpectedException.stages layout).migrated entered _).imports.changes)) :
        isCovered name true (final .expectedException) = true :=
      isCovered_applyRecipes layout unit front back .expectedException session isGenerated
        ((ExpectedException.maintenance layout).isCovered_apply_of_carriedOut entered _ isGenerated
          carries required)
    refine ⟨covered _ (by decide) (ExpectedException.mem_changes
      (ExpectedException.mem_requiredImports isCarriedOut planned)), fun matchers => ?_⟩
    exact covered _ (by decide) (ExpectedException.mem_changes
      (ExpectedException.mem_requiredImports_of_usesMatchers isCarriedOut matchers))
  · intro recipe generated isGenerated covered
    exact isCovered_applyRecipes layout unit front back recipe session isGenerated
      (recipe.isCovered_apply layout isGenerated covered _)

/-- A parameterized class, in which a class is nested that expects a message by a matcher. -/
def nestedMatcher : String :=
  "import org.junit.rules.*;\n" ++
    "@org.junit.runner.RunWith(org.junit.runners.Parameterized.class)\nclass A \x7b\n" ++
    "  A(int x) \x7b \x7d\n  @org.junit.runners.Parameterized.Parameters\n" ++
    "  static Object d() \x7b return null; \x7d\n  class B \x7b\n" ++
    "    @org.junit.Rule ExpectedException r;\n" ++
    "    void t() \x7b r.expectMessage(is(d())); \x7d\n  \x7d\n\x7d\n"

/--
Whether both recipes carry out plans on a file, one after the other, the second with a matcher.
-/
def carriesOutBoth (result : SourceUnit × Nat) : Bool :=
  let layout := Layout.ofUnit result.1 none
  let later := (applyRecipes layout [.parameterized] result.1).run ⟨.empty, result.2⟩
  !(Parameterized.carriedOut layout result.1 (opened .parameterized ⟨.empty, result.2⟩)).isEmpty &&
    (ExpectedException.carriedOut layout (later.1.update.getD result.1)
      (opened .expectedException later.2)).any fun carried =>
        carried.2.methods.any (·.2.usesMatchers)

theorem generated_covered_nestedMatcher :
    ∃ result final carried, SourceUnit.parse nestedMatcher none 1 = .ok result ∧
      let layout := Layout.ofUnit result.1 none
      let start : Session := ⟨.empty, result.2⟩
      let later := (applyRecipes layout [.parameterized] result.1).run start
      final = ((applyRecipes layout [.parameterized, .expectedException] result.1).run
        start).1.update.getD result.1 ∧
      Parameterized.carriedOut layout result.1 (opened .parameterized start) ≠ [] ∧
      carried ∈ ExpectedException.carriedOut layout (later.1.update.getD result.1)
        (opened .expectedException later.2) ∧
      (∃ planned ∈ carried.2.methods, planned.2.usesMatchers = true) ∧
      isCovered "org.junit.jupiter.params.ParameterizedTest" false final = true ∧
      isCovered "org.junit.jupiter.params.provider.MethodSource" false final = true ∧
      isCovered "org.junit.jupiter.api.Assertions.assertThrows" true final = true ∧
      isCovered "org.hamcrest.MatcherAssert.assertThat" true final = true := by
  have both : (SourceUnit.parse nestedMatcher none 1).map carriesOutBoth = .ok true := by
    decide +kernel
  cases parsed : SourceUnit.parse nestedMatcher none 1 with
  | error error =>
      rw [parsed] at both
      cases both
  | ok result =>
      rw [parsed] at both
      have carries : carriesOutBoth result = true := Except.ok.inj both
      unfold carriesOutBoth at carries
      simp only [Bool.and_eq_true, Bool.not_eq_true', List.isEmpty_eq_false_iff] at carries
      obtain ⟨parameterized, expecting⟩ := carries
      obtain ⟨carried, inside, matches_⟩ := List.any_eq_true.mp expecting
      have matchers := List.any_eq_true.mp matches_
      have first := (generated_covered (Layout.ofUnit result.1 none) result.1 []
        [.expectedException] ⟨.empty, result.2⟩).1 parameterized
      have second := (generated_covered (Layout.ofUnit result.1 none) result.1 [.parameterized] []
        ⟨.empty, result.2⟩).2.1 carried inside (List.ne_nil_of_mem matchers.choose_spec.1)
      exact ⟨result, _, carried, rfl, rfl, parameterized, inside, matchers, first.1, first.2,
        second.1, second.2 matchers⟩

end Conversion

end JupiterMigration
