import JupiterMigration.Proofs.Collection.OwnFacts
import JupiterMigration.Proofs.InPlace.ExpectedException
import JupiterMigration.Proofs.Renumbering

/-!
# Running a second time

A recipe declines a file that does not use its marker type, or in which no class has a plan.  A
source whose tree is declined by all recipes is given back as it was.  So a second run leaves the
output of the first one alone if the first run has changed nothing, or if no class of the output has
a plan (`Run.givesBack_again`).

The classes of one file are not planned independently of each other.  A class may be planned only
after the classes nested in it have been migrated, and then the second run changes the output of the
first one (`Run.changed_again`).
-/

namespace JupiterMigration

/-- A recipe leaves the files alone in which it plans nothing. -/
theorem Stages.apply_eq_none
    {Plan : Type}
    {stages : Stages Plan}
    {unit : SourceUnit}
    (nothing : unit.usesType stages.markerType = true →
      ∀ session, ((stages.collect unit).run session).1 = [])
    (session : Session) : ((stages.apply unit).run session).1 = none := by
  unfold apply
  split
  · next usesType =>
      obtain ⟨later, -, phase_eq⟩ :=
        run_phase "Collect" stages.collectDetail (stages.collect unit) session
      rw [nothing usesType later] at phase_eq
      rw [Migration.run_bind, phase_eq]
      rfl
  · rfl

namespace Recipe

/-- Whether a recipe has no plan for a class. -/
def spares (scope : TypeScope) (decl : ClassDecl) : Recipe → Bool
  | parameterized => (Parameterized.ClassPlan.ofClass scope decl).isNone
  | expectedException => (ExpectedException.RulePlan.ofClass scope decl).isNone

/-- A file does not use the marker type of a recipe, or the recipe has no plan for any class. -/
def Declines (recipe : Recipe) (unit : SourceUnit) : Prop :=
  unit.usesType recipe.markerType = false ∨
    ∀ decl ∈ Member.classesAll unit.members, recipe.spares (.ofUnit unit) decl = true

instance (recipe : Recipe) (unit : SourceUnit) : Decidable (recipe.Declines unit) :=
  inferInstanceAs (Decidable (_ ∨ _))

/-- A recipe leaves the files alone that it declines. -/
theorem apply_eq_none_of_declines
    {unit : SourceUnit}
    {recipe : Recipe}
    (nodup : ((Member.classesAll unit.members).map (·.id)).Nodup)
    (declines : recipe.Declines unit)
    (layout : Layout)
    (session : Session) : ((recipe.apply layout unit).run session).1 = none := by
  have isDeclared {decl : ClassDecl} (isLeft : decl ∈ unit.classesLeft) :
      decl ∈ Member.classesAll unit.members := unit.perm_classesLeft.mem_iff.mp isLeft
  cases recipe with
  | parameterized =>
      refine Stages.apply_eq_none (fun usesType early => ?_) session
      obtain unused | spared := declines
      · exact absurd (usesType.symm.trans unused) Bool.noConfusion
      · have plans_eq : ((Parameterized.collect unit).run early).1.plans = [] := by
          rw [Parameterized.fst_run_collect nodup]
          refine List.filterMap_eq_nil_iff.mpr fun decl isLeft => ?_
          have unplanned : Parameterized.ClassPlan.ofClass (.ofUnit unit) decl = none :=
            Option.isNone_iff_eq_none.mp (spared decl (isDeclared isLeft))
          rw [unplanned]
          rfl
        exact plans_eq
  | expectedException =>
      refine Stages.apply_eq_none (fun usesType early => ?_) session
      obtain unused | spared := declines
      · exact absurd (usesType.symm.trans unused) Bool.noConfusion
      · have plans_eq : ((ExpectedException.collect unit).run early).1 = [] := by
          rw [ExpectedException.fst_run_collect]
          refine List.filterMap_eq_nil_iff.mpr fun decl isLeft => ?_
          have unplanned : ExpectedException.RulePlan.ofClass (.ofUnit unit) decl = none :=
            Option.isNone_iff_eq_none.mp (spared decl (isDeclared isLeft))
          rw [unplanned]
          rfl
        exact plans_eq

end Recipe

namespace Conversion

/-- A recipe that declines a file adds nothing to what the recipes before it have done. -/
theorem applyRecipe_of_declines
    {unit : SourceUnit}
    {recipe : Recipe}
    (nodup : ((Member.classesAll unit.members).map (·.id)).Nodup)
    (declines : recipe.Declines unit)
    (layout : Layout)
    (session : Session) :
    ((applyRecipe layout unit ⟨none, []⟩ recipe).run session).1 = ⟨none, []⟩ := by
  unfold applyRecipe
  obtain ⟨later, -, phase_eq⟩ := Stages.run_phase ("Recipe " ++ recipe.name) recipe.description
    (recipe.apply layout unit) session
  rw [Recipe.apply_eq_none_of_declines nodup declines layout later] at phase_eq
  rw [Migration.run_bind]
  dsimp only [Option.getD]
  rw [phase_eq]
  rfl

/-- Recipes that all decline a file do nothing. -/
theorem applyRecipes_of_declines
    {unit : SourceUnit}
    {recipes : List Recipe}
    (nodup : ((Member.classesAll unit.members).map (·.id)).Nodup)
    (declines : ∀ recipe ∈ recipes, recipe.Declines unit)
    (layout : Layout)
    (session : Session) : ((applyRecipes layout recipes unit).run session).1 = ⟨none, []⟩ := by
  unfold applyRecipes
  induction recipes generalizing session with
  | nil => rfl
  | cons first rest inductionHypothesis =>
      obtain ⟨ofFirst, ofRest⟩ := List.forall_mem_cons.mp declines
      rw [List.foldlM_cons, Migration.run_bind,
        applyRecipe_of_declines nodup ofFirst layout session]
      exact inductionHypothesis ofRest _

/-- A conversion that gives the source back. -/
structure GivesBack (code : String) (conversion : Conversion) : Prop where
  code_eq : conversion.code = code
  unchanged : conversion.changed = false

theorem givesBack_failure
    (code : String)
    (path : Option String)
    (errors : List String)
    (trace : Trace) : GivesBack code (failure code path errors trace) :=
  ⟨rfl, rfl⟩

/-- A conversion concludes that the source is left as it is, or that it has become something. -/
theorem conclude_cases
    (configuration : Configuration)
    (code : String)
    (path : Option String)
    (result : Applied)
    (session : Session) :
    let conversion := ((conclude configuration code path result).run session).1
    GivesBack code conversion ∨
      conversion.code = (result.update.map SourceUnit.print).getD code ∧
        conversion.changed = decide (conversion.code ≠ code) := by
  unfold conclude
  dsimp only
  rw [Migration.run_bind, Migration.run_bind]
  split
  · exact .inl (givesBack_failure code path _ _)
  · -- The names of the recipes are logged if there are any.
    cases result.recipes.isEmpty <;> exact .inr ⟨rfl, rfl⟩

end Conversion

namespace Run

open Conversion

/-- A source is left alone if all recipes of the configuration decline its tree. -/
theorem givesBack_of_declines
    {configuration : Configuration}
    {code : String}
    {path : Option String}
    {firstId : Nat}
    (declines : ∀ result, SourceUnit.parse code path firstId = .ok result →
      ∀ recipe ∈ configuration.recipes, recipe.Declines result.1) :
    GivesBack code (start configuration code path firstId).conversion := by
  have steps := conversion_eq configuration code path firstId
  cases parsed : SourceUnit.parse code path firstId with
  | error error =>
      rw [parsed] at steps
      obtain ⟨errors, trace, conversion_eq⟩ := steps
      rw [conversion_eq]
      exact givesBack_failure code path errors trace
  | ok result =>
      rw [parsed] at steps
      obtain ⟨early, late, conversion_eq⟩ := steps
      rw [conversion_eq, applyRecipes_of_declines (Member.nodup_classesAll_of_parse parsed)
        (declines result parsed)]
      rcases conclude_cases configuration code path ⟨none, []⟩ late with alone | ⟨code_eq, changed⟩
      · exact alone
      · exact ⟨code_eq, changed.trans (by rw [code_eq]; simp)⟩

/-- A run that has changed nothing gives the source back. -/
theorem givesBack_of_unchanged
    {configuration : Configuration}
    {code : String}
    {path : Option String}
    {firstId : Nat}
    (unchanged : (start configuration code path firstId).conversion.changed = false) :
    GivesBack code (start configuration code path firstId).conversion := by
  have steps := conversion_eq configuration code path firstId
  cases parsed : SourceUnit.parse code path firstId with
  | error error =>
      rw [parsed] at steps
      obtain ⟨errors, trace, conversion_eq⟩ := steps
      rw [conversion_eq]
      exact givesBack_failure code path errors trace
  | ok result =>
      rw [parsed] at steps
      obtain ⟨early, late, conversion_eq⟩ := steps
      rw [conversion_eq] at unchanged ⊢
      rcases conclude_cases configuration code path _ late with alone | ⟨-, changed⟩
      · exact alone
      · rw [changed] at unchanged
        exact ⟨by simpa using unchanged, by rw [changed, unchanged]⟩

/--
A second run leaves the output of the first one alone if the first run has changed nothing, as it
does not where it fails, or if all recipes decline the tree of the output.
-/
theorem givesBack_again
    {configuration : Configuration}
    {code : String}
    {path : Option String}
    {firstId secondId : Nat}
    (settled :
      let output := (start configuration code path firstId).conversion.code
      (start configuration code path firstId).conversion.changed = false ∨
        ∀ result, SourceUnit.parse output path secondId = .ok result →
          ∀ recipe ∈ configuration.recipes, recipe.Declines result.1) :
    let output := (start configuration code path firstId).conversion.code
    GivesBack output (start configuration output path secondId).conversion := by
  intro output
  cases settled with
  | inl unchanged =>
      have alone := givesBack_of_unchanged unchanged
      have output_eq : output = code := alone.code_eq
      rw [output_eq, conversion_start_eq configuration code path secondId firstId]
      exact alone
  | inr declines => exact givesBack_of_declines declines

/-- A class with a rule, and another one nested in a class without a rule. -/
def separateRules : String :=
  "class A \x7b\n    @org.junit.Rule\n    org.junit.rules.ExpectedException rule;\n\x7d\n" ++
    "class B \x7b\n    class C \x7b\n        @org.junit.Rule\n" ++
    "        org.junit.rules.ExpectedException rule;\n    \x7d\n\x7d\n"

theorem givesBack_again_separateRules :
    let output := (start .standard separateRules none 1).conversion.code
    (start .standard separateRules none 1).conversion.changed = true ∧
      (∀ result, SourceUnit.parse output none 1 = .ok result →
        ∀ recipe ∈ Configuration.standard.recipes, recipe.Declines result.1) ∧
      GivesBack output (start .standard output none 1).conversion := by
  intro output
  have observed : (start .standard separateRules none 1).conversion.changed = true ∧
      ∃ result ∈ (SourceUnit.parse output none 1).toOption,
        ∀ recipe ∈ Configuration.standard.recipes, recipe.Declines result.1 := by
    decide +kernel
  obtain ⟨changed, result, isResult, declines⟩ := observed
  have declinesAll : ∀ other, SourceUnit.parse output none 1 = .ok other →
      ∀ recipe ∈ Configuration.standard.recipes, recipe.Declines other.1 := by
    intro other parsed
    have same : Except.ok result = .ok other :=
      (Except.eq_ok_of_mem_toOption isResult).symm.trans parsed
    cases same
    exact declines
  exact ⟨changed, declinesAll, givesBack_again (.inr declinesAll)⟩

/-- A class and one nested in it, each with a rule of the same name. -/
def nestedRules : String :=
  "import org.junit.Rule;\nimport org.junit.rules.ExpectedException;\n" ++
    "class A \x7b\n    @Rule\n    ExpectedException rule;\n" ++
    "    class B \x7b\n        @Rule\n        ExpectedException rule;\n    \x7d\n\x7d\n"

/--
The enclosing class is planned only after the nested one has lost its rule, so a second run changes
what the first one has made.
-/
theorem changed_again :
    (start .standard nestedRules none 1).conversion.success = true ∧
      ¬GivesBack (start .standard nestedRules none 1).conversion.code
        (start .standard (start .standard nestedRules none 1).conversion.code none
          1).conversion := by
  have observed : (start .standard nestedRules none 1).conversion.success = true ∧
      (start .standard (start .standard nestedRules none 1).conversion.code none
        1).conversion.changed = true := by
    decide +kernel
  refine ⟨observed.1, ?_⟩
  intro alone
  exact absurd alone.unchanged (by rw [observed.2]; decide)

end Run

end JupiterMigration
