import JupiterMigration.Proofs.InPlace.Copies
import JupiterMigration.Proofs.InPlace.Plans

/-!
# Numbers single out declarations

In every file that a conversion holds, classes, methods, fields and annotations have different
numbers, and copies of declarations keep theirs.  So the numbers in a plan lead back to what it has
been made from, and looking a plan up by a number is the same as having it at hand: every class is
migrated by the plan that is made from it, and its constructor, fields, methods and annotations by
what they are and where they stand (`Conversion.numbers_single_out`).
-/

namespace JupiterMigration

/-! ## On the way -/

namespace Stages

variable {Plan : Type} {stages : Stages Plan}

/--
A file that is held while a recipe is at work on another one: the planned classes of that have been
migrated, and some changes have been made to the imports.
-/
def HoldsOnTheWay (stages : Stages Plan) (next : Nat) (unit held : SourceUnit) : Prop :=
  ∃ plans migrating changes changing, next ≤ migrating.nextId ∧
    held = ((Imports.makeAll changes
      ((stages.migrate plans unit).run migrating).1.unit).run changing).1

theorem HoldsOnTheWay.exists_distinct
    {Rewrites : SourceUnit → Session → ClassDecl → ClassDecl → ClassDecl → Prop}
    (rewriting : stages.Rewriting Rewrites)
    {next : Nat}
    {unit held : SourceUnit}
    (holds : stages.HoldsOnTheWay next unit held)
    (distinct : Member.Distinct unit.nonImports next) :
    ∃ later, Member.Distinct held.nonImports later := by
  obtain ⟨plans, migrating, changes, changing, le, rfl⟩ := holds
  have migrated := (distinct.mono le).renewed (rewriting.renews plans unit migrating)
  exact ⟨_, Member.SameButLead.distinct (Imports.sameButLead_makeAll changes _ changing) migrated⟩

end Stages

namespace Recipe

/-- A file that is held while a recipe is at work on another one. -/
def HoldsOnTheWay (layout : Layout) (next : Nat) (unit held : SourceUnit) : Recipe → Prop
  | parameterized => (Parameterized.stages layout).HoldsOnTheWay next unit held
  | expectedException => (ExpectedException.stages layout).HoldsOnTheWay next unit held

/--
Applies a recipe to a file without looking any plan up: each class is migrated by the plan that is
made from it, and its members by what they are.
-/
def applyInPlace (layout : Layout) (unit : SourceUnit) : Recipe → Migration (Option SourceUnit)
  | parameterized =>
    { Parameterized.stages layout with
      migrate := fun _ => Parameterized.migrateInPlace layout }.apply unit
  | expectedException =>
    { ExpectedException.stages layout with
      migrate := fun _ => ExpectedException.migrateInPlace layout }.apply unit

variable {recipe : Recipe} {layout : Layout} {next : Nat} {unit : SourceUnit}

theorem HoldsOnTheWay.nodup_singledOut
    {held : SourceUnit}
    (holds : recipe.HoldsOnTheWay layout next unit held)
    (distinct : Member.Distinct unit.nonImports next) : (held.singledOut.map Node.id).Nodup := by
  cases recipe with
  | parameterized =>
      obtain ⟨later, heldDistinct⟩ :=
        Stages.HoldsOnTheWay.exists_distinct (Parameterized.rewriting layout) holds distinct
      exact heldDistinct.nodup_singledOut
  | expectedException =>
      obtain ⟨later, heldDistinct⟩ :=
        Stages.HoldsOnTheWay.exists_distinct (ExpectedException.rewriting layout) holds distinct
      exact heldDistinct.nodup_singledOut

/-- In a file with different numbers, a recipe does what it would do in place. -/
theorem apply_eq_applyInPlace (distinct : Member.Distinct unit.nonImports next) :
    recipe.apply layout unit = recipe.applyInPlace layout unit := by
  cases recipe with
  | parameterized => exact Parameterized.apply_stages_eq distinct layout
  | expectedException => exact ExpectedException.apply_stages_eq distinct layout

end Recipe

namespace Conversion

/--
In the file that a conversion holds after any recipes, and in those it holds while a recipe is at
work on that file, no two classes, methods, fields and annotations have the same number.  The file
consists of copies that have the numbers of their originals, of what has been left alone, and of new
declarations.  And whatever recipe comes next, the numbers in its plans lead back to the classes,
constructors, fields and methods they have been made from, and it migrates every class by the plan
that is made from this class, and every constructor, method, field and annotation in its place, as
it would without looking anything up by a number.
-/
theorem numbers_single_out
    {source : String}
    {path : Option String}
    {next : Nat}
    {result : SourceUnit × Nat}
    (parsed : SourceUnit.parse source path next = .ok result)
    (layout : Layout)
    (recipes : List Recipe)
    (session : Session)
    (fresh : result.2 ≤ session.nextId) :
    let run := (applyRecipes layout recipes result.1).run session
    let held := run.1.update.getD result.1
    (held.singledOut.map Node.id).Nodup ∧
      (∀ recipe : Recipe, ∀ unit, recipe.HoldsOnTheWay layout run.2.nextId held unit →
        (unit.singledOut.map Node.id).Nodup) ∧
      (∃ rewritten, Recipe.Chain (fun _ rewritten unit copy => unit.Copied rewritten copy) recipes
        rewritten result.1 held) ∧
      ∀ recipe : Recipe, recipe.PlansLeadBack held ∧
        recipe.apply layout held = recipe.applyInPlace layout held := by
  obtain ⟨wellFormed, copied⟩ := chain_of_parse
    (fun _ _ _ _ wellFormed applied => Recipe.copied_of_apply wellFormed applied) parsed recipes
    fresh
  have distinct := wellFormed.distinct
  exact ⟨distinct.nodup_singledOut, fun _ _ holds => holds.nodup_singledOut distinct, copied,
    fun recipe => ⟨recipe.plansLeadBack distinct, Recipe.apply_eq_applyInPlace distinct⟩⟩

/-- A parameterized class and a class with a rule in it; methods in both have the same name. -/
def overloads : String :=
  "@org.junit.runner.RunWith(org.junit.runners.Parameterized.class)\nclass A \x7b\n" ++
    "    A(int x) \x7b \x7d\n\n    @org.junit.runners.Parameterized.Parameters\n" ++
    "    static Object m(int x) \x7b return null; \x7d\n\n" ++
    "    @org.junit.Test\n    void m() \x7b \x7d\n\n    class B \x7b\n" ++
    "        @org.junit.Rule\n        org.junit.rules.ExpectedException m;\n\n" ++
    "        void m() \x7b m.expect(E.class); f(); \x7d\n    \x7d\n\x7d\n"

theorem numbers_single_out_overloads :
    ∃ result final later, SourceUnit.parse overloads none 1 = .ok result ∧
      (applyRecipes (Layout.ofUnit result.1 none) Recipe.all result.1).run ⟨.empty, result.2⟩ =
        (⟨some final, Recipe.all⟩, later) ∧
      (final.singledOut.map Node.id).Nodup ∧
      (∃ rewritten, Recipe.Chain (fun _ rewritten unit copy => unit.Copied rewritten copy)
        Recipe.all rewritten result.1 final) ∧
      ∀ recipe : Recipe, recipe.PlansLeadBack final ∧
        recipe.apply (Layout.ofUnit result.1 none) final =
          recipe.applyInPlace (Layout.ofUnit result.1 none) final := by
  have migrates : (migrating? overloads Recipe.all).isSome = true := by decide +kernel
  obtain ⟨result, final, parsed, applied⟩ := exists_of_migrating? migrates
  have singleOut := numbers_single_out parsed (Layout.ofUnit result.1 none) Recipe.all
    ⟨.empty, result.2⟩ (Nat.le_refl _)
  dsimp only at singleOut
  rw [applied] at singleOut
  obtain ⟨distinct, -, copied, inPlace⟩ := singleOut
  exact ⟨result, final, _, parsed, Prod.ext applied rfl, distinct, copied, inPlace⟩

end Conversion

end JupiterMigration
