import JupiterMigration.Proofs.Renumbering.ExpectedException
import JupiterMigration.Proofs.Renumbering.Parameterized
import JupiterMigration.Proofs.Report

/-!
# Conversions from two counters

The outcome of a conversion does not depend on the number from which nodes are numbered
(`Run.conversion_start_eq`).  Two runs read the same tree, apart from the numbers, and every recipe
keeps it that way: plans, facts, marks and members are found by the equality of numbers alone.
-/

namespace JupiterMigration

section Steps

variable {number : Nat → Nat} (injective : Function.Injective number) (zero : number 0 = 0)
include injective zero

/-- A recipe does the same to a file with other numbers. -/
theorem Recipe.renumbers_apply
    (recipe : Recipe)
    (layout : Layout)
    {unit other : SourceUnit}
    (related : unit.IsRenumbered number other) :
    (Migration.renumbering number).Holds (Option.Rel (SourceUnit.IsRenumbered number))
      (recipe.apply layout unit) (recipe.apply layout other) := by
  cases recipe with
  | parameterized =>
      refine Stages.renumbers_apply (Parameterized.stages layout) related ?_ fun plans =>
        Parameterized.renumbers_migratePlans injective layout plans related
      refine (Migration.renumbering number).bind
        (Parameterized.renumbers_collect injective zero related) ?_
      rintro collection _ rfl
      exact (Migration.renumbering number).pure rfl
  | expectedException =>
      exact Stages.renumbers_apply (ExpectedException.stages layout) related
        (ExpectedException.renumbers_collect injective related) fun plans =>
          ExpectedException.renumbers_migratePlans injective layout plans related

namespace Conversion

/-- What recipes have made of a file with other numbers. -/
structure Applied.IsRenumbered (number : Nat → Nat) (result other : Applied) : Prop where
  update : Option.Rel (SourceUnit.IsRenumbered number) result.update other.update
  recipes : result.recipes = other.recipes

theorem renumbers_applyRecipes
    (layout : Layout)
    (recipes : List Recipe)
    {unit other : SourceUnit}
    (related : unit.IsRenumbered number other) :
    (Migration.renumbering number).Holds (Applied.IsRenumbered number)
      (applyRecipes layout recipes unit) (applyRecipes layout recipes other) := by
  have same : List.Forall₂ Eq recipes recipes := List.forall₂_refl recipes
  refine (Migration.renumbering number).foldlM same ?_ ⟨.none, rfl⟩
  rintro before twin results recipe _ rfl
  have units : (before.update.getD unit).IsRenumbered number (twin.update.getD other) := by
    obtain ⟨update, recipes⟩ := before
    obtain ⟨twinUpdate, twinRecipes⟩ := twin
    cases results.update with
    | none => exact related
    | some updated => exact updated
  refine (Migration.renumbering number).bind (Stages.renumbers_phase _ _
    (recipe.renumbers_apply injective zero layout units)) fun update twinUpdate updates => ?_
  refine (Migration.renumbering number).pure ?_
  cases updates with
  | none => exact results
  | some updated => exact ⟨.some updated, congrArg (· ++ [recipe]) results.recipes⟩

omit injective zero in
theorem renumbers_conclude
    (configuration : Configuration)
    (code : String)
    (path : Option String)
    {result other : Applied}
    (related : result.IsRenumbered number other) :
    (Migration.renumbering number).Holds Eq (conclude configuration code path result)
      (conclude configuration code path other) := by
  have output_eq : (result.update.map SourceUnit.print).getD code =
      (other.update.map SourceUnit.print).getD code := by
    obtain ⟨update, recipes⟩ := result
    obtain ⟨twinUpdate, twinRecipes⟩ := other
    cases related.update with
    | none => rfl
    | some updated =>
        obtain ⟨id, rfl⟩ := updated
        exact (SourceUnit.print_renumbered number id _).symm
  unfold conclude
  refine (Migration.renumbering number).bind Migration.renumbers_warnings ?_
  rintro errors _ rfl
  refine (Migration.renumbering number).bind Migration.renumbers_get ?_
  intro session later sessions
  rw [sessions.journal, related.recipes, output_eq]
  dsimp only
  split
  · exact (Migration.renumbering number).bind (Migration.renumbers_log _ _) fun _ _ _ =>
      (Migration.renumbering number).pure rfl
  · split
    · exact (Migration.renumbering number).bind (Migration.renumbers_log _ _) fun _ _ _ =>
        (Migration.renumbering number).pure rfl
    · exact (Migration.renumbering number).pure rfl

theorem renumbers_proceed
    (configuration : Configuration)
    (code : String)
    (path : Option String)
    {unit other : SourceUnit}
    (related : unit.IsRenumbered number other) :
    (Migration.renumbering number).Holds Eq (proceed configuration code path (.ok unit))
      (proceed configuration code path (.ok other)) := by
  have layout_eq : Layout.ofUnit other configuration.indent =
      Layout.ofUnit unit configuration.indent := by
    obtain ⟨id, rfl⟩ := related
    exact Layout.ofUnit_renumbered number id unit configuration.indent
  unfold proceed
  dsimp only
  rw [layout_eq]
  refine (Migration.renumbering number).bind (renumbers_applyRecipes injective zero _ _ related)
    fun result twin results => ?_
  refine (Migration.renumbering number).bind (Migration.renumbers_traced _) fun _ _ _ => ?_
  exact renumbers_conclude configuration code path results

end Conversion

end Steps

/-! ## Counters that stand anywhere -/

/-- From a number on, numbers are raised by a distance; the smaller ones stay. -/
def raised (first distance id : Nat) : Nat :=
  if id < first then id else id + distance

theorem injective_raised (first distance : Nat) : Function.Injective (raised first distance) := by
  intro id other same
  unfold raised at same
  split at same <;> split at same <;> omega

theorem aligned_raised (first distance : Nat) :
    Aligned (raised first distance) first (first + distance) := by
  intro count
  unfold raised
  rw [if_neg (by omega)]
  omega

namespace Run

open Conversion

theorem conversion_start_add
    (configuration : Configuration)
    (code : String)
    (path : Option String)
    (firstId distance : Nat) :
    (start configuration code path (firstId + distance)).conversion =
      (start configuration code path firstId).conversion := by
  have outcome (id : Nat) : (start configuration code path id).conversion =
      ((proceed configuration code path ((reading code path).run ⟨.empty, id⟩).1).run
        ((reading code path).run ⟨.empty, id⟩).2).1 :=
    congrArg Prod.fst (run_convert configuration code path ⟨.empty, id⟩)
  rw [outcome, outcome]
  cases read_eq : SourceUnit.read? code path with
  | none =>
      unfold reading readUnit
      rw [read_eq]
      rfl
  | some unit =>
      -- Only the file itself has the first number, which no step ever looks for.
      have aligned : Aligned (raised (firstId + 1) distance) (firstId + 1)
          (firstId + distance + 1) := by
        rw [Nat.add_right_comm]
        exact aligned_raised (firstId + 1) distance
      obtain ⟨members_eq, later⟩ := Member.renumbers_numberedAll unit.members _ _ aligned
      have units : (unit.numbered.run firstId).1.IsRenumbered (raised (firstId + 1) distance)
          (unit.numbered.run (firstId + distance)).1 :=
        ⟨firstId + distance, congrArg
          (fun members => { unit with id := firstId + distance, members }) members_eq⟩
      have sessions : Session.Renumbered (raised (firstId + 1) distance)
          ((reading code path).run ⟨.empty, firstId⟩).2
          ((reading code path).run ⟨.empty, firstId + distance⟩).2 := by
        unfold reading readUnit
        rw [read_eq]
        exact ⟨rfl, later⟩
      have results (id : Nat) : ((reading code path).run ⟨.empty, id⟩).1 =
          .ok (unit.numbered.run id).1 := by
        rw [run_reading, SourceUnit.parse, read_eq]
        rfl
      rw [results, results]
      exact (renumbers_proceed (injective_raised _ _) rfl configuration code path units _ _
        sessions).1.symm

/-- The outcome of a conversion does not depend on the number from which nodes are numbered. -/
theorem conversion_start_eq
    (configuration : Configuration)
    (code : String)
    (path : Option String)
    (firstId otherId : Nat) :
    (start configuration code path firstId).conversion =
      (start configuration code path otherId).conversion := by
  obtain ⟨distance, rfl⟩ | ⟨distance, rfl⟩ :=
    (Nat.le_total firstId otherId).imp Nat.exists_eq_add_of_le Nat.exists_eq_add_of_le
  · exact (conversion_start_add configuration code path firstId distance).symm
  · exact conversion_start_add configuration code path otherId distance

end Run

end JupiterMigration
