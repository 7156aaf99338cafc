import JupiterMigration.Conversion
import JupiterMigration.Proofs.Session

/-!
# Conversions

A phase gives the result of its step (`Stages.run_phase`), so a run reads the source, applies the
recipes to its tree and concludes (`Run.conversion_eq`).

What comes out need not be Java: the call of another constructor may get into a method
(`Run.output_ungrammatical`).
-/

namespace JupiterMigration

namespace Stages

/-- A phase gives the result of its step, which deals out the same numbers. -/
theorem run_phase
    {α : Type}
    (name detail : String)
    (step : Migration α)
    (session : Session) :
    ∃ later, later.nextId = session.nextId ∧
      ((phase name detail step).run session).1 = (step.run later).1 :=
  ⟨((Migration.startPhase name detail).run session).2, rfl, rfl⟩

end Stages

/-- Reading a source gives its tree, numbered from the next number on. -/
theorem Conversion.run_readUnit
    (code : String)
    (path : Option String)
    (session : Session) :
    ((readUnit code path).run session).1 =
      (SourceUnit.parse code path session.nextId).map Prod.fst := by
  unfold readUnit SourceUnit.parse
  cases SourceUnit.read? code path with
  | none => rfl
  | some unit => rfl

namespace Run

open Conversion

/-- The steps of a run: it reads the source, applies the recipes to its tree and concludes. -/
theorem conversion_eq
    (configuration : Configuration)
    (code : String)
    (path : Option String)
    (firstId : Nat) :
    match SourceUnit.parse code path firstId with
    | .error _ =>
      ∃ errors trace, (start configuration code path firstId).conversion =
        failure code path errors trace
    | .ok (unit, _) =>
      ∃ early late, (start configuration code path firstId).conversion =
        ((conclude configuration code path
          ((applyRecipes (Layout.ofUnit unit configuration.indent) configuration.recipes
            unit).run early).1).run late).1 := by
  have run_eq : (start configuration code path firstId).conversion =
      ((convert configuration code path).run ⟨.empty, firstId⟩).1 := rfl
  rw [run_eq]
  unfold convert
  rw [Migration.run_bind, Migration.run_bind]
  generalize session_eq : ((Migration.startPhase "Migration Pipeline" (label path)).run
    ⟨.empty, firstId⟩).2 = session
  have sameId : session.nextId = firstId := by rw [← session_eq]; rfl
  obtain ⟨later, laterId, phase_eq⟩ := Stages.run_phase "Parsing" "Java source -> SourceUnit"
    (readUnit code path) session
  rw [run_readUnit, laterId, sameId] at phase_eq
  rw [phase_eq]
  cases parsed : SourceUnit.parse code path firstId with
  | error error => exact ⟨_, _, rfl⟩
  | ok result => exact ⟨_, _, rfl⟩

/--
A class whose constructor calls the one of its superclass, with a comment before the arguments.
-/
def commentedDelegation : String :=
  "@org.junit.runner.RunWith(org.junit.runners.Parameterized.class)\nclass A \x7b\n" ++
    "    A(int x) \x7b\n        super /* none */ ();\n    \x7d\n\n" ++
    "    @org.junit.runners.Parameterized.Parameters\n    static Object f() \x7b\n" ++
    "        return null;\n    \x7d\n\x7d\n"

/--
The call of another constructor is not noticed behind a comment.  The constructor becomes a method,
in which such a call is no Java.
-/
theorem output_ungrammatical :
    (start .standard commentedDelegation none 1).conversion.success = true ∧
      (start .standard commentedDelegation none 1).conversion.changed = true ∧
      (SourceUnit.phrases?
        (start .standard commentedDelegation none 1).conversion.code).isNone = true := by
  decide +kernel

end Run

end JupiterMigration
