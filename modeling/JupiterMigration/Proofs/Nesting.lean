import JupiterMigration.Proofs.Report
import JupiterMigration.Proofs.Trace

/-!
# The phases of a conversion

Every step of a conversion ends the phases that it begins, and what it records is recorded in the
innermost open phase.  So the trace of a conversion is well bracketed (`Run.wellBracketed`).
-/

namespace JupiterMigration

namespace Migration

/-- The steps in an open phase that keep the trace sound and the same phases open. -/
def nesting : StepKind Migration where
  Holds step := ∀ session, session.journal.trace.Nested →
    (step.run session).2.journal.trace.Nested ∧
      (step.run session).2.journal.trace.openPhases = session.journal.trace.openPhases
  pure _ _ nested := ⟨nested, rfl⟩
  bind first second session nested := by
    obtain ⟨between, phases_eq⟩ := first session nested
    obtain ⟨after, later_eq⟩ := second _ _ between
    exact ⟨after, later_eq.trans phases_eq⟩

/-- What is neither the start nor the end of a phase leaves the same phases open. -/
theorem nesting_record
    {happening : Happening}
    (notStart : happening.isStart = false)
    (notEnd : happening.isEnd = false) : nesting.Holds (record happening) :=
  fun _ nested => ⟨nested.record notStart notEnd, rfl⟩

/-- A phase ends itself if its step leaves the same phases open. -/
theorem nesting_phase
    {α : Type}
    (name detail : String)
    {step : Migration α}
    (holds : nesting.Holds step) : nesting.Holds (Stages.phase name detail step) := by
  intro session nested
  obtain ⟨inside, phases_eq⟩ := holds ((startPhase name detail).run session).2
    (nested.startPhase name detail)
  obtain ⟨sound, outer_eq, rooted⟩ := inside.endPhase phases_eq
  refine ⟨⟨sound, ?_, rooted⟩, outer_eq⟩
  exact fun noPhases => nested.inPhase (outer_eq.symm.trans noPhases)

/-- All steps of recipes keep the trace sound and the same phases open. -/
theorem phased_nesting : nesting.Phased where
  log _ _ _ nested := ⟨nested, rfl⟩
  record happening isPlain := by
    cases happening with
    | matched | warning | inspection => exact nesting_record rfl rfl
    | _ => cases isPlain
  number _ _ nested := ⟨nested, rfl⟩
  transformed _ _ _ := nesting_record rfl rfl
  importAction _ _ _ := nesting_record rfl rfl
  phase := nesting_phase

end Migration

namespace Conversion

/-- After a source has been read, only the outermost phase is open. -/
theorem nested_reading (code : String) (path : Option String) (firstId : Nat) :
    ((reading code path).run ⟨.empty, firstId⟩).2.journal.trace.Nested ∧
      ((reading code path).run ⟨.empty, firstId⟩).2.journal.trace.openPhases = [0] :=
  Migration.nesting_phase "Parsing" "Java source -> SourceUnit"
    (holds_readUnit Migration.phased_nesting.toPlain code path) _
    (Trace.nested_startPhase_empty "Migration Pipeline" (label path))

/-- The outcome of a conversion holds the trace as it is at the end. -/
theorem trace_conclude
    (configuration : Configuration)
    (code : String)
    (path : Option String)
    (result : Applied)
    (session : Session) :
    ((conclude configuration code path result).run session).1.trace = session.journal.trace := by
  rw [run_conclude]
  split <;> rfl

end Conversion

open Conversion in
/--
In the trace of a conversion, whatever the source and the configuration are, the starts and ends of
phases are balanced, and every event is in the innermost phase that was open.
-/
theorem Run.wellBracketed
    (configuration : Configuration)
    (code : String)
    (path : Option String)
    (firstId : Nat) :
    Trace.WellBracketed (start configuration code path firstId).conversion.trace.events := by
  have outcome : (start configuration code path firstId).conversion =
      ((proceed configuration code path ((reading code path).run ⟨.empty, firstId⟩).1).run
        ((reading code path).run ⟨.empty, firstId⟩).2).1 :=
    congrArg Prod.fst (run_convert configuration code path ⟨.empty, firstId⟩)
  obtain ⟨nested, phases_eq⟩ := nested_reading code path firstId
  rw [outcome]
  cases ((reading code path).run ⟨.empty, firstId⟩).1 with
  | error error => exact nested.brackets phases_eq
  | ok unit =>
      obtain ⟨applied, same⟩ := holds_applyRecipes Migration.phased_nesting
        (Layout.ofUnit unit configuration.indent) unit configuration.recipes _ nested
      unfold proceed
      dsimp only
      rw [Migration.run_bind, Migration.run_bind, trace_conclude]
      exact applied.brackets (same.trans phases_eq)

end JupiterMigration
