import JupiterMigration.Proofs.Conversion
import JupiterMigration.Proofs.Recording

/-!
# What the outcome of a conversion reports

The outcome of a conversion says truly whether the code has changed, which warnings have been
recorded, and why a conversion has failed.  Without a transformation on record, the code is returned
as it was and no import has been touched (`Run.reports_conversion`).
-/

namespace JupiterMigration

open Conversion

/-! ## Applying recipes -/

/-- The recipes that have migrated a file are accounted for in the trace. -/
structure Conversion.Applied.AccountedFor
    (base : Session)
    (result : Conversion.Applied)
    (session : Session) : Prop where
  accounts : Accounts base (result.recipes ≠ []) session
  unchanged : result.recipes = [] → result.update = none

namespace Conversion.Applied.AccountedFor

variable
  {base session : Session}
  {result : Conversion.Applied}

theorem after_quiet
    {later : Session}
    (accounted : result.AccountedFor base session)
    (quietly : session.Extends Happening.IsQuiet later) : result.AccountedFor base later :=
  ⟨accounted.accounts.after_quiet quietly, accounted.unchanged⟩

/-- If no recipe has migrated anything, all is quiet. -/
theorem isQuiet
    (accounted : result.AccountedFor base session)
    (quiet : ∀ event ∈ base.journal.trace.events, event.happening.IsQuiet)
    (nothing : result.recipes = []) :
    ∀ event ∈ session.journal.trace.events, event.happening.IsQuiet := by
  intro event member
  have quietly := accounted.accounts.quiet (not_not_intro nothing)
  exact (quietly.mem_or_allowed member).elim (quiet event) id

/-- Without a transformation on record, no recipe has migrated anything. -/
theorem recipes_eq_nil
    (accounted : result.AccountedFor base session)
    (untransformed : ∀ event ∈ session.journal.trace.events,
      event.happening.transforms = false) : result.recipes = [] := by
  by_cases nothing : result.recipes = []
  · exact nothing
  · obtain ⟨event, member, transforms⟩ := accounted.accounts.transformed nothing
    rw [untransformed event member] at transforms
    exact absurd transforms Bool.false_ne_true

end Conversion.Applied.AccountedFor

theorem Accounts.trans
    {base earlier later : Session}
    {first second : Prop}
    (front : Accounts base first earlier)
    (back : Accounts earlier second later) : Accounts base (first ∨ second) later where
  grows := front.grows.trans back.grows
  quiet nothing := (front.quiet (not_or.mp nothing).1).trans (back.quiet (not_or.mp nothing).2)
  transformed some := by
    cases some with
    | inl inFront =>
        obtain ⟨event, member, transforms⟩ := front.transformed inFront
        exact ⟨event, back.grows.mem_events member, transforms⟩
    | inr inBack => exact back.transformed inBack

namespace Conversion

theorem accountedFor_applyRecipe
    {base session : Session}
    {layout : Layout}
    {unit : SourceUnit}
    {before : Applied}
    (accounted : before.AccountedFor base session)
    (recipe : Recipe) :
    ((applyRecipe layout unit before recipe).run session).1.AccountedFor base
      ((applyRecipe layout unit before recipe).run session).2 := by
  have applied := Stages.accounts_phase (· ≠ none) ("Recipe " ++ recipe.name)
    recipe.description (recipe.accounts_apply layout (before.update.getD unit)) session
  unfold applyRecipe
  rw [Migration.run_bind, Migration.run_pure]
  generalize (Stages.phase ("Recipe " ++ recipe.name) recipe.description
    (recipe.apply layout (before.update.getD unit))).run session = result at applied ⊢
  have both := accounted.accounts.trans applied
  cases update_eq : result.1 with
  | none => exact ⟨both.congr (by simp [update_eq]), accounted.unchanged⟩
  | some update => exact ⟨both.congr (by simp [update_eq]), fun none => by simp at none⟩

theorem accountedFor_applyRecipes
    (layout : Layout)
    (recipes : List Recipe)
    (unit : SourceUnit)
    (session : Session) :
    ((applyRecipes layout recipes unit).run session).1.AccountedFor session
      ((applyRecipes layout recipes unit).run session).2 := by
  have steps (before : Applied) (later : Session) (accounted : before.AccountedFor session later) :
      ((recipes.foldlM (applyRecipe layout unit) before).run later).1.AccountedFor session
        ((recipes.foldlM (applyRecipe layout unit) before).run later).2 := by
    induction recipes generalizing before later with
    | nil => exact accounted
    | cons first rest inductionHypothesis =>
        rw [List.foldlM_cons, Migration.run_bind]
        exact inductionHypothesis _ _ (accountedFor_applyRecipe accounted first)
  exact steps ⟨none, []⟩ session ⟨.of_quiet (.refl session) (by simp), fun _ => rfl⟩

/-- The outcome where the source could be read. -/
theorem run_conclude
    (configuration : Configuration)
    (code : String)
    (path : Option String)
    (result : Applied)
    (session : Session) :
    let trace := session.journal.trace
    let output := (result.update.map SourceUnit.print).getD code
    ((conclude configuration code path result).run session).1 =
      if configuration.strict && !trace.warnings.isEmpty then
        failure code path trace.warnings trace
      else ⟨output, path, trace.warnings, true, decide (output ≠ code), result.recipes, trace⟩ := by
  unfold conclude
  have warnings_eq : Migration.warnings.run session =
      (session.journal.trace.warnings, session) := rfl
  have get_eq : (get : Migration Session).run session = (session, session) := rfl
  rw [Migration.run_bind, warnings_eq, Migration.run_bind, get_eq]
  dsimp only
  split
  · rfl
  · split <;> rfl

theorem records_readUnit (code : String) (path : Option String) :
    Migration.Records Happening.IsQuiet (readUnit code path) :=
  holds_readUnit Migration.plain_quiet code path

/-- The reading of a source, which is the first phase of a conversion. -/
def reading (code : String) (path : Option String) : Migration (Except SyntaxError SourceUnit) := do
  Migration.startPhase "Migration Pipeline" (label path)
  Stages.phase "Parsing" "Java source -> SourceUnit" (readUnit code path)

theorem records_reading (code : String) (path : Option String) :
    Migration.Records Happening.IsQuiet (reading code path) :=
  (Migration.records_startPhase ⟨rfl, rfl⟩).bind fun _ =>
    Stages.records_phase ⟨rfl, rfl⟩ (records_readUnit code path) ⟨rfl, rfl⟩

theorem run_reading (code : String) (path : Option String) (session : Session) :
    ((reading code path).run session).1 =
      (SourceUnit.parse code path session.nextId).map Prod.fst := by
  obtain ⟨later, sameId, phase_eq⟩ := Stages.run_phase "Parsing" "Java source -> SourceUnit"
    (readUnit code path) ((Migration.startPhase "Migration Pipeline" (label path)).run session).2
  rw [run_readUnit, sameId] at phase_eq
  exact phase_eq

/-- The only warning about a source that cannot be read is that it cannot be read. -/
theorem warnings_of_error
    {code : String}
    {path : Option String}
    {firstId : Nat}
    {error : SyntaxError}
    (unreadable : SourceUnit.parse code path firstId = .error error) :
    (Migration.endPhase.run
        ((reading code path).run ⟨.empty, firstId⟩).2).2.journal.trace.warnings =
      ["Parse Error: " ++ error.message] := by
  unfold SourceUnit.parse at unreadable
  cases read_eq : SourceUnit.read? code path with
  | some unit =>
      rw [read_eq] at unreadable
      cases unreadable
  | none =>
      rw [read_eq] at unreadable
      cases unreadable
      unfold reading readUnit
      rw [read_eq]
      rfl

/-- What a conversion does once it has tried to read the source. -/
def proceed (configuration : Configuration) (code : String) (path : Option String) :
    Except SyntaxError SourceUnit → Migration Conversion
  | .error error => do
    Migration.endPhase
    return failure code path ["Parse Error: " ++ error.message] (← get).journal.trace
  | .ok unit => do
    let layout := Layout.ofUnit unit configuration.indent
    let result ← applyRecipes layout configuration.recipes unit
    Migration.endPhase
    conclude configuration code path result

theorem run_convert
    (configuration : Configuration)
    (code : String)
    (path : Option String)
    (session : Session) :
    (convert configuration code path).run session =
      (proceed configuration code path ((reading code path).run session).1).run
        ((reading code path).run session).2 :=
  rfl

end Conversion

/-! ## The outcome -/

/-- The warnings of a trace are the descriptions of its events of that kind. -/
theorem Trace.warnings_eq (trace : Trace) :
    trace.warnings =
      (trace.events.filter (·.happening.kindName == "analysis_warning")).map
        (·.happening.description) := by
  have each (event : TraceEvent) : event.happening.warning? =
      if event.happening.kindName == "analysis_warning" then some event.happening.description
      else none := by
    cases event.happening <;> rfl
  unfold warnings
  induction trace.events with
  | nil => rfl
  | cons first rest inductionHypothesis =>
      rw [List.filterMap_cons, each first, List.filter_cons]
      split <;> simp_all

/-- What the outcome of a conversion reports about its source. -/
structure Conversion.Reports
    (configuration : Configuration)
    (code : String)
    (path : Option String)
    (firstId : Nat)
    (conversion : Conversion) : Prop where
  /-- A failed conversion leaves the source alone. -/
  failed : conversion.success = false →
    conversion.code = code ∧ conversion.changed = false ∧ conversion.applied = []
  changed_iff : conversion.changed = true ↔ conversion.code ≠ code
  /-- Without a transformation, the source is left alone, and so are its imports. -/
  untransformed : (∀ event ∈ conversion.trace.events, event.happening.transforms = false) →
    conversion.code = code ∧
      ∀ event ∈ conversion.trace.events, event.happening.changesImports = false
  /-- A recipe has been applied exactly if there is a transformation. -/
  applied_iff : conversion.success = true →
    (conversion.applied ≠ [] ↔
      ∃ event ∈ conversion.trace.events, event.happening.transforms = true)
  errors_eq : conversion.errors =
    (conversion.trace.events.filter (·.happening.kindName == "analysis_warning")).map
      (·.happening.description)
  failed_iff : conversion.success = false ↔
    (∃ error, SourceUnit.parse code path firstId = .error error) ∨
      (configuration.strict = true ∧ conversion.errors ≠ [])

namespace Conversion

/-- The outcome where the source cannot be read. -/
theorem reports_of_error
    {code : String}
    {path : Option String}
    {firstId : Nat}
    {error : SyntaxError}
    (configuration : Configuration)
    (unreadable : SourceUnit.parse code path firstId = .error error)
    {trace : Trace}
    (quiet : ∀ event ∈ trace.events, event.happening.IsQuiet) :
    Reports configuration code path firstId (failure code path trace.warnings trace) where
  failed _ := ⟨rfl, rfl, rfl⟩
  changed_iff := by simp [failure]
  untransformed _ := ⟨rfl, fun event member => (quiet event member).2⟩
  applied_iff succeeded := absurd succeeded Bool.false_ne_true
  errors_eq := trace.warnings_eq
  failed_iff := ⟨fun _ => .inl ⟨error, unreadable⟩, fun _ => rfl⟩

/-- The outcome where the source could be read and recipes have been applied. -/
theorem reports_conclude
    {code : String}
    {path : Option String}
    {firstId : Nat}
    {parsed : SourceUnit × Nat}
    {result : Applied}
    {base session : Session}
    (configuration : Configuration)
    (readable : SourceUnit.parse code path firstId = .ok parsed)
    (accounted : result.AccountedFor base session)
    (quiet : ∀ event ∈ base.journal.trace.events, event.happening.IsQuiet) :
    Reports configuration code path firstId
      ((conclude configuration code path result).run session).1 := by
  have isReadable : ¬∃ error, SourceUnit.parse code path firstId = .error error := by
    simp [readable]
  rw [run_conclude]
  split
  · next strictly =>
      rw [Bool.and_eq_true] at strictly
      exact {
        failed := fun _ => ⟨rfl, rfl, rfl⟩
        changed_iff := by simp [failure]
        untransformed := fun untransformed => by
          have nothing := accounted.recipes_eq_nil untransformed
          exact ⟨rfl, fun event member => (accounted.isQuiet quiet nothing event member).2⟩
        applied_iff := fun succeeded => absurd succeeded Bool.false_ne_true
        errors_eq := Trace.warnings_eq _
        failed_iff :=
          ⟨fun _ => .inr ⟨strictly.1, by simpa [failure] using strictly.2⟩, fun _ => rfl⟩ }
  · next loosely =>
      exact {
        failed := fun failed => absurd failed.symm Bool.false_ne_true
        changed_iff := decide_eq_true_iff
        untransformed := fun untransformed => by
          have nothing := accounted.recipes_eq_nil untransformed
          refine ⟨?_, fun event member => (accounted.isQuiet quiet nothing event member).2⟩
          rw [accounted.unchanged nothing]
          rfl
        applied_iff := fun _ => by
          refine ⟨accounted.accounts.transformed, ?_⟩
          rintro ⟨event, member, transforms⟩ nothing
          rw [(accounted.isQuiet quiet nothing event member).1] at transforms
          exact absurd transforms Bool.false_ne_true
        errors_eq := Trace.warnings_eq _
        failed_iff := by
          refine ⟨fun failed => absurd failed.symm Bool.false_ne_true, ?_⟩
          rintro (unreadable | ⟨isStrict, warned⟩)
          · exact absurd unreadable isReadable
          · exact absurd (by simp [isStrict, warned]) loosely }

end Conversion

/-- A conversion changes the source if it succeeds with another code. -/
theorem Run.changed_start_iff
    (configuration : Configuration)
    (code : String)
    (path : Option String)
    (firstId : Nat) :
    (start configuration code path firstId).conversion.changed = true ↔
      (start configuration code path firstId).conversion.success = true ∧
        (start configuration code path firstId).conversion.code ≠ code := by
  have outcome : (start configuration code path firstId).conversion =
      ((proceed configuration code path ((reading code path).run ⟨.empty, firstId⟩).1).run
        ((reading code path).run ⟨.empty, firstId⟩).2).1 :=
    congrArg Prod.fst (run_convert configuration code path ⟨.empty, firstId⟩)
  rw [outcome]
  cases ((reading code path).run ⟨.empty, firstId⟩).1 with
  | error error => exact ⟨nofun, fun both => absurd both.1 Bool.false_ne_true⟩
  | ok unit =>
      unfold proceed
      dsimp only
      rw [Migration.run_bind, Migration.run_bind, run_conclude]
      split
      · exact ⟨nofun, fun both => absurd both.1 Bool.false_ne_true⟩
      · exact decide_eq_true_iff.trans ⟨fun differs => ⟨rfl, differs⟩, And.right⟩

/-- The outcome of a conversion reports truly what has become of the source. -/
theorem Run.reports_conversion
    (configuration : Configuration)
    (code : String)
    (path : Option String)
    (firstId : Nat) :
    (start configuration code path firstId).conversion.Reports configuration code path firstId := by
  have result_eq := run_reading code path ⟨.empty, firstId⟩
  have outcome : (start configuration code path firstId).conversion =
      ((proceed configuration code path ((reading code path).run ⟨.empty, firstId⟩).1).run
        ((reading code path).run ⟨.empty, firstId⟩).2).1 :=
    congrArg Prod.fst (run_convert configuration code path ⟨.empty, firstId⟩)
  have quiet {session : Session}
      (quietly : ((reading code path).run ⟨.empty, firstId⟩).2.Extends Happening.IsQuiet session) :
      ∀ event ∈ session.journal.trace.events, event.happening.IsQuiet := by
    intro event member
    have whole := (records_reading code path ⟨.empty, firstId⟩).trans quietly
    exact (whole.mem_or_allowed member).elim (fun old => absurd old List.not_mem_nil) id
  cases parsed : SourceUnit.parse code path firstId with
  | error error =>
      rw [result_eq, parsed] at outcome
      have reports := reports_of_error configuration parsed
        (quiet (Migration.records_endPhase ⟨rfl, rfl⟩ _))
      rw [warnings_of_error parsed] at reports
      rw [outcome]
      exact reports
  | ok result =>
      rw [result_eq, parsed] at outcome
      have accounted := accountedFor_applyRecipes
        (Layout.ofUnit result.1 configuration.indent) configuration.recipes result.1
        ((reading code path).run ⟨.empty, firstId⟩).2
      have closed := accounted.after_quiet (Migration.records_endPhase ⟨rfl, rfl⟩ _)
      have reports := reports_conclude configuration parsed closed (quiet (.refl _))
      rw [outcome]
      exact reports

end JupiterMigration
