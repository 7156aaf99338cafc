import JupiterMigration.Proofs.Report
import JupiterMigration.Proofs.Session.Pairs
import JupiterMigration.Proofs.Steps
import JupiterMigration.Proofs.Traversal.Departures

/-!
# Sources in other places

The path of a source appears in messages, in the trace and in the tree that is read, but no step of
a conversion looks at it: wherever a source stands, its conversion gives the same code
(`Run.alike_start`).
-/

namespace JupiterMigration

/-- A file read from another place. -/
def SourceUnit.movedTo (path : Option String) (unit : SourceUnit) : SourceUnit :=
  { unit with path }

variable (path : Option String)

/-! ## Collecting plans -/

/-- Departures of the same declaration inside the same class. -/
structure Departure.Alike (departure other : Departure) : Prop where
  member : departure.member = other.member
  nearest : nearestClass? departure.above = nearestClass? other.above

namespace Member

mutual

theorem departures_alike
    {above others : List Node}
    (nearest : nearestClass? above = nearestClass? others)
    (member : Member) :
    List.Forall₂ Departure.Alike (member.departures above) (member.departures others) := by
  cases member with
  | classDecl head members =>
      have inner : nearestClass? (.member (classDecl head members) :: above) =
          nearestClass? (.member (classDecl head members) :: others) := rfl
      rw [departures, departures]
      exact List.rel_append (departuresAll_alike inner members) (.cons ⟨rfl, nearest⟩ .nil)
  | importDecl _ | verbatim _ | field _ | method _ => exact .cons ⟨rfl, nearest⟩ .nil

theorem departuresAll_alike
    {above others : List Node}
    (nearest : nearestClass? above = nearestClass? others)
    (members : List Member) :
    List.Forall₂ Departure.Alike (departuresAll above members) (departuresAll others members) := by
  cases members with
  | nil => exact .nil
  | cons first rest =>
      rw [departuresAll, departuresAll]
      exact List.rel_append (departures_alike nearest first) (departuresAll_alike nearest rest)

end

end Member

/-- A visitor that only looks at declarations and the classes around them does not see the path. -/
theorem Visitor.visit_movedTo
    {m : Type → Type}
    [Monad m]
    [LawfulMonad m]
    {visitor : Visitor m}
    (leaves : visitor.LeavesMembers)
    (each : ∀ above others member, nearestClass? above = nearestClass? others →
      visitor.leave above (.member member) = visitor.leave others (.member member))
    (unit : SourceUnit) : visitor.visit (unit.movedTo path) = visitor.visit unit := by
  have steps {departures others : List Departure}
      (alike : List.Forall₂ Departure.Alike departures others) :
      (departures.forM fun departure => visitor.leave departure.above (.member departure.member)) =
        others.forM fun departure => visitor.leave departure.above (.member departure.member) := by
    induction alike with
    | nil => rfl
    | cons head _ inductionHypothesis =>
        simp only [List.forM_eq_forM, List.forM_cons] at inductionHypothesis ⊢
        rw [head.member, each _ _ _ head.nearest, inductionHypothesis]
  rw [visit_eq_forM leaves, visit_eq_forM leaves]
  have nearest : nearestClass? [.sourceUnit (unit.movedTo path)] =
      nearestClass? [.sourceUnit unit] := rfl
  exact steps (Member.departuresAll_alike nearest unit.members)

theorem Parameterized.collect_movedTo (unit : SourceUnit) :
    collect (unit.movedTo path) = collect unit := by
  have sameLeave (above others : List Node) (member : Member)
      (nearest : nearestClass? above = nearestClass? others) :
      Collecting.leave (.ofUnit unit) above (.member member) =
        Collecting.leave (.ofUnit unit) others (.member member) := by
    cases member with
    | classDecl head members => rfl
    | importDecl _ | verbatim _ | field _ | method _ =>
        rw [Collecting.leave_of_noClass rfl, Collecting.leave_of_noClass rfl]
        unfold Collecting.observe
        rw [nearest]
  have visits := Visitor.visit_movedTo path (leavesMembers_visitor (.ofUnit unit)) sameLeave unit
  exact congrArg (fun visit : Collecting Unit => do
    let result ← visit.run .empty
    return result.2) visits

theorem ExpectedException.collect_movedTo (unit : SourceUnit) :
    collect (unit.movedTo path) = collect unit := by
  have visits := Visitor.visit_movedTo path (leavesMembers_visitor (.ofUnit unit))
    (fun _ _ _ _ => rfl) unit
  exact congrArg (fun visit : Collecting Unit => do
    let result ← visit.run []
    return result.2) visits

/-! ## Migrating and bringing imports up to date -/

/-- A migrated file in another place. -/
def MigratedUnit.movedTo (result : MigratedUnit) : MigratedUnit :=
  { result with unit := result.unit.movedTo path }

theorem Parameterized.migratePlans_movedTo
    (layout : Layout)
    (plans : List (Nat × ClassPlan))
    (unit : SourceUnit) :
    migratePlans layout plans (unit.movedTo path) =
      MigratedUnit.movedTo path <$> migratePlans layout plans unit := by
  unfold migratePlans
  rw [migrate_eq, migrate_eq]
  rfl

theorem ExpectedException.migratePlans_movedTo
    (layout : Layout)
    (plans : List (Nat × RulePlan))
    (unit : SourceUnit) :
    migratePlans layout plans (unit.movedTo path) =
      MigratedUnit.movedTo path <$> migratePlans layout plans unit := by
  unfold migratePlans
  rw [migrate_eq, migrate_eq]
  rfl

theorem Imports.make_movedTo
    (change : Change)
    (unit : SourceUnit) :
    change.make (unit.movedTo path) =
      Option.map (SourceUnit.movedTo path) <$> change.make unit := by
  cases change with
  | ensure name isStatic =>
      have same : isCovered name isStatic (unit.movedTo path) = isCovered name isStatic unit := rfl
      dsimp only [Change.make, ensure]
      rw [same]
      cases isCovered name isStatic unit <;> rfl
  | removeIfUnused name isStatic =>
      have same : single? name isStatic (unit.movedTo path) = single? name isStatic unit := rfl
      have used : (unit.movedTo path).namesUsed = unit.namesUsed := rfl
      dsimp only [Change.make, removeIfUnused]
      rw [same, used]
      cases single? name isStatic unit with
      | none => rfl
      | some position =>
          dsimp only
          cases unit.namesUsed.contains (Text.afterLastDot name) <;> rfl
  | removeWildcardIfUnused package types =>
      have same : wildcard? package (unit.movedTo path) = wildcard? package unit := rfl
      have used : (unit.movedTo path).namesUsed = unit.namesUsed := rfl
      dsimp only [Change.make, removeWildcardIfUnused]
      rw [same, used]
      cases wildcard? package unit with
      | none => rfl
      | some position =>
          dsimp only
          cases (unit.namesUsed.filter types.contains).isEmpty <;> rfl

theorem foldlM_movedTo
    {α σ : Type}
    {step twin : σ → α → Migration σ}
    {move : σ → σ}
    (each : ∀ state item, twin (move state) item = move <$> step state item)
    (items : List α)
    (start : σ) : items.foldlM twin (move start) = move <$> items.foldlM step start := by
  induction items generalizing start with
  | nil => rfl
  | cons first rest inductionHypothesis =>
      rw [List.foldlM_cons, List.foldlM_cons, each, map_bind, bind_map_left]
      exact congrArg (step start first >>= ·) (funext fun state => inductionHypothesis state)

theorem Imports.makeAll_movedTo
    (changes : List Change)
    (unit : SourceUnit) :
    makeAll changes (unit.movedTo path) = SourceUnit.movedTo path <$> makeAll changes unit := by
  refine foldlM_movedTo (fun unit change => ?_) changes unit
  rw [make_movedTo, bind_map_left, map_bind]
  refine congrArg (change.make unit >>= ·) (funext fun update => ?_)
  cases update <;> rfl

namespace Stages

variable {Plan : Type} (stages : Stages Plan)

theorem finish_movedTo (result : MigratedUnit) :
    stages.finish (result.movedTo path) = SourceUnit.movedTo path <$> stages.finish result := by
  have imports := Imports.makeAll_movedTo path result.imports.changes result.unit
  unfold finish
  have same : (result.movedTo path).imports = result.imports := rfl
  have unit_eq : (result.movedTo path).unit = result.unit.movedTo path := rfl
  rw [same, unit_eq, imports]
  rfl

theorem apply_movedTo
    (collects : ∀ unit, stages.collect (unit.movedTo path) = stages.collect unit)
    (migrates : ∀ plans unit, stages.migrate plans (unit.movedTo path) =
      MigratedUnit.movedTo path <$> stages.migrate plans unit)
    (unit : SourceUnit) :
    stages.apply (unit.movedTo path) =
      Option.map (SourceUnit.movedTo path) <$> stages.apply unit := by
  have sameUse : (unit.movedTo path).usesType stages.markerType =
      unit.usesType stages.markerType := rfl
  have planned (plans : List Plan) : stages.migratePlanned plans (unit.movedTo path) =
      Option.map (SourceUnit.movedTo path) <$> stages.migratePlanned plans unit := by
    have phased : phase "Rewrite" (stages.migrateDetail plans.length)
        (stages.migrate plans (unit.movedTo path)) =
          MigratedUnit.movedTo path <$>
            phase "Rewrite" (stages.migrateDetail plans.length) (stages.migrate plans unit) := by
      rw [migrates]
      rfl
    unfold migratePlanned
    rw [phased, bind_map_left, map_bind]
    refine congrArg (phase "Rewrite" (stages.migrateDetail plans.length)
      (stages.migrate plans unit) >>= ·) (funext fun result => ?_)
    have sameClasses : (result.movedTo path).classes = result.classes := rfl
    rw [sameClasses, finish_movedTo]
    cases result.classes.isEmpty <;> rfl
  unfold apply
  rw [sameUse, collects]
  cases unit.usesType stages.markerType with
  | false => rfl
  | true =>
      rw [if_pos rfl, if_pos rfl, map_bind]
      refine congrArg (phase "Collect" stages.collectDetail (stages.collect unit) >>= ·)
        (funext fun plans => ?_)
      cases plans.isEmpty with
      | true => rfl
      | false => exact planned plans

end Stages

theorem Recipe.apply_movedTo
    (recipe : Recipe)
    (layout : Layout)
    (unit : SourceUnit) :
    recipe.apply layout (unit.movedTo path) =
      Option.map (SourceUnit.movedTo path) <$> recipe.apply layout unit := by
  cases recipe with
  | parameterized =>
      refine Stages.apply_movedTo path _ (fun unit => ?_)
        (Parameterized.migratePlans_movedTo path layout) unit
      exact congrArg (fun collect => do return (← collect).plans)
        (Parameterized.collect_movedTo path unit)
  | expectedException =>
      exact Stages.apply_movedTo path _ (ExpectedException.collect_movedTo path)
        (ExpectedException.migratePlans_movedTo path layout) unit

namespace Conversion

/-- What recipes have made of a file, in another place. -/
def Applied.movedTo (result : Applied) : Applied :=
  ⟨result.update.map (SourceUnit.movedTo path), result.recipes⟩

theorem applyRecipe_movedTo
    (layout : Layout)
    (unit : SourceUnit)
    (before : Applied)
    (recipe : Recipe) :
    applyRecipe layout (unit.movedTo path) (before.movedTo path) recipe =
      Applied.movedTo path <$> applyRecipe layout unit before recipe := by
  have start_eq : (before.movedTo path).update.getD (unit.movedTo path) =
      (before.update.getD unit).movedTo path := by
    obtain ⟨update, recipes⟩ := before
    cases update <;> rfl
  have phased : Stages.phase ("Recipe " ++ recipe.name) recipe.description
      (recipe.apply layout ((before.update.getD unit).movedTo path)) =
        Option.map (SourceUnit.movedTo path) <$>
          Stages.phase ("Recipe " ++ recipe.name) recipe.description
            (recipe.apply layout (before.update.getD unit)) := by
    rw [recipe.apply_movedTo path]
    rfl
  unfold applyRecipe
  rw [start_eq, phased, bind_map_left, map_bind]
  refine congrArg (Stages.phase ("Recipe " ++ recipe.name) recipe.description
    (recipe.apply layout (before.update.getD unit)) >>= ·) (funext fun update => ?_)
  cases update <;> rfl

theorem applyRecipes_movedTo
    (layout : Layout)
    (recipes : List Recipe)
    (unit : SourceUnit) :
    applyRecipes layout recipes (unit.movedTo path) =
      Applied.movedTo path <$> applyRecipes layout recipes unit :=
  foldlM_movedTo (applyRecipe_movedTo path layout unit) recipes ⟨none, []⟩

end Conversion

/-! ## Sessions with other messages -/

/-- Sessions that agree on the next number and on the warnings so far. -/
structure Session.Agrees (session other : Session) : Prop where
  nextId : session.nextId = other.nextId
  warnings : session.journal.trace.warnings = other.journal.trace.warnings

namespace Migration

/-- The pairs of steps with the same result whose sessions agree afterwards if they have before. -/
def agreeing : PairKind Migration Migration :=
  PairKind.results.withState Session.Agrees

/-- The steps that look at nothing but the next number and the warnings. -/
def unaware : StepKind Migration where
  Holds step := agreeing.Holds Eq step step
  pure _ := agreeing.pure rfl
  bind first second := agreeing.bind first fun _ _ same => same ▸ second _

/-- Changes to the trace agree if they add the same warnings. -/
theorem agreeing_traced
    {change twin : Trace → Trace}
    (added : List String)
    (adds : ∀ trace, (change trace).warnings = trace.warnings ++ added)
    (twinAdds : ∀ trace, (twin trace).warnings = trace.warnings ++ added) :
    agreeing.Holds Eq (traced change) (traced twin) :=
  fun session other agrees => ⟨rfl, agrees.nextId, by
    have warnings : (change session.journal.trace).warnings =
        (twin other.journal.trace).warnings := by
      rw [adds, twinAdds, agrees.warnings]
    exact warnings⟩

end Migration

namespace Trace

theorem warnings_record (happening : Happening) (trace : Trace) :
    (trace.record happening).warnings = trace.warnings ++ happening.warning?.toList := by
  unfold record warnings
  rw [List.filterMap_append]
  cases found : happening.warning? <;> simp [found]

theorem warnings_startPhase (name detail : String) (trace : Trace) :
    (trace.startPhase name detail).warnings = trace.warnings ++ [] :=
  warnings_record (.phaseStart name detail) trace

theorem warnings_endPhase (trace : Trace) : trace.endPhase.warnings = trace.warnings ++ [] := by
  unfold endPhase
  split
  · exact (List.append_nil _).symm
  · exact warnings_record .phaseEnd trace

end Trace

namespace Migration

theorem agreeing_record (happening : Happening) :
    agreeing.Holds Eq (record happening) (record happening) :=
  agreeing_traced _ (Trace.warnings_record happening) (Trace.warnings_record happening)

theorem agreeing_log
    (level otherLevel : LogLevel)
    (message other : String) :
    agreeing.Holds Eq (log level message) (log otherLevel other) :=
  fun _ _ agrees => ⟨rfl, agrees.nextId, agrees.warnings⟩

theorem agreeing_number
    {α β : Type}
    {Related : α → β → Prop}
    {numbering : Numbering α}
    {twin : Numbering β}
    (related : ∀ next, Related (numbering.run next).1 (twin.run next).1 ∧
      (numbering.run next).2 = (twin.run next).2) :
    agreeing.Holds Related (number numbering) (number twin) := by
  rintro ⟨journal, next⟩ ⟨otherJournal, otherNext⟩ ⟨sameNext, warnings⟩
  obtain rfl : next = otherNext := sameNext
  exact ⟨(related next).1, (related next).2, warnings⟩

/-- Phases agree if their steps do, whatever they are called. -/
theorem agreeing_phase
    {α : Type}
    {Related : α → α → Prop}
    {step twin : Migration α}
    (name detail otherName otherDetail : String)
    (holds : agreeing.Holds Related step twin) :
    agreeing.Holds Related (Stages.phase name detail step)
      (Stages.phase otherName otherDetail twin) := by
  refine agreeing.bind (agreeing_traced [] (Trace.warnings_startPhase _ _)
    (Trace.warnings_startPhase _ _)) fun _ _ _ => ?_
  refine agreeing.bind holds fun _ _ same => ?_
  exact agreeing.bind (agreeing_traced [] Trace.warnings_endPhase Trace.warnings_endPhase)
    fun _ _ _ => agreeing.pure same

/-- The steps of recipes look at nothing but the next number and the warnings. -/
theorem phased_unaware : unaware.Phased where
  log level message := agreeing_log level level message message
  record happening _ := agreeing_record happening
  number _ := agreeing_number fun _ => ⟨rfl, rfl⟩
  transformed _ _ _ := agreeing_record _
  importAction _ _ _ := agreeing_record _
  phase name detail _ holds := agreeing_phase name detail name detail holds

end Migration

/-! ## Conversions -/

/-- Conversions that succeed alike and give the same code. -/
structure Conversion.Alike (conversion other : Conversion) : Prop where
  code : conversion.code = other.code
  success : conversion.success = other.success
  changed : conversion.changed = other.changed

namespace Conversion

theorem numbered_movedTo (unit : SourceUnit) (next : Nat) :
    (unit.movedTo path).numbered.run next =
      ((unit.numbered.run next).1.movedTo path, (unit.numbered.run next).2) :=
  rfl

/-- What is read from another place is the same file in the other place. -/
theorem agreeing_reading (code : String) (path other : Option String) :
    Migration.agreeing.Holds
      (fun result twin => result = twin.map (SourceUnit.movedTo path))
      (reading code path) (reading code other) := by
  have reads : Migration.agreeing.Holds
      (fun result twin => result = twin.map (SourceUnit.movedTo path))
      (readUnit code path) (readUnit code other) := by
    have read_eq : SourceUnit.read? code path =
        (SourceUnit.read? code other).map (SourceUnit.movedTo path) := by
      unfold SourceUnit.read?
      rw [Option.map_map]
      rfl
    unfold readUnit
    rw [read_eq]
    cases SourceUnit.read? code other with
    | none =>
        refine Migration.agreeing.bind (Migration.agreeing_log _ _ _ _) fun _ _ _ => ?_
        refine Migration.agreeing.bind (Migration.agreeing_record _) fun _ _ _ => ?_
        exact Migration.agreeing.pure rfl
    | some unit =>
        have numbers : Migration.agreeing.Holds (fun result twin => result = twin.movedTo path)
            (Migration.number (unit.movedTo path).numbered) (Migration.number unit.numbered) :=
          Migration.agreeing_number fun next =>
            ⟨congrArg Prod.fst (numbered_movedTo path unit next), rfl⟩
        exact Migration.agreeing.bind numbers fun _ _ same =>
          Migration.agreeing.pure (congrArg Except.ok same)
  refine Migration.agreeing.bind (Migration.agreeing_traced []
    (Trace.warnings_startPhase _ _) (Trace.warnings_startPhase _ _)) fun _ _ _ => ?_
  exact Migration.agreeing_phase _ _ _ _ reads

theorem alike_conclude
    (configuration : Configuration)
    (code : String)
    (path other : Option String)
    (result : Applied)
    {session twin : Session}
    (agrees : session.Agrees twin) :
    Alike ((conclude configuration code path (result.movedTo path)).run session).1
      ((conclude configuration code other result).run twin).1 := by
  have output_eq : (result.movedTo path).update.map SourceUnit.print =
      result.update.map SourceUnit.print := by
    obtain ⟨update, recipes⟩ := result
    cases update <;> rfl
  rw [run_conclude, run_conclude, output_eq, agrees.warnings]
  split
  · exact ⟨rfl, rfl, rfl⟩
  · exact ⟨rfl, rfl, rfl⟩

theorem alike_proceed
    (configuration : Configuration)
    (code : String)
    (path other : Option String)
    (result : Except SyntaxError SourceUnit)
    {session twin : Session}
    (agrees : session.Agrees twin) :
    Alike ((proceed configuration code path (result.map (SourceUnit.movedTo path))).run session).1
      ((proceed configuration code other result).run twin).1 := by
  cases result with
  | error error => exact ⟨rfl, rfl, rfl⟩
  | ok unit =>
      have layout_eq : Layout.ofUnit (unit.movedTo path) configuration.indent =
          Layout.ofUnit unit configuration.indent := rfl
      let applied := applyRecipes (Layout.ofUnit unit configuration.indent) configuration.recipes
        unit
      have run_eq : (proceed configuration code path (.ok (unit.movedTo path))).run session =
          (conclude configuration code path ((applied.run session).1.movedTo path)).run
            (Migration.endPhase.run (applied.run session).2).2 := by
        unfold proceed
        dsimp only
        rw [layout_eq, applyRecipes_movedTo]
        rfl
      obtain ⟨same, between⟩ := holds_applyRecipes Migration.phased_unaware
        (Layout.ofUnit unit configuration.indent) unit configuration.recipes _ _ agrees
      obtain ⟨-, ended⟩ := Migration.agreeing_traced [] Trace.warnings_endPhase
        Trace.warnings_endPhase _ _ between
      have sameResult : (applied.run session).1 = (applied.run twin).1 := same
      rw [Except.map, run_eq, sameResult]
      exact alike_conclude configuration code path other _ ended

end Conversion

namespace Run

open Conversion

/-- Wherever a source stands, its conversion gives the same code. -/
theorem alike_start
    (configuration : Configuration)
    (code : String)
    (path other : Option String)
    (firstId : Nat) :
    (start configuration code path firstId).conversion.Alike
      (start configuration code other firstId).conversion := by
  have outcome (place : Option String) : (start configuration code place firstId).conversion =
      ((proceed configuration code place ((reading code place).run ⟨.empty, firstId⟩).1).run
        ((reading code place).run ⟨.empty, firstId⟩).2).1 :=
    congrArg Prod.fst (run_convert configuration code place ⟨.empty, firstId⟩)
  have start_agrees : (⟨.empty, firstId⟩ : Session).Agrees ⟨.empty, firstId⟩ := ⟨rfl, rfl⟩
  obtain ⟨results, sessions⟩ := agreeing_reading code path other _ _ start_agrees
  rw [outcome, outcome, results]
  exact alike_proceed configuration code path other _ sessions

end Run

end JupiterMigration
