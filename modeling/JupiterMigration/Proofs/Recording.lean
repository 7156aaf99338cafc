import JupiterMigration.Proofs.Steps

/-!
# What recipes record

A recipe that has migrated a class has recorded the transformation, and one that has migrated none
has recorded neither a transformation nor a change to the imports (`Recipe.accounts_apply`).
-/

namespace JupiterMigration

namespace Happening

/-- Whether something that happens is the transformation of a node. -/
def transforms : Happening → Bool
  | transformed .. => true
  | _ => false

/-- Whether something that happens is a change to the imports. -/
def changesImports : Happening → Bool
  | importAction .. => true
  | _ => false

/-- Something that happens without any change to the file. -/
def IsQuiet (happening : Happening) : Prop :=
  happening.transforms = false ∧ happening.changesImports = false

end Happening

/-- The steps of a migration that record no change. -/
abbrev Migration.quiet : StepKind Migration := recording Happening.IsQuiet

/-- The steps of the migration of a class that record no change. -/
abbrev Synthesis.quiet : StepKind Synthesis := recording Happening.IsQuiet

theorem Migration.plain_quiet : quiet.Plain where
  log := records_log
  record happening isPlain := by
    refine records_record ?_
    cases happening with
    | matched | warning | inspection => exact ⟨rfl, rfl⟩
    | _ => cases isPlain
  number := records_number

theorem Migration.phased_recording : (recording fun _ => True).Phased where
  log := records_log
  record _ _ := records_record trivial
  number := records_number
  transformed _ _ _ := records_record trivial
  importAction _ _ _ := records_record trivial
  phase _ _ _ records := Stages.records_phase trivial records trivial

open Synthesis (quiet)
open Migration (Records plain_quiet)

namespace Parameterized

theorem ClassMigration.records_testBody
    (migration : ClassMigration)
    (method : Method)
    (block : Block) : quiet.Holds (migration.testBody method block) :=
  holds_testBody plain_quiet migration method block

theorem records_migrateClass
    (scope : TypeScope)
    (layout : Layout)
    (plan : ClassPlan)
    (decl : ClassDecl) : quiet.Holds (migrateClass scope layout plan decl) :=
  holds_migrateClass plain_quiet scope layout plan decl

theorem records_collect (unit : SourceUnit) : Records Happening.IsQuiet (collect unit) :=
  holds_collect plain_quiet unit

end Parameterized

namespace ExpectedException

theorem records_migrateMethod
    (layout : Layout)
    (memberIndent : String)
    (plan : MethodPlan)
    (method : Method) : quiet.Holds (migrateMethod layout memberIndent plan method) :=
  holds_migrateMethod plain_quiet layout memberIndent plan method

theorem records_migrateClass
    (layout : Layout)
    (plan : RulePlan)
    (decl : ClassDecl) : quiet.Holds (migrateClass layout plan decl) :=
  holds_migrateClass plain_quiet layout plan decl

theorem records_collect (unit : SourceUnit) : Records Happening.IsQuiet (collect unit) :=
  holds_collect plain_quiet unit

end ExpectedException

/-! ## Migrating the classes of a file -/

/--
The trace accounts for a migration since some session: a transformation is on record if anything has
been migrated, and otherwise nothing but quiet events has been added.
-/
structure Accounts (base : Session) (migrated : Prop) (session : Session) : Prop where
  grows : base.Extends (fun _ => True) session
  quiet : ¬migrated → base.Extends Happening.IsQuiet session
  transformed : migrated → ∃ event ∈ session.journal.trace.events,
    event.happening.transforms = true

namespace Accounts

theorem of_quiet
    {base session : Session}
    {migrated : Prop}
    (quietly : base.Extends Happening.IsQuiet session)
    (nothing : ¬migrated) : Accounts base migrated session where
  grows := quietly.mono fun _ _ => trivial
  quiet _ := quietly
  transformed something := absurd something nothing

theorem congr
    {base session : Session}
    {migrated other : Prop}
    (accounts : Accounts base migrated session)
    (same : migrated ↔ other) : Accounts base other session where
  grows := accounts.grows
  quiet nothing := accounts.quiet (mt same.mp nothing)
  transformed something := accounts.transformed (same.mpr something)

/-- What happened quietly before does not matter. -/
theorem before_quiet
    {base earlier later : Session}
    {migrated : Prop}
    (quietly : base.Extends Happening.IsQuiet earlier)
    (accounts : Accounts earlier migrated later) : Accounts base migrated later where
  grows := (quietly.mono fun _ _ => trivial).trans accounts.grows
  quiet nothing := quietly.trans (accounts.quiet nothing)
  transformed := accounts.transformed

/-- What happens quietly afterwards does not matter. -/
theorem after_quiet
    {base earlier later : Session}
    {migrated : Prop}
    (accounts : Accounts base migrated earlier)
    (quietly : earlier.Extends Happening.IsQuiet later) : Accounts base migrated later where
  grows := accounts.grows.trans (quietly.mono fun _ _ => trivial)
  quiet nothing := (accounts.quiet nothing).trans quietly
  transformed something := by
    obtain ⟨event, member, transforms⟩ := accounts.transformed something
    exact ⟨event, quietly.mem_events member, transforms⟩

/-- Once something has been migrated, nothing that happens afterwards matters. -/
theorem after_migrated
    {base earlier later : Session}
    {migrated : Prop}
    (accounts : Accounts base migrated earlier)
    (grows : earlier.Extends (fun _ => True) later)
    (something : migrated) : Accounts base migrated later where
  grows := accounts.grows.trans grows
  quiet nothing := absurd something nothing
  transformed _ := by
    obtain ⟨event, member, transforms⟩ := accounts.transformed something
    exact ⟨event, grows.mem_events member, transforms⟩

/-- The steps whose state says what the trace accounts for. -/
def kind {σ : Type} (base : Session) (migrated : σ → Prop) : StepKind (StateT σ Migration) :=
  StepKind.preserving fun state session => Accounts base (migrated state) session

theorem holds_lift
    {σ α : Type}
    {base : Session}
    {migrated : σ → Prop}
    {step : Migration α}
    (quietly : Migration.Records Happening.IsQuiet step) :
    (kind base migrated).Holds (liftM step : StateT σ Migration α) :=
  fun _ session accounts => accounts.after_quiet (quietly session)

/-- A transformation that is noted in the state and recorded in the trace. -/
theorem holds_transformed
    {σ α : Type}
    {base : Session}
    {migrated : σ → Prop}
    {note : σ → σ}
    (notes : ∀ state, migrated (note state))
    (node before after : String)
    (value : α) :
    (kind base migrated).Holds (do
      modify note
      (Migration.record (.transformed node before after) : Migration Unit)
      return value : StateT σ Migration α) := by
  intro state session accounts
  have grows : session.Extends (fun _ => True)
      ((Migration.record (.transformed node before after)).run session).2 :=
    Migration.records_record trivial session
  exact {
    grows := accounts.grows.trans grows
    quiet := fun nothing => absurd (notes state) nothing
    transformed := fun _ => ⟨_, List.mem_append_right _ (List.mem_singleton_self _), rfl⟩ }

end Accounts

/-- Decisions about planned classes are accounted for. -/
theorem accounts_decideByPlan
    {Plan σ : Type}
    {migrate : Plan → ClassDecl → Synthesis ClassDecl}
    {note : String → Plan → σ → σ}
    {base : Session}
    {migrated : σ → Prop}
    (quietly : ∀ plan decl, Synthesis.quiet.Holds (migrate plan decl))
    (notes : ∀ name plan state, migrated (note name plan state))
    (plans : List (Nat × Plan))
    (entered decl : ClassDecl) :
    (Accounts.kind base migrated).Holds (decideByPlan plans migrate note entered decl) := by
  have kept : (Accounts.kind base migrated).Holds (pure .keep : StateT σ Migration (Edit Member)) :=
    (Accounts.kind base migrated).pure _
  unfold decideByPlan
  split
  · exact kept
  · next plan _ =>
      refine (Accounts.kind base migrated).bind
        (Accounts.holds_lift (quietly plan decl)) fun result => ?_
      cases result with
      | error error =>
          refine (Accounts.kind base migrated).bind (Accounts.holds_lift ?_) fun _ => kept
          exact Migration.plain_quiet.warn _
      | ok result => exact Accounts.holds_transformed (notes entered.name plan) _ _ _ _

/-! ## Recipes -/

namespace Stages

variable {Plan : Type}

/-- The stages of a recipe whose trace accounts for what they do. -/
structure Account (stages : Stages Plan) : Prop where
  collect : ∀ unit, Migration.Records Happening.IsQuiet (stages.collect unit)
  migrate : ∀ plans unit session,
    Accounts session (((stages.migrate plans unit).run session).1.classes ≠ [])
      ((stages.migrate plans unit).run session).2

variable {stages : Stages Plan}

/-- A phase accounts for what its step accounts for. -/
theorem accounts_phase
    {α : Type}
    {step : Migration α}
    (migrated : α → Prop)
    (name detail : String)
    (accounts : ∀ session, Accounts session (migrated (step.run session).1) (step.run session).2)
    (session : Session) :
    Accounts session (migrated ((phase name detail step).run session).1)
      ((phase name detail step).run session).2 := by
  have opened : session.Extends Happening.IsQuiet
      ((Migration.startPhase name detail).run session).2 :=
    Migration.records_startPhase ⟨rfl, rfl⟩ session
  exact (Accounts.before_quiet opened (accounts _)).after_quiet
    (Migration.records_endPhase ⟨rfl, rfl⟩ _)

theorem records_finish (stages : Stages Plan) (result : MigratedUnit) :
    Migration.Records (fun _ => True) (stages.finish result) :=
  holds_finish Migration.phased_recording stages result

theorem accounts_migratePlanned
    (account : stages.Account)
    (plans : List Plan)
    (unit : SourceUnit)
    (session : Session) :
    Accounts session (((stages.migratePlanned plans unit).run session).1 ≠ none)
      ((stages.migratePlanned plans unit).run session).2 := by
  have migrated := accounts_phase (fun result : MigratedUnit => result.classes ≠ []) "Rewrite"
    (stages.migrateDetail plans.length) (account.migrate plans unit) session
  unfold migratePlanned
  rw [Migration.run_bind]
  generalize (phase "Rewrite" (stages.migrateDetail plans.length)
    (stages.migrate plans unit)).run session = rewritten at migrated ⊢
  cases classes_eq : rewritten.1.classes with
  | nil =>
      exact migrated.congr ⟨fun some => absurd classes_eq some, fun some => absurd rfl some⟩
  | cons first rest =>
      have finished := migrated.after_migrated (stages.records_finish rewritten.1 rewritten.2)
        (by simp [classes_eq])
      exact finished.congr (by simp [classes_eq])

/-- A recipe accounts in the trace for what it has done to a file. -/
theorem accounts_apply
    (account : stages.Account)
    (unit : SourceUnit)
    (session : Session) :
    Accounts session (((stages.apply unit).run session).1 ≠ none)
      ((stages.apply unit).run session).2 := by
  have collected : Migration.Records Happening.IsQuiet
      (phase "Collect" stages.collectDetail (stages.collect unit)) :=
    records_phase ⟨rfl, rfl⟩ (account.collect unit) ⟨rfl, rfl⟩
  unfold apply
  split
  · rw [Migration.run_bind]
    split
    · exact .of_quiet (collected session) (not_not_intro rfl)
    · exact .before_quiet (collected session) (accounts_migratePlanned account _ unit _)
  · exact .of_quiet (.refl session) (not_not_intro rfl)

end Stages

theorem Parameterized.account (layout : Layout) : (stages layout).Account where
  collect unit := (records_collect unit).bind fun _ => Migration.records_pure _
  migrate plans unit session := by
    let kind : StepKind Migrating := Accounts.kind session (· ≠ [])
    have decides (entered decl : ClassDecl) :
        kind.Holds (decide (TypeScope.ofUnit unit) layout plans entered decl) :=
      accounts_decideByPlan (records_migrateClass _ layout) (fun _ _ _ => by simp) plans entered
        decl
    have rewrites := Member.holds_rewriteAll decides unit.members [] session
      (.of_quiet (.refl session) (by simp))
    unfold stages migratePlans
    dsimp only
    rw [migrate_eq]
    exact rewrites

theorem ExpectedException.account (layout : Layout) : (stages layout).Account where
  collect := records_collect
  migrate plans unit session := by
    let kind : StepKind Migrating :=
      Accounts.kind session fun progress : Progress => progress.migrated ≠ []
    have decides (entered decl : ClassDecl) : kind.Holds (decide layout plans entered decl) :=
      accounts_decideByPlan (records_migrateClass layout) (fun _ _ _ => by simp [Progress.add])
        plans entered decl
    have rewrites := Member.holds_rewriteAll decides unit.members .start session
      (.of_quiet (.refl session) (by simp [Progress.start]))
    unfold stages migratePlans
    dsimp only
    rw [migrate_eq]
    exact rewrites

/-- A recipe accounts in the trace for what it has done to a file. -/
theorem Recipe.accounts_apply
    (recipe : Recipe)
    (layout : Layout)
    (unit : SourceUnit)
    (session : Session) :
    Accounts session (((recipe.apply layout unit).run session).1 ≠ none)
      ((recipe.apply layout unit).run session).2 := by
  cases recipe with
  | parameterized => exact Stages.accounts_apply (Parameterized.account layout) unit session
  | expectedException =>
      exact Stages.accounts_apply (ExpectedException.account layout) unit session

end JupiterMigration
