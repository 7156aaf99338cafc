import JupiterMigration.Template
import JupiterMigration.Recipe.Stages

/-!
# What steps do to a session

A step deals out numbers in ascending order and only adds events to the trace (`Session.Extends`).
Which kinds of events it adds is said by `Migration.Records`, and what becomes of an invariant by
`StepKind.preserving`.  Both are kinds of steps: they hold of the step that does nothing, and of
steps in a row if they hold of each (`StepKind`), so that they carry over to whatever is composed of
such steps.
-/

namespace JupiterMigration

/-! ## Sessions -/

/--
A later session: its next number is not smaller, and its trace begins with the events of the earlier
one, all others being of an allowed kind.
-/
structure Session.Extends (allowed : Happening → Prop) (earlier later : Session) : Prop where
  nextId_le : earlier.nextId ≤ later.nextId
  events : ∃ added, later.journal.trace.events = earlier.journal.trace.events ++ added ∧
    ∀ event ∈ added, allowed event.happening

namespace Session.Extends

variable {allowed : Happening → Prop}

theorem refl (session : Session) : session.Extends allowed session :=
  ⟨Nat.le_refl _, [], by simp⟩

theorem trans
    {first second third : Session}
    (front : first.Extends allowed second)
    (back : second.Extends allowed third) : first.Extends allowed third := by
  obtain ⟨frontAdded, frontEvents, frontAllowed⟩ := front.events
  obtain ⟨backAdded, backEvents, backAllowed⟩ := back.events
  refine ⟨Nat.le_trans front.nextId_le back.nextId_le, frontAdded ++ backAdded, ?_, ?_⟩
  · rw [backEvents, frontEvents, List.append_assoc]
  · intro event member
    cases List.mem_append.mp member with
    | inl inFront => exact frontAllowed event inFront
    | inr inBack => exact backAllowed event inBack

theorem mono
    {wider : Happening → Prop}
    {earlier later : Session}
    (extends_ : earlier.Extends allowed later)
    (weaker : ∀ happening, allowed happening → wider happening) :
    earlier.Extends wider later := by
  obtain ⟨added, events, all⟩ := extends_.events
  exact ⟨extends_.nextId_le, added, events, fun event member => weaker _ (all event member)⟩

/-- An event of the earlier session is one of the later session. -/
theorem mem_events
    {earlier later : Session}
    (extends_ : earlier.Extends allowed later)
    {event : TraceEvent}
    (member : event ∈ earlier.journal.trace.events) : event ∈ later.journal.trace.events := by
  obtain ⟨added, events, -⟩ := extends_.events
  rw [events]
  exact List.mem_append_left _ member

/-- An event of the later session is one of the earlier session or of an allowed kind. -/
theorem mem_or_allowed
    {earlier later : Session}
    (extends_ : earlier.Extends allowed later)
    {event : TraceEvent}
    (member : event ∈ later.journal.trace.events) :
    event ∈ earlier.journal.trace.events ∨ allowed event.happening := by
  obtain ⟨added, events, all⟩ := extends_.events
  rw [events] at member
  cases List.mem_append.mp member with
  | inl old => exact .inl old
  | inr new => exact .inr (all event new)

end Session.Extends

/-! ## Kinds of steps -/

/--
A kind of steps: the step that does nothing is of the kind, and so are steps in a row that are of
the kind one by one.
-/
structure StepKind (m : Type → Type) [Monad m] where
  Holds : {α : Type} → m α → Prop
  pure : ∀ {α : Type} (value : α), Holds (pure value)
  bind : ∀ {α β : Type} {step : m α} {next : α → m β},
    Holds step → (∀ value, Holds (next value)) → Holds (step >>= next)

namespace StepKind

variable {m : Type → Type} [Monad m] (kind : StepKind m)

theorem forM
    {α : Type}
    {step : α → m PUnit}
    {items : List α}
    (each : ∀ item ∈ items, kind.Holds (step item)) : kind.Holds (items.forM step) := by
  induction items with
  | nil => exact kind.pure _
  | cons first rest inductionHypothesis =>
      refine kind.bind (each first (by simp)) fun _ => inductionHypothesis ?_
      intro item member
      exact each item (by simp [member])

theorem foldlM
    {α β : Type}
    {step : β → α → m β}
    {items : List α}
    (each : ∀ state, ∀ item ∈ items, kind.Holds (step state item))
    (start : β) : kind.Holds (items.foldlM step start) := by
  induction items generalizing start with
  | nil => exact kind.pure _
  | cons first rest inductionHypothesis =>
      rw [List.foldlM_cons]
      refine kind.bind (each start first (by simp)) fun state => inductionHypothesis ?_ state
      intro other item member
      exact each other item (by simp [member])

theorem mapM
    {α β : Type}
    [LawfulMonad m]
    {step : α → m β}
    {items : List α}
    (each : ∀ item ∈ items, kind.Holds (step item)) : kind.Holds (items.mapM step) := by
  induction items with
  | nil =>
      rw [List.mapM_nil]
      exact kind.pure _
  | cons first rest inductionHypothesis =>
      rw [List.mapM_cons]
      refine kind.bind (each first (by simp)) fun _ => ?_
      refine kind.bind (inductionHypothesis ?_) fun _ => kind.pure _
      intro item member
      exact each item (by simp [member])

theorem optionMapM
    {α β : Type}
    [LawfulMonad m]
    {step : α → m β}
    (each : ∀ item, kind.Holds (step item))
    (item? : Option α) : kind.Holds (item?.mapM step) := by
  cases item? with
  | none => exact kind.pure _
  | some item =>
      rw [Option.mapM_some, map_eq_pure_bind]
      exact kind.bind (each item) fun _ => kind.pure _

/-- The steps with a state after which an invariant holds if it has held before. -/
def preserving {σ : Type} (Invariant : σ → Session → Prop) : StepKind (StateT σ Migration) where
  Holds step := ∀ state session, Invariant state session →
    Invariant ((step.run state).run session).1.2 ((step.run state).run session).2
  pure _ _ _ invariant := invariant
  bind first second state session invariant := second _ _ _ (first state session invariant)

/-- Steps in a row of which the second relies on what the first has found out. -/
theorem preserving_bind
    {σ α β : Type}
    {Invariant : σ → Session → Prop}
    {step : StateT σ Migration α}
    {next : α → StateT σ Migration β}
    (Between : α → σ → Session → Prop)
    (first : ∀ state session, Invariant state session →
      Between ((step.run state).run session).1.1 ((step.run state).run session).1.2
        ((step.run state).run session).2)
    (second : ∀ value state session, Between value state session →
      Invariant (((next value).run state).run session).1.2
        (((next value).run state).run session).2) :
    (preserving Invariant).Holds (step >>= next) :=
  fun state session invariant => second _ _ _ (first state session invariant)

/-- The steps with a state that are of a kind, whatever the state is. -/
def withState (kind : StepKind Migration) (σ : Type) : StepKind (StateT σ Migration) where
  Holds step := ∀ state, kind.Holds (step.run state)
  pure _ _ := kind.pure _
  bind first second state := kind.bind (first state) fun _ => second _ _

/-- The steps that may fail and are of a kind, whether they fail or not. -/
def orFailing (kind : StepKind Migration) : StepKind Synthesis where
  Holds step := kind.Holds step.run
  pure _ := kind.pure _
  bind first second := by
    rw [ExceptT.run_bind]
    refine kind.bind first fun result => ?_
    cases result with
    | ok value => exact second value
    | error error => exact kind.pure _

section Derived

variable {σ α : Type} (kind : StepKind Migration)

theorem withState_lift
    {step : Migration α}
    (holds : kind.Holds step) :
    (kind.withState σ).Holds (liftM step : StateT σ Migration α) := by
  intro state
  have lifted : kind.Holds (step >>= fun value => Pure.pure (value, state)) :=
    kind.bind holds fun _ => kind.pure _
  exact lifted

theorem withState_get : (kind.withState σ).Holds (get : StateT σ Migration σ) :=
  fun _ => kind.pure _

theorem withState_modify (change : σ → σ) :
    (kind.withState σ).Holds (modify change : StateT σ Migration PUnit) :=
  fun _ => kind.pure _

theorem orFailing_lift
    {step : Migration α}
    (holds : kind.Holds step) : kind.orFailing.Holds (liftM step : Synthesis α) := by
  let result (value : α) : Except SynthesisError α := .ok value
  have lifted : kind.Holds (step >>= fun value => Pure.pure (result value)) :=
    kind.bind holds fun _ => kind.pure _
  exact lifted

end Derived

end StepKind

/-! ## Steps of a migration -/

namespace Migration

/-- Steps run one after the other. -/
theorem run_bind
    {α β : Type}
    (step : Migration α)
    (next : α → Migration β)
    (session : Session) :
    (step >>= next).run session = (next (step.run session).1).run (step.run session).2 :=
  rfl

theorem run_pure
    {α : Type}
    (value : α)
    (session : Session) : (pure value : Migration α).run session = (value, session) :=
  rfl

/-- Steps with a state run one after the other. -/
theorem run_run_bind
    {σ α β : Type}
    (step : StateT σ Migration α)
    (next : α → StateT σ Migration β)
    (state : σ)
    (session : Session) :
    ((step >>= next).run state).run session =
      ((next ((step.run state).run session).1.1).run ((step.run state).run session).1.2).run
        ((step.run state).run session).2 :=
  rfl

theorem run_run_get
    {σ : Type}
    (state : σ)
    (session : Session) :
    ((get : StateT σ Migration σ).run state).run session = ((state, state), session) :=
  rfl

theorem run_run_modify
    {σ : Type}
    (change : σ → σ)
    (state : σ)
    (session : Session) :
    ((modify change : StateT σ Migration PUnit).run state).run session =
      (((), change state), session) :=
  rfl

theorem run_run_lift
    {σ α : Type}
    (step : Migration α)
    (state : σ)
    (session : Session) :
    ((liftM step : StateT σ Migration α).run state).run session =
      (((step.run session).1, state), (step.run session).2) :=
  rfl

/-- A step that adds only events of an allowed kind to the trace. -/
def Records {α : Type} (allowed : Happening → Prop) (step : Migration α) : Prop :=
  ∀ session : Session, session.Extends allowed (step.run session).2

/-- The steps that add only events of an allowed kind. -/
def recording (allowed : Happening → Prop) : StepKind Migration where
  Holds := Records allowed
  pure _ session := .refl session
  bind first second session := (first session).trans (second _ _)

variable {allowed : Happening → Prop}

theorem Records.bind
    {α β : Type}
    {step : Migration α}
    {next : α → Migration β}
    (first : Records allowed step)
    (second : ∀ value, Records allowed (next value)) : Records allowed (step >>= next) :=
  (recording allowed).bind first second

theorem records_pure {α : Type} (value : α) : Records allowed (pure value : Migration α) :=
  (recording allowed).pure value

theorem records_log (level : LogLevel) (message : String) : Records allowed (log level message) :=
  fun _ => ⟨Nat.le_refl _, [], (List.append_nil _).symm, by simp⟩

theorem records_record
    {happening : Happening}
    (isAllowed : allowed happening) : Records allowed (record happening) :=
  fun _ => ⟨Nat.le_refl _, _, rfl, by simpa using isAllowed⟩

theorem records_startPhase
    {name detail : String}
    (isAllowed : allowed (.phaseStart name detail)) : Records allowed (startPhase name detail) :=
  fun _ => ⟨Nat.le_refl _, _, rfl, by simpa using isAllowed⟩

theorem records_endPhase (isAllowed : allowed .phaseEnd) : Records allowed endPhase := by
  intro session
  have trace_eq : (endPhase.run session).2.journal.trace = session.journal.trace.endPhase := rfl
  refine ⟨Nat.le_refl _, ?_⟩
  rw [trace_eq, Trace.endPhase]
  split
  · exact ⟨[], (List.append_nil _).symm, by simp⟩
  · exact ⟨_, rfl, by simpa using isAllowed⟩

/-- A computation that deals out numbers in ascending order. -/
def Ascends {α : Type} (numbering : Numbering α) : Prop :=
  ∀ next, next ≤ (numbering.run next).2

theorem records_number
    {α : Type}
    {numbering : Numbering α}
    (ascends : Ascends numbering) : Records allowed (number numbering) :=
  fun session => ⟨ascends session.nextId, [], (List.append_nil _).symm, by simp⟩

end Migration

namespace Synthesis

/-- The steps that may fail and add only events of an allowed kind, whether they fail or not. -/
def recording (allowed : Happening → Prop) : StepKind Synthesis :=
  (Migration.recording allowed).orFailing

end Synthesis

namespace Stages

theorem records_phase
    {α : Type}
    {allowed : Happening → Prop}
    {name detail : String}
    {step : Migration α}
    (start : allowed (.phaseStart name detail))
    (records : Migration.Records allowed step)
    (ending : allowed .phaseEnd) : Migration.Records allowed (phase name detail step) :=
  (Migration.records_startPhase start).bind fun _ =>
    records.bind fun _ => (Migration.records_endPhase ending).bind fun _ => Migration.records_pure _

end Stages

end JupiterMigration
