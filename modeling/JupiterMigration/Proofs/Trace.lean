import JupiterMigration.Journal
import Mathlib.Data.List.Infix

/-!
# Phases in a trace

The starts and ends of phases in a stretch of a trace are balanced if no prefix has more ends than
starts and all phases have ended (`Trace.Balanced`).  A phase is the innermost open one if what
happened since it began is balanced (`Trace.IsInnermost`).

A trace is sound if every event is recorded under the innermost open phase and the list of open
phases tells which ones are open (`Trace.Sound`).  Whatever is recorded, a sound trace stays sound
(`Trace.Sound.record`, `Trace.Sound.startPhase`, `Trace.Sound.endPhase`).
-/

namespace JupiterMigration

namespace Happening

/-- Whether something that happens is the start of a phase. -/
def isStart : Happening → Bool
  | phaseStart .. => true
  | _ => false

/-- Whether something that happens is the end of a phase. -/
def isEnd : Happening → Bool
  | phaseEnd => true
  | _ => false

theorem isEnd_of_isStart {happening : Happening} (isStart : happening.isStart = true) :
    happening.isEnd = false := by
  cases happening with
  | phaseStart => rfl
  | _ => cases isStart

end Happening

namespace Trace

/-! ## Balanced events -/

/-- The number of phases that begin. -/
def starts (events : List TraceEvent) : Nat :=
  events.countP (·.happening.isStart)

/-- The number of phases that end. -/
def ends (events : List TraceEvent) : Nat :=
  events.countP (·.happening.isEnd)

theorem starts_append (front back : List TraceEvent) :
    starts (front ++ back) = starts front + starts back :=
  List.countP_append

theorem ends_append (front back : List TraceEvent) :
    ends (front ++ back) = ends front + ends back :=
  List.countP_append

section Counting

variable {event : TraceEvent} (rest : List TraceEvent)

theorem starts_cons_of_isStart (isStart : event.happening.isStart = true) :
    starts (event :: rest) = starts rest + 1 :=
  List.countP_cons_of_pos isStart

theorem ends_cons_of_isStart (isStart : event.happening.isStart = true) :
    ends (event :: rest) = ends rest :=
  List.countP_cons_of_neg (by simp [Happening.isEnd_of_isStart isStart])

end Counting

/-- Events in which no phase ends that has not begun, and every phase ends that has begun. -/
structure Balanced (events : List TraceEvent) : Prop where
  ends_le : ∀ front, front <+: events → ends front ≤ starts front
  ends_eq : ends events = starts events

variable {events front back : List TraceEvent} {event : TraceEvent}

theorem balanced_nil : Balanced [] where
  ends_le front isFront := by
    rw [List.prefix_nil.mp isFront]
    exact Nat.le_refl _
  ends_eq := rfl

/-- An event that is neither the start nor the end of a phase. -/
theorem balanced_singleton
    (notStart : event.happening.isStart = false)
    (notEnd : event.happening.isEnd = false) : Balanced [event] where
  ends_le front isFront := by
    have noEnd : ends [event] = 0 := by simp [ends, notEnd]
    have fewer : ends front ≤ ends [event] := isFront.sublist.countP_le
    omega
  ends_eq := by simp [ends, starts, notStart, notEnd]

theorem Balanced.append
    (frontBalanced : Balanced front)
    (backBalanced : Balanced back) : Balanced (front ++ back) where
  ends_le early isEarly := by
    obtain ⟨late, parts⟩ := isEarly
    rcases List.append_eq_append_iff.mp parts with ⟨rest, rfl, -⟩ | ⟨rest, rfl, back_eq⟩
    · exact frontBalanced.ends_le early (List.prefix_append early rest)
    · have whole := frontBalanced.ends_eq
      have part := backBalanced.ends_le rest ⟨late, back_eq.symm⟩
      rw [starts_append, ends_append]
      omega
  ends_eq := by
    rw [starts_append, ends_append, frontBalanced.ends_eq, backBalanced.ends_eq]

/-- The start of a phase, balanced events, and the end of the phase. -/
theorem Balanced.enclosed
    (isStart : event.happening.isStart = true)
    (balanced : Balanced events)
    (parent : Option Nat) : Balanced (event :: events ++ [⟨.phaseEnd, parent⟩]) where
  ends_le early isEarly := by
    rw [List.cons_append] at isEarly
    rcases List.prefix_cons_iff.mp isEarly with rfl | ⟨inner, rfl, isInner⟩
    · exact Nat.le_refl _
    · rw [starts_cons_of_isStart inner isStart, ends_cons_of_isStart inner isStart]
      rcases List.prefix_concat_iff.mp isInner with rfl | isInside
      · have settled := balanced.ends_eq
        rw [starts_append, ends_append, settled]
        exact Nat.add_le_add_left (Nat.le_refl 1) _
      · exact Nat.le_succ_of_le (balanced.ends_le inner isInside)
  ends_eq := by
    rw [List.cons_append, starts_cons_of_isStart _ isStart, ends_cons_of_isStart _ isStart,
      starts_append, ends_append, balanced.ends_eq]
    rfl

/-- Among balanced events, none is the start of a phase that is still open. -/
theorem Balanced.not_append_cons
    (isStart : event.happening.isStart = true)
    (settled : Balanced back) : ¬Balanced (front ++ event :: back) := by
  intro balanced
  have whole := balanced.ends_eq
  have part := balanced.ends_le front (List.prefix_append _ _)
  rw [starts_append, ends_append, starts_cons_of_isStart _ isStart,
    ends_cons_of_isStart _ isStart, settled.ends_eq] at whole
  omega

/-! ## Open phases -/

/--
The phase that begins at a position is the innermost one that is open after some events: whatever
has begun since has ended again.
-/
def IsInnermost (events : List TraceEvent) (start : Nat) : Prop :=
  ∃ front event back, events = front ++ event :: back ∧ front.length = start ∧
    event.happening.isStart = true ∧ Balanced back

/-- The positions of the phases that are open after some events, the innermost first. -/
inductive Open : List TraceEvent → List Nat → Prop
  | none {events : List TraceEvent} (balanced : Balanced events) : Open events []
  | inside {front back : List TraceEvent} {event : TraceEvent} {outer : List Nat}
      (isOpen : Open front outer)
      (isStart : event.happening.isStart = true)
      (balanced : Balanced back) : Open (front ++ event :: back) (front.length :: outer)

variable {phases : List Nat}

/-- The first of the open phases is the innermost one. -/
theorem Open.head?_eq_some_iff
    (isOpen : Open events phases)
    (start : Nat) : phases.head? = some start ↔ IsInnermost events start := by
  cases isOpen with
  | none balanced =>
      constructor
      · intro none_eq
        cases none_eq
      · rintro ⟨front, event, back, rfl, -, isStart, settled⟩
        exact absurd balanced (settled.not_append_cons isStart)
  | @inside front back event outer _ isStart settled =>
      rw [List.head?_cons, Option.some_inj]
      constructor
      · rintro rfl
        exact ⟨front, event, back, rfl, rfl, isStart, settled⟩
      · rintro ⟨otherFront, other, otherBack, parts, rfl, otherStart, otherSettled⟩
        rcases List.append_eq_append_iff.mp parts with ⟨gap, rfl, gap_eq⟩ | ⟨gap, rfl, gap_eq⟩
        · cases gap with
          | nil => rw [List.append_nil]
          | cons first rest =>
              cases gap_eq
              exact absurd settled (otherSettled.not_append_cons otherStart)
        · cases gap with
          | nil => rw [List.append_nil]
          | cons first rest =>
              cases gap_eq
              exact absurd otherSettled (settled.not_append_cons isStart)

theorem Open.balanced (isOpen : Open events []) : Balanced events := by
  cases isOpen with
  | none balanced => exact balanced

/-- Balanced events leave the open phases as they are. -/
theorem Open.append
    (isOpen : Open front phases)
    (balanced : Balanced back) : Open (front ++ back) phases := by
  cases isOpen with
  | none settled => exact .none (settled.append balanced)
  | inside isOpen isStart settled =>
      rw [List.append_assoc, List.cons_append]
      exact .inside isOpen isStart (settled.append balanced)

/-! ## Sound traces -/

/-- A trace in which every event has been recorded under the innermost phase that was open. -/
structure Sound (trace : Trace) : Prop where
  isOpen : Open trace.events trace.openPhases
  parents : ∀ earlier event later, trace.events = earlier ++ event :: later →
    ∀ start, event.parent = some start ↔ IsInnermost earlier start

theorem sound_empty : Sound .empty where
  isOpen := .none balanced_nil
  parents earlier event later parts := by simp [empty] at parts

variable {trace : Trace} {happening : Happening}

/-- An event after something has been recorded is the new one or one of those before. -/
theorem cases_of_record
    {earlier later : List TraceEvent}
    (parts : (trace.record happening).events = earlier ++ event :: later) :
    (earlier = trace.events ∧ event = ⟨happening, trace.openPhases.head?⟩) ∨
      ∃ rest, trace.events = earlier ++ event :: rest := by
  have new_eq : trace.events ++ [⟨happening, trace.openPhases.head?⟩] =
      earlier ++ event :: later := parts
  rcases List.append_eq_append_iff.mp new_eq with ⟨gap, rfl, gap_eq⟩ | ⟨gap, old_eq, gap_eq⟩
  · cases gap with
    | nil =>
        cases gap_eq
        exact .inl ⟨List.append_nil _, rfl⟩
    | cons first rest => simp at gap_eq
  · cases gap with
    | nil =>
        cases gap_eq
        rw [List.append_nil] at old_eq
        exact .inl ⟨old_eq.symm, rfl⟩
    | cons first rest =>
        cases gap_eq
        exact .inr ⟨rest, old_eq⟩

/-- A recorded event is under the innermost open phase. -/
theorem Sound.parents_record
    (sound : trace.Sound)
    (happening : Happening)
    (earlier : List TraceEvent)
    (event : TraceEvent)
    (later : List TraceEvent)
    (parts : (trace.record happening).events = earlier ++ event :: later)
    (start : Nat) : event.parent = some start ↔ IsInnermost earlier start := by
  cases cases_of_record parts with
  | inl isNew =>
      obtain ⟨rfl, rfl⟩ := isNew
      exact sound.isOpen.head?_eq_some_iff start
  | inr isOld =>
      obtain ⟨rest, old_eq⟩ := isOld
      exact sound.parents earlier event rest old_eq start

theorem Sound.record
    (sound : trace.Sound)
    (notStart : happening.isStart = false)
    (notEnd : happening.isEnd = false) : (trace.record happening).Sound where
  isOpen := sound.isOpen.append (balanced_singleton notStart notEnd)
  parents := sound.parents_record happening

theorem Sound.startPhase
    (sound : trace.Sound)
    (name detail : String) : (trace.startPhase name detail).Sound where
  isOpen := .inside sound.isOpen rfl balanced_nil
  parents := sound.parents_record (.phaseStart name detail)

theorem Sound.endPhase (sound : trace.Sound) : trace.endPhase.Sound := by
  obtain ⟨events, phases⟩ := trace
  obtain ⟨isOpen, parents⟩ := sound
  cases isOpen with
  | none balanced => exact ⟨.none balanced, parents⟩
  | @inside front back event outer isOpen isStart settled =>
      have parents_record :=
        Sound.parents_record ⟨.inside isOpen isStart settled, parents⟩ .phaseEnd
      refine ⟨?_, parents_record⟩
      have closed := isOpen.append (settled.enclosed isStart (some front.length))
      have events_eq : front ++ (event :: back ++ [⟨.phaseEnd, some front.length⟩]) =
          front ++ event :: back ++ [⟨.phaseEnd, some front.length⟩] := by simp
      rw [events_eq] at closed
      exact closed

/-! ## Traces with an open phase -/

/-- A sound trace with an open phase, in which only the first event is in no phase. -/
structure Nested (trace : Trace) : Prop where
  sound : trace.Sound
  inPhase : trace.openPhases ≠ []
  rooted : ∀ earlier event later, trace.events = earlier ++ event :: later →
    event.parent = none → earlier = []

/-- What is recorded in an open phase is in a phase. -/
theorem Nested.rooted_record
    (nested : trace.Nested)
    (happening : Happening)
    (earlier : List TraceEvent)
    (event : TraceEvent)
    (later : List TraceEvent)
    (parts : (trace.record happening).events = earlier ++ event :: later)
    (root : event.parent = none) : earlier = [] := by
  cases cases_of_record parts with
  | inl isNew =>
      obtain ⟨rfl, rfl⟩ := isNew
      exact absurd (List.head?_eq_none_iff.mp root) nested.inPhase
  | inr isOld =>
      obtain ⟨rest, old_eq⟩ := isOld
      exact nested.rooted earlier event rest old_eq root

theorem Nested.record
    (nested : trace.Nested)
    (notStart : happening.isStart = false)
    (notEnd : happening.isEnd = false) : (trace.record happening).Nested where
  sound := nested.sound.record notStart notEnd
  inPhase := nested.inPhase
  rooted := nested.rooted_record happening

theorem Nested.startPhase
    (nested : trace.Nested)
    (name detail : String) : (trace.startPhase name detail).Nested where
  sound := nested.sound.startPhase name detail
  inPhase := List.cons_ne_nil _ _
  rooted := nested.rooted_record (.phaseStart name detail)

/-- The first phase of a trace. -/
theorem nested_startPhase_empty (name detail : String) :
    (empty.startPhase name detail).Nested where
  sound := sound_empty.startPhase name detail
  inPhase := List.cons_ne_nil _ _
  rooted earlier event later parts _ := by
    cases earlier with
    | nil => rfl
    | cons first rest => simp [Trace.startPhase, Trace.record, empty] at parts

/-- After the innermost phase has ended, those around it are open, and no event is out of place. -/
theorem Nested.endPhase
    {start : Nat}
    {outer : List Nat}
    (nested : trace.Nested)
    (phases_eq : trace.openPhases = start :: outer) :
    trace.endPhase.Sound ∧ trace.endPhase.openPhases = outer ∧
      ∀ earlier event later, trace.endPhase.events = earlier ++ event :: later →
        event.parent = none → earlier = [] := by
  have sound := nested.sound.endPhase
  have rooted := nested.rooted_record .phaseEnd
  unfold Trace.endPhase at sound ⊢
  rw [phases_eq] at sound ⊢
  exact ⟨sound, rfl, rooted⟩

/-! ## Well bracketed traces -/

/--
Events in which the starts and ends of phases are balanced.  Each event is in the innermost phase
that was open when it was recorded, the end of a phase in the phase that it ends, and only the first
event is in none.
-/
structure WellBracketed (events : List TraceEvent) : Prop where
  balanced : Balanced events
  parents : ∀ earlier event later, events = earlier ++ event :: later →
    ∀ start, event.parent = some start ↔ IsInnermost earlier start
  root : ∀ earlier event later, events = earlier ++ event :: later →
    (event.parent = none ↔ earlier = [])

theorem not_isInnermost_nil (start : Nat) : ¬IsInnermost [] start := by
  rintro ⟨front, event, back, parts, -⟩
  simp at parts

/-- A trace is well bracketed once its only outermost phase has ended. -/
theorem Nested.brackets
    {start : Nat}
    (nested : trace.Nested)
    (phases_eq : trace.openPhases = [start]) : WellBracketed trace.endPhase.events := by
  obtain ⟨⟨isOpen, parents⟩, noPhases, rooted⟩ := nested.endPhase phases_eq
  rw [noPhases] at isOpen
  refine ⟨isOpen.balanced, parents, fun earlier event later parts => ?_⟩
  refine ⟨rooted earlier event later parts, ?_⟩
  rintro rfl
  refine Option.eq_none_iff_forall_ne_some.mpr fun start parent_eq => ?_
  exact not_isInnermost_nil start ((parents [] event later parts start).mp parent_eq)

end Trace

end JupiterMigration
