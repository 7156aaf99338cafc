import JupiterMigration.Proofs.Numbering.Erasure
import JupiterMigration.Proofs.Session.Pairs
import JupiterMigration.Proofs.Synthesis

/-!
# What steps come to

A step that makes nodes comes to a value or an error (`Synthesis.outcome`).  The session that it is
run from has a say only in the numbers of new nodes.  This is said of two runs: steps are alike if,
from whatever sessions, they come to the same error or to values that look the same to a view
(`Synthesis.Alike`).  A view that leaves numbers out makes every step alike to itself.
-/

namespace JupiterMigration

namespace Synthesis

variable {α β γ δ : Type}

/-- What a step comes to from a session. -/
def outcome (step : Synthesis α) (session : Session) : Except SynthesisError α :=
  (step.run.run session).1

/--
Two steps come to the same error or to values that look the same to a view, from whatever sessions.
-/
def Alike (view : α → β) (step twin : Synthesis α) : Prop :=
  ∀ session other, (step.outcome session).map view = (twin.outcome other).map view

/-- The pairs of steps that come to the same error or to related values, from whatever sessions. -/
def anywhere : PairKind Synthesis Synthesis :=
  (PairKind.results.withState fun (_ _ : Session) => True).orFailing SynthesisError

theorem alike_iff {view : α → β} {step twin : Synthesis α} :
    Alike view step twin ↔
      anywhere.Holds (fun value other => view value = view other) step twin := by
  have outcomes (result other : Except SynthesisError α) : result.map view = other.map view ↔
      PairKind.Outcomes (fun value other => view value = view other) result other := by
    constructor
    · intro same
      cases result with
      | error error =>
          cases other with
          | error twinError =>
              cases same
              exact .error error
          | ok value => cases same
      | ok value =>
          cases other with
          | error error => cases same
          | ok twinValue => exact .ok (Except.ok.inj same)
    · rintro (⟨same⟩ | _)
      · exact congrArg Except.ok same
      · rfl
  constructor
  · intro alike session other _
    exact ⟨(outcomes _ _).mp (alike session other), trivial⟩
  · intro holds session other
    exact (outcomes _ _).mpr (holds session other trivial).1

theorem alike_pure {view : α → β} {value twin : α} (same : view value = view twin) :
    Alike view (pure value) (pure twin) := by
  intro session other
  exact congrArg Except.ok same

theorem alike_lift
    {view : α → β}
    {step twin : Migration α}
    (same : ∀ session other, view (step.run session).1 = view (twin.run other).1) :
    Alike view (liftM step) (liftM twin) := by
  intro session other
  exact congrArg Except.ok (same session other)

theorem alike_warn (message : String) :
    Alike id (liftM (Migration.warn message) : Synthesis Unit) (liftM (Migration.warn message)) :=
  alike_lift fun _ _ => rfl

/-- Alike steps in a row are alike if the second ones do not look past the view of the first. -/
theorem Alike.bind
    {view : α → γ}
    {lastView : β → δ}
    {step twin : Synthesis α}
    {next nextTwin : α → Synthesis β}
    (first : Alike view step twin)
    (second : ∀ value other, view value = view other →
      Alike lastView (next value) (nextTwin other)) :
    Alike lastView (step >>= next) (twin >>= nextTwin) :=
  alike_iff.mpr (anywhere.bind (alike_iff.mp first) fun value other same =>
    alike_iff.mp (second value other same))

/-- Alike steps are alike to a view that shows less of their values. -/
theorem Alike.coarsen
    {view : α → β}
    {coarser : α → γ}
    {step twin : Synthesis α}
    (alike : Alike view step twin)
    (seen : ∀ value other, view value = view other → coarser value = coarser other) :
    Alike coarser step twin := by
  have shown : Alike coarser (step >>= pure) (twin >>= pure) :=
    alike.bind fun value other same => alike_pure (seen value other same)
  simpa using shown

/-- Lists of alike steps are alike, element by element. -/
theorem alike_mapM
    {view : β → γ}
    {step twin : α → Synthesis β}
    {items others : List α}
    (each : List.Forall₂ (fun item other => Alike view (step item) (twin other)) items others) :
    Alike (List.map view) (items.mapM step) (others.mapM twin) := by
  have results := anywhere.mapM each fun item other alike => alike_iff.mp alike
  refine alike_iff.mpr (anywhere.mono results fun values others same => ?_)
  induction same with
  | nil => rfl
  | cons head _ inductionHypothesis => rw [List.map_cons, List.map_cons, head, inductionHypothesis]

theorem alike_optionMapM
    {view : β → γ}
    {step : α → Synthesis β}
    (each : ∀ item, Alike view (step item) (step item))
    (item? : Option α) : Alike (Option.map view) (item?.mapM step) (item?.mapM step) := by
  cases item? with
  | none => exact alike_pure rfl
  | some item =>
      rw [Option.mapM_some, map_eq_pure_bind]
      apply (each item).bind
      intro value other same
      exact alike_pure (congrArg some same)

/-- A node read from a snippet looks the same to a view that leaves its numbers out. -/
theorem alike_numbered
    {view : α → β}
    {number : α → Numbering α}
    (erased : ∀ node next, view ((number node).run next).1 = view node)
    (node : Except SynthesisError α) :
    Alike view (numbered node number) (numbered node number) := by
  have given : Alike id (ofExcept node) (ofExcept node) := fun _ _ => rfl
  apply given.bind
  intro unnumbered other same
  cases same
  apply alike_lift
  intro session later
  exact (erased unnumbered _).trans (erased unnumbered _).symm

end Synthesis

namespace Template

open Synthesis

variable (template : String) (values : List Value)

theorem alike_member (indent lead : String) :
    Alike Member.unnumbered (member template values indent lead)
      (member template values indent lead) :=
  alike_numbered Member.unnumbered_numbered _

theorem alike_statement (indent lead : String) :
    Alike Statement.unnumbered (statement template values indent lead)
      (statement template values indent lead) :=
  alike_numbered (fun _ _ => rfl) _

theorem alike_annotationUse (lead : String) :
    Alike Annotation.unnumbered (annotationUse template values lead)
      (annotationUse template values lead) :=
  alike_numbered (fun _ _ => rfl) _

end Template

end JupiterMigration
