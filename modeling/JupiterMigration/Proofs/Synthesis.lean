import JupiterMigration.Proofs.Identity
import Mathlib.Data.List.Forall2

/-!
# Steps that make nodes

`Synthesis.Makes` says that a step does not fail, what it makes, and between which sessions.  Steps
in a row make what each makes (`makes_bind`, `forall₂_of_mapM`), and the numbers of new nodes are
those dealt out between the sessions (`Template.renewed_member`).
-/

namespace JupiterMigration

theorem Except.eq_ok_of_mem_toOption
    {ε α : Type}
    {outcome : Except ε α}
    {value : α}
    (inside : value ∈ outcome.toOption) : outcome = .ok value := by
  cases outcome with
  | error error => cases inside
  | ok result =>
      cases inside
      rfl

namespace Synthesis

/-- A step does not fail but makes a value between two sessions. -/
def Makes {α : Type} (step : Synthesis α) (earlier : Session) (value : α) (later : Session) :
    Prop :=
  step.run.run earlier = (.ok value, later)

variable {α β : Type} {earlier later : Session}

/-- A step that is seen not to fail makes something. -/
theorem exists_makes
    {step : Synthesis α}
    (succeeds : (step.run.run earlier).1.toOption.isSome = true) :
    ∃ value later, step.Makes earlier value later := by
  obtain ⟨value, made⟩ := Option.isSome_iff_exists.mp succeeds
  exact ⟨value, _, Prod.ext (Except.eq_ok_of_mem_toOption made) rfl⟩

theorem makes_pure {value result : α} :
    (pure value : Synthesis α).Makes earlier result later ↔ result = value ∧ later = earlier := by
  constructor
  · intro makes
    cases makes
    exact ⟨rfl, rfl⟩
  · rintro ⟨rfl, rfl⟩
    rfl

theorem makes_bind {step : Synthesis α} {next : α → Synthesis β} {result : β} :
    (step >>= next).Makes earlier result later ↔
      ∃ value middle, step.Makes earlier value middle ∧ (next value).Makes middle result later := by
  unfold Makes
  rw [ExceptT.run_bind, Migration.run_bind]
  generalize step.run.run earlier = run
  obtain ⟨outcome, middle⟩ := run
  cases outcome with
  | error error =>
      constructor
      · intro fails
        exact absurd (congrArg Prod.fst fails) (by simp)
      · rintro ⟨value, other, fails, -⟩
        exact absurd (congrArg Prod.fst fails) (by simp)
  | ok value =>
      constructor
      · intro makes
        exact ⟨value, middle, rfl, makes⟩
      · rintro ⟨other, session, same, makes⟩
        cases same
        exact makes

theorem makes_lift {step : Migration α} {value : α} :
    (liftM step : Synthesis α).Makes earlier value later ↔
      value = (step.run earlier).1 ∧ later = (step.run earlier).2 := by
  constructor
  · intro makes
    cases makes
    exact ⟨rfl, rfl⟩
  · rintro ⟨rfl, rfl⟩
    rfl

/-- A step of which it is known what it records deals out numbers upwards. -/
theorem nextId_le_of_makes
    {allowed : Happening → Prop}
    {step : Synthesis α}
    {value : α}
    (records : (recording allowed).Holds step)
    (makes : step.Makes earlier value later) : earlier.nextId ≤ later.nextId := by
  have extends_later := records earlier
  rw [show step.run.run earlier = (.ok value, later) from makes] at extends_later
  exact extends_later.nextId_le

theorem makes_mapM_nil {step : α → Synthesis β} {results : List β} :
    (([] : List α).mapM step).Makes earlier results later ↔ results = [] ∧ later = earlier := by
  rw [List.mapM_nil, makes_pure]

theorem makes_mapM_cons {step : α → Synthesis β} {first : α} {rest : List α} {results : List β} :
    ((first :: rest).mapM step).Makes earlier results later ↔
      ∃ head middle tail, results = head :: tail ∧ (step first).Makes earlier head middle ∧
        (rest.mapM step).Makes middle tail later := by
  rw [List.mapM_cons, makes_bind]
  constructor
  · rintro ⟨head, middle, makesHead, makes⟩
    obtain ⟨tail, last, makesTail, makesList⟩ := makes_bind.mp makes
    obtain ⟨rfl, rfl⟩ := makes_pure.mp makesList
    exact ⟨head, middle, tail, rfl, makesHead, makesTail⟩
  · rintro ⟨head, middle, tail, rfl, makesHead, makesTail⟩
    exact ⟨head, middle, makesHead,
      makes_bind.mpr ⟨tail, later, makesTail, makes_pure.mpr ⟨rfl, rfl⟩⟩⟩

/-- What is made of the elements of a list is made of each one. -/
theorem forall₂_of_mapM
    {step : α → Synthesis β}
    {items : List α}
    {results : List β}
    (makes : (items.mapM step).Makes earlier results later) :
    List.Forall₂ (fun item result => ∃ before after, (step item).Makes before result after)
      items results := by
  induction items generalizing earlier results with
  | nil =>
      rw [(makes_mapM_nil.mp makes).1]
      exact .nil
  | cons first rest inductionHypothesis =>
      obtain ⟨head, middle, tail, rfl, makesHead, makesTail⟩ := makes_mapM_cons.mp makes
      exact .cons ⟨earlier, middle, makesHead⟩ (inductionHypothesis makesTail)

/-- If each declaration is made of one with old and newly dealt out numbers, so are all. -/
theorem renewed_of_mapM
    {step : Member → Synthesis Member}
    (each : ∀ member result before after, (step member).Makes before result after →
      Renewed before.nextId after.nextId member.ids result.ids)
    {members results : List Member}
    (makes : (members.mapM step).Makes earlier results later) :
    Renewed earlier.nextId later.nextId (Member.idsAll members) (Member.idsAll results) := by
  induction members generalizing earlier results with
  | nil =>
      obtain ⟨rfl, rfl⟩ := makes_mapM_nil.mp makes
      exact .refl _ _
  | cons first rest inductionHypothesis =>
      obtain ⟨head, middle, tail, rfl, makesHead, makesTail⟩ := makes_mapM_cons.mp makes
      rw [Member.idsAll_cons, Member.idsAll_cons]
      exact (each _ _ _ _ makesHead).append (inductionHypothesis makesTail)

/-- A node that is read from a snippet gets the numbers that are dealt out. -/
theorem makes_numbered
    {node : Except SynthesisError α}
    {number : α → Numbering α}
    {result : α} :
    (numbered node number).Makes earlier result later ↔
      ∃ unnumbered, node = .ok unnumbered ∧
        result = ((number unnumbered).run earlier.nextId).1 ∧
        later = { earlier with nextId := ((number unnumbered).run earlier.nextId).2 } := by
  unfold numbered
  rw [makes_bind]
  constructor
  · rintro ⟨unnumbered, middle, given, makes⟩
    obtain ⟨rfl, rfl⟩ := makes_lift.mp makes
    cases given
    exact ⟨unnumbered, rfl, rfl, rfl⟩
  · rintro ⟨unnumbered, rfl, rfl, rfl⟩
    exact ⟨unnumbered, earlier, rfl, makes_lift.mpr ⟨rfl, rfl⟩⟩

end Synthesis

namespace Template

open Synthesis

variable {earlier later : Session} {template : String} {values : List Value}

/-- The numbers of a new member are dealt out. -/
theorem renewed_member
    {indent lead : String}
    {result : Member}
    (makes : (member template values indent lead).Makes earlier result later) :
    Renewed earlier.nextId later.nextId [] result.ids := by
  obtain ⟨unnumbered, -, rfl, rfl⟩ := makes_numbered.mp makes
  exact .of_dealsOut unnumbered.dealsOut_numbered earlier.nextId
    (List.filter_sublist.map Node.id)

/-- The number of a new annotation is dealt out. -/
theorem renewed_annotationUse
    {lead : String}
    {result : Annotation}
    (makes : (annotationUse template values lead).Makes earlier result later) :
    Renewed earlier.nextId later.nextId [] [result.id] := by
  obtain ⟨unnumbered, -, rfl, rfl⟩ := makes_numbered.mp makes
  exact .of_dealsOut unnumbered.dealsOut_numbered earlier.nextId (List.Sublist.refl _)

end Template

end JupiterMigration
