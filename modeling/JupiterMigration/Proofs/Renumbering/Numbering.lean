import JupiterMigration.Proofs.Renumbering.Tree
import JupiterMigration.Proofs.Session.Pairs

/-!
# Two counters

Two runs that deal out numbers from two counters make the same nodes, apart from the numbers
(`Template.renumbers_member`).  The counters are aligned: a function leads from each number that the
first run has not dealt out to the one that the second run deals out in its place (`Aligned`).
-/

namespace JupiterMigration

variable (number : Nat → Nat)

/-! ## Dealing out numbers -/

/-- The numbers from one counter on lead to those from the other one on. -/
def Aligned (next other : Nat) : Prop :=
  ∀ count, number (next + count) = other + count

/-- The pairs of computations that give related results as they deal out aligned numbers. -/
def Numbering.renumbering : PairKind Numbering Numbering :=
  .withState .results (Aligned number)

section Numberings

variable {number} {α : Type}

theorem renumbers_fresh :
    (Numbering.renumbering number).Holds (fun id other => other = number id) fresh fresh := by
  intro next other aligned
  refine ⟨(aligned 0).symm, fun count => ?_⟩
  have later := aligned (count + 1)
  rw [Nat.add_comm count 1, ← Nat.add_assoc, ← Nat.add_assoc] at later
  exact later

theorem renumbers_numberAll
    {step : α → Numbering α}
    {change : α → α}
    (each : ∀ item, (Numbering.renumbering number).Holds (fun node other => other = change node)
      (step item) (step item))
    (items : List α) :
    (Numbering.renumbering number).Holds (fun nodes others => others = nodes.map change)
      (numberAll step items) (numberAll step items) := by
  induction items with
  | nil => exact (Numbering.renumbering number).pure rfl
  | cons first rest inductionHypothesis =>
      rw [numberAll]
      refine (Numbering.renumbering number).bind (each first) fun _ _ head => ?_
      refine (Numbering.renumbering number).bind inductionHypothesis fun _ _ tail => ?_
      refine (Numbering.renumbering number).pure ?_
      rw [head, tail, List.map_cons]

theorem Annotation.renumbers_numbered (use : Annotation) :
    (Numbering.renumbering number).Holds (fun node other => other = node.renumbered number)
      use.numbered use.numbered := by
  refine (Numbering.renumbering number).bind renumbers_fresh fun _ _ id => ?_
  exact (Numbering.renumbering number).pure (by rw [id]; rfl)

theorem Statement.renumbers_numbered (statement : Statement) :
    (Numbering.renumbering number).Holds (fun node other => other = node.renumbered number)
      statement.numbered statement.numbered := by
  refine (Numbering.renumbering number).bind renumbers_fresh fun _ _ id => ?_
  exact (Numbering.renumbering number).pure (by rw [id]; rfl)

theorem Parameter.renumbers_numbered (parameter : Parameter) :
    (Numbering.renumbering number).Holds (fun node other => other = node.renumbered number)
      parameter.numbered parameter.numbered := by
  refine (Numbering.renumbering number).bind renumbers_fresh fun _ _ id => ?_
  exact (Numbering.renumbering number).pure (by rw [id]; rfl)

theorem Block.renumbers_numbered (block : Block) :
    (Numbering.renumbering number).Holds (fun node other => other = node.renumbered number)
      block.numbered block.numbered := by
  refine (Numbering.renumbering number).bind renumbers_fresh fun _ _ id => ?_
  refine (Numbering.renumbering number).bind
    (renumbers_numberAll Statement.renumbers_numbered block.statements) fun _ _ statements => ?_
  exact (Numbering.renumbering number).pure (by rw [id, statements]; rfl)

theorem Field.renumbers_numbered (field : Field) :
    (Numbering.renumbering number).Holds (fun node other => other = node.renumbered number)
      field.numbered field.numbered := by
  refine (Numbering.renumbering number).bind renumbers_fresh fun _ _ id => ?_
  refine (Numbering.renumbering number).bind
    (renumbers_numberAll Annotation.renumbers_numbered field.annotations) fun _ _ annotations => ?_
  exact (Numbering.renumbering number).pure (by rw [id, annotations]; rfl)

theorem Method.renumbers_numbered (method : Method) :
    (Numbering.renumbering number).Holds (fun node other => other = node.renumbered number)
      method.numbered method.numbered := by
  unfold numbered
  refine (Numbering.renumbering number).bind renumbers_fresh fun _ _ id => ?_
  refine (Numbering.renumbering number).bind
    (renumbers_numberAll Annotation.renumbers_numbered method.annotations) fun _ _ annotations => ?_
  refine (Numbering.renumbering number).bind
    (renumbers_numberAll Parameter.renumbers_numbered method.parameters) fun _ _ parameters => ?_
  split
  · next noBody =>
      refine (Numbering.renumbering number).pure ?_
      rw [id, annotations, parameters, renumbered, noBody]
      rfl
  · next block _ =>
      refine (Numbering.renumbering number).bind block.renumbers_numbered fun _ _ body => ?_
      exact (Numbering.renumbering number).pure (by rw [id, annotations, parameters, body]; rfl)

theorem ClassHead.renumbers_numbered (head : ClassHead) :
    (Numbering.renumbering number).Holds (fun node other => other = node.renumbered number)
      head.numbered head.numbered := by
  refine (Numbering.renumbering number).bind renumbers_fresh fun _ _ id => ?_
  refine (Numbering.renumbering number).bind
    (renumbers_numberAll Annotation.renumbers_numbered head.annotations) fun _ _ annotations => ?_
  exact (Numbering.renumbering number).pure (by rw [id, annotations]; rfl)

namespace Member

mutual

theorem renumbers_numbered (member : Member) :
    (Numbering.renumbering number).Holds (fun node other => other = node.renumbered number)
      member.numbered member.numbered := by
  cases member with
  | importDecl decl | verbatim decl =>
      refine (Numbering.renumbering number).bind renumbers_fresh fun _ _ id => ?_
      exact (Numbering.renumbering number).pure (by rw [id]; rfl)
  | field decl =>
      refine (Numbering.renumbering number).bind decl.renumbers_numbered fun _ _ inner => ?_
      exact (Numbering.renumbering number).pure (by rw [inner]; rfl)
  | method decl =>
      refine (Numbering.renumbering number).bind decl.renumbers_numbered fun _ _ inner => ?_
      exact (Numbering.renumbering number).pure (by rw [inner]; rfl)
  | classDecl head members =>
      rw [numbered]
      refine (Numbering.renumbering number).bind head.renumbers_numbered fun _ _ front => ?_
      refine (Numbering.renumbering number).bind (renumbers_numberedAll members) fun _ _ inner => ?_
      exact (Numbering.renumbering number).pure (by rw [front, inner, renumbered_classDecl])

theorem renumbers_numberedAll (members : List Member) :
    (Numbering.renumbering number).Holds
      (fun nodes others => others = nodes.map (renumbered number))
      (numberedAll members) (numberedAll members) := by
  cases members with
  | nil => exact (Numbering.renumbering number).pure rfl
  | cons first rest =>
      rw [numberedAll]
      refine (Numbering.renumbering number).bind (renumbers_numbered first) fun _ _ head => ?_
      refine (Numbering.renumbering number).bind (renumbers_numberedAll rest) fun _ _ tail => ?_
      exact (Numbering.renumbering number).pure (by rw [head, tail, List.map_cons])

end

end Member

end Numberings

/-! ## Steps of a migration -/

/-- Sessions with the same journal whose counters are aligned. -/
structure Session.Renumbered (session other : Session) : Prop where
  journal : session.journal = other.journal
  aligned : Aligned number session.nextId other.nextId

namespace Migration

/-- The pairs of steps that do the same in two runs, apart from the numbers. -/
def renumbering : PairKind Migration Migration :=
  .withState .results (Session.Renumbered number)

variable {number}

theorem renumbers_log (level : LogLevel) (message : String) :
    (renumbering number).Holds (fun _ _ => True) (log level message) (log level message) := by
  intro session other sessions
  refine ⟨trivial, ?_, sessions.aligned⟩
  exact congrArg (fun journal : Journal =>
    { journal with log := journal.log ++ [LogRecord.mk level message] }) sessions.journal

theorem renumbers_traced (change : Trace → Trace) :
    (renumbering number).Holds (fun _ _ => True) (traced change) (traced change) := by
  intro session other sessions
  refine ⟨trivial, ?_, sessions.aligned⟩
  exact congrArg (fun journal : Journal =>
    { journal with trace := change journal.trace }) sessions.journal

theorem renumbers_record (happening : Happening) :
    (renumbering number).Holds (fun _ _ => True) (record happening) (record happening) :=
  renumbers_traced _

theorem renumbers_warn (message : String) :
    (renumbering number).Holds (fun _ _ => True) (warn message) (warn message) :=
  (renumbering number).bind (renumbers_log _ _) fun _ _ _ => renumbers_record _

theorem renumbers_skip (target reason : String) :
    (renumbering number).Holds (fun _ _ => True) (skip target reason) (skip target reason) :=
  (renumbering number).bind (renumbers_log _ _) fun _ _ _ => renumbers_record _

theorem renumbers_get :
    (renumbering number).Holds (Session.Renumbered number) (get : Migration Session) get :=
  PairKind.results.withState_get

theorem renumbers_warnings : (renumbering number).Holds Eq warnings warnings :=
  (renumbering number).bind renumbers_get fun _ _ sessions =>
    (renumbering number).pure (by rw [sessions.journal])

theorem renumbers_number
    {α : Type}
    {Related : α → α → Prop}
    {numbering : Numbering α}
    (related : (Numbering.renumbering number).Holds Related numbering numbering) :
    (renumbering number).Holds Related (Migration.number numbering)
      (Migration.number numbering) := by
  intro session other sessions
  obtain ⟨results, aligned⟩ := related _ _ sessions.aligned
  exact ⟨results, sessions.journal, aligned⟩

end Migration

theorem Stages.renumbers_phase
    {number : Nat → Nat}
    {α β : Type}
    {Related : α → β → Prop}
    (name detail : String)
    {step : Migration α}
    {twin : Migration β}
    (related : (Migration.renumbering number).Holds Related step twin) :
    (Migration.renumbering number).Holds Related (phase name detail step)
      (phase name detail twin) := by
  refine (Migration.renumbering number).bind (Migration.renumbers_traced _) fun _ _ _ => ?_
  refine (Migration.renumbering number).bind related fun _ _ results => ?_
  refine (Migration.renumbering number).bind (Migration.renumbers_traced _) fun _ _ _ => ?_
  exact (Migration.renumbering number).pure results

/-! ## New nodes -/

/-- The pairs of steps that do the same in two runs, apart from the numbers, or fail in both. -/
def Synthesis.renumbering : PairKind Synthesis Synthesis :=
  (Migration.renumbering number).orFailing SynthesisError

variable {number}

theorem Synthesis.renumbers_numbered
    {α : Type}
    {Related : α → α → Prop}
    {numbering : α → Numbering α}
    (related : ∀ node, (Numbering.renumbering number).Holds Related (numbering node)
      (numbering node))
    (node : Except SynthesisError α) :
    (renumbering number).Holds Related (numbered node numbering) (numbered node numbering) := by
  have given : (renumbering number).Holds Eq (ofExcept node) (ofExcept node) := by
    cases node with
    | ok node => exact (Migration.renumbering number).pure (.ok rfl)
    | error error => exact (Migration.renumbering number).pure (.error error)
  refine (renumbering number).bind given fun unnumbered _ same => ?_
  subst same
  exact (Migration.renumbering number).orFailing_lift (Migration.renumbers_number (related _))

namespace Template

theorem renumbers_annotationUse (template : String) (values : List Value) (lead : String) :
    (Synthesis.renumbering number).Holds (fun node other => other = node.renumbered number)
      (annotationUse template values lead) (annotationUse template values lead) :=
  Synthesis.renumbers_numbered Annotation.renumbers_numbered _

theorem renumbers_statement (template : String) (values : List Value) (indent lead : String) :
    (Synthesis.renumbering number).Holds (fun node other => other = node.renumbered number)
      (statement template values indent lead) (statement template values indent lead) :=
  Synthesis.renumbers_numbered Statement.renumbers_numbered _

theorem renumbers_member (template : String) (values : List Value) (indent lead : String) :
    (Synthesis.renumbering number).Holds (fun node other => other = node.renumbered number)
      (member template values indent lead) (member template values indent lead) :=
  Synthesis.renumbers_numbered Member.renumbers_numbered _

end Template

end JupiterMigration
