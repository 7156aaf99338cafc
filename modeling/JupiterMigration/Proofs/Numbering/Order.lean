import JupiterMigration.Proofs.Numbering
import JupiterMigration.Proofs.Session

/-!
# The order of numbers

Numbering deals out consecutive numbers in the order of a walk (`DealsOut`), so that no two nodes of
a numbered tree have the same number.
-/

namespace JupiterMigration

/--
A computation that deals out consecutive numbers, from the next one on: those of the nodes in its
result, in their order.
-/
def DealsOut {α : Type} (ids : α → List Nat) (numbering : Numbering α) : Prop :=
  ∀ next, ids (numbering.run next).1 = List.range' next (ids (numbering.run next).1).length ∧
    (numbering.run next).2 = next + (ids (numbering.run next).1).length

namespace DealsOut

/-- Numbers dealt out to a first and then to the rest are dealt out to both in a row. -/
theorem append
    {first rest : List Nat}
    {next middle last : Nat}
    (front : first = List.range' next first.length ∧ middle = next + first.length)
    (back : rest = List.range' middle rest.length ∧ last = middle + rest.length) :
    first ++ rest = List.range' next (first ++ rest).length ∧
      last = next + (first ++ rest).length := by
  obtain ⟨front_eq, rfl⟩ := front
  obtain ⟨back_eq, rfl⟩ := back
  refine ⟨?_, by simp [Nat.add_assoc]⟩
  rw [List.length_append, ← List.range'_append_1, ← front_eq, ← back_eq]

/-- A number dealt out on its own. -/
theorem single (next : Nat) :
    [next] = List.range' next [next].length ∧ next + 1 = next + [next].length :=
  ⟨rfl, rfl⟩

/-- No numbers dealt out. -/
theorem none (next : Nat) :
    [] = List.range' next ([] : List Nat).length ∧ next = next + ([] : List Nat).length :=
  ⟨rfl, rfl⟩

/-- Nodes without nodes below them that are numbered one after the other. -/
theorem numberAll
    {α : Type}
    {toNode : α → Node}
    {number : α → Numbering α}
    (each : ∀ node, DealsOut (fun numbered => [(toNode numbered).id]) (number node))
    (nodes : List α) :
    DealsOut (fun numbered => (numbered.map toNode).map Node.id)
      (JupiterMigration.numberAll number nodes) := by
  induction nodes with
  | nil => exact none
  | cons first rest inductionHypothesis =>
      intro next
      exact append (each first next) (inductionHypothesis ((number first).run next).2)

theorem ascends
    {α : Type}
    {ids : α → List Nat}
    {numbering : Numbering α}
    (dealsOut : DealsOut ids numbering) : Migration.Ascends numbering := by
  intro next
  rw [(dealsOut next).2]
  exact Nat.le_add_right _ _

/-- The dealt out numbers begin with the next one and end before the one that is next afterwards. -/
theorem mem_iff
    {α : Type}
    {ids : α → List Nat}
    {numbering : Numbering α}
    (dealsOut : DealsOut ids numbering)
    {next id : Nat} :
    id ∈ ids (numbering.run next).1 ↔ next ≤ id ∧ id < (numbering.run next).2 := by
  rw [(dealsOut next).1, (dealsOut next).2]
  exact List.mem_range'_1

theorem nodup
    {α : Type}
    {ids : α → List Nat}
    {numbering : Numbering α}
    (dealsOut : DealsOut ids numbering)
    (next : Nat) : (ids (numbering.run next).1).Nodup := by
  rw [(dealsOut next).1]
  exact List.nodup_range'

end DealsOut

theorem Annotation.dealsOut_numbered (use : Annotation) :
    DealsOut (fun numbered => [(Node.annotationUse numbered).id]) use.numbered :=
  DealsOut.single

theorem Statement.dealsOut_numbered (statement : Statement) :
    DealsOut (fun numbered => [(Node.statement numbered).id]) statement.numbered :=
  DealsOut.single

theorem Parameter.dealsOut_numbered (parameter : Parameter) :
    DealsOut (fun numbered => [(Node.parameter numbered).id]) parameter.numbered :=
  DealsOut.single

theorem Block.dealsOut_numbered (block : Block) :
    DealsOut (fun numbered => numbered.walk.map Node.id) block.numbered := by
  intro next
  exact DealsOut.append (DealsOut.single next)
    (DealsOut.numberAll Statement.dealsOut_numbered block.statements (next + 1))

theorem Field.dealsOut_numbered (field : Field) :
    DealsOut (fun numbered => (Member.field numbered).walk.map Node.id) field.numbered := by
  intro next
  exact DealsOut.append (DealsOut.single next)
    (DealsOut.numberAll Annotation.dealsOut_numbered field.annotations (next + 1))

/-- The numbers of the nodes below a body, if there is one. -/
def bodyIds (body : Option Block) : List Nat :=
  (body.map fun block => block.walk.map Node.id).getD []

theorem Method.map_id_walk (method : Method) :
    (Member.method method).walk.map Node.id =
      method.id :: ((method.annotations.map Node.annotationUse).map Node.id ++
        (method.parameters.map Node.parameter).map Node.id) ++ bodyIds method.body := by
  cases body_eq : method.body <;>
    simp [Member.walk, walkBelow, body_eq, bodyIds, Node.id, Member.id]

theorem Method.dealsOut_numbered (method : Method) :
    DealsOut (fun numbered => (Member.method numbered).walk.map Node.id) method.numbered := by
  intro next
  have annotations :=
    DealsOut.numberAll Annotation.dealsOut_numbered method.annotations (next + 1)
  have parameters := DealsOut.numberAll Parameter.dealsOut_numbered method.parameters
    ((numberAll Annotation.numbered method.annotations).run (next + 1)).2
  have front := DealsOut.append (DealsOut.single next) (DealsOut.append annotations parameters)
  simp only [map_id_walk]
  unfold numbered
  cases body_eq : method.body with
  | none => exact DealsOut.append front (DealsOut.none _)
  | some block => exact DealsOut.append front (block.dealsOut_numbered _)

theorem ClassHead.dealsOut_numbered (head : ClassHead) :
    DealsOut (fun numbered =>
        numbered.id :: (numbered.annotations.map Node.annotationUse).map Node.id)
      head.numbered := by
  intro next
  exact DealsOut.append (DealsOut.single next)
    (DealsOut.numberAll Annotation.dealsOut_numbered head.annotations (next + 1))

namespace Member

theorem map_id_walk_classDecl (head : ClassHead) (members : List Member) :
    (classDecl head members).walk.map Node.id =
      (head.id :: (head.annotations.map Node.annotationUse).map Node.id) ++
        (walkAll members).map Node.id := by
  simp [walk, Node.id, id]

mutual

theorem dealsOut_numbered (member : Member) :
    DealsOut (fun numbered => numbered.walk.map Node.id) member.numbered := by
  intro next
  cases member with
  | importDecl decl => exact DealsOut.single next
  | verbatim decl => exact DealsOut.single next
  | field decl => exact decl.dealsOut_numbered next
  | method decl => exact decl.dealsOut_numbered next
  | classDecl head members =>
      have inner := dealsOut_numberedAll members (head.numbered.run next).2
      have last : ((classDecl head members).numbered.run next).2 =
          ((numberedAll members).run (head.numbered.run next).2).2 := by
        rw [numbered]
        rfl
      rw [last, numbered_classDecl]
      simp only [map_id_walk_classDecl]
      exact DealsOut.append (head.dealsOut_numbered next) inner

theorem dealsOut_numberedAll (members : List Member) :
    DealsOut (fun numbered => (walkAll numbered).map Node.id) (numberedAll members) := by
  intro next
  cases members with
  | nil => exact DealsOut.none next
  | cons first rest =>
      have others := dealsOut_numberedAll rest (first.numbered.run next).2
      have last : ((numberedAll (first :: rest)).run next).2 =
          ((numberedAll rest).run (first.numbered.run next).2).2 := by
        rw [numberedAll]
        rfl
      rw [last, numberedAll_cons]
      simp only [walkAll, List.map_append]
      exact DealsOut.append (dealsOut_numbered first next) others

end

end Member

theorem SourceUnit.dealsOut_numbered (unit : SourceUnit) :
    DealsOut (fun numbered => numbered.walk.map Node.id) unit.numbered := by
  intro next
  exact DealsOut.append (DealsOut.single next)
    (Member.dealsOut_numberedAll unit.members (next + 1))

end JupiterMigration
