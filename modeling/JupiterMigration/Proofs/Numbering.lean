import JupiterMigration.Tree.Numbering
import JupiterMigration.Tree.Usage

/-!
# What numbering keeps

Numbers are the only thing that numbering changes.  A numbered node prints as before
(`print_numbered`), and the nodes below it mention the same names (`references_walk_numbered`).
-/

namespace JupiterMigration

/-- What is the same for a node and its numbered copy is the same for some nodes and theirs. -/
theorem map_numberAll
    {α β : Type}
    {number : α → Numbering α}
    {view : α → β}
    (keeps : ∀ node next, view ((number node).run next).1 = view node)
    (nodes : List α)
    (next : Nat) : ((numberAll number nodes).run next).1.map view = nodes.map view := by
  induction nodes generalizing next with
  | nil => rfl
  | cons first rest inductionHypothesis =>
      have head := keeps first next
      have tail := inductionHypothesis ((number first).run next).2
      exact List.cons_eq_cons.mpr ⟨head, tail⟩

/-- Numbering leaves an empty list empty. -/
theorem isEmpty_numberAll
    {α : Type}
    (number : α → Numbering α)
    (nodes : List α)
    (next : Nat) : ((numberAll number nodes).run next).1.isEmpty = nodes.isEmpty := by
  cases nodes <;> rfl

theorem printAll_numberAll
    {α : Type}
    {number : α → Numbering α}
    {print : α → String}
    (keeps : ∀ node next, print ((number node).run next).1 = print node)
    (nodes : List α)
    (next : Nat) : printAll print ((numberAll number nodes).run next).1 = printAll print nodes := by
  rw [printAll, map_numberAll keeps, printAll]

namespace Annotation

theorem print_numbered (use : Annotation) (next : Nat) :
    (use.numbered.run next).1.print = use.print := rfl

theorem references_numbered (use : Annotation) (next : Nat) :
    (use.numbered.run next).1.references = use.references := rfl

end Annotation

namespace Statement

theorem print_numbered (statement : Statement) (next : Nat) :
    (statement.numbered.run next).1.print = statement.print := rfl

theorem references_numbered (statement : Statement) (next : Nat) :
    (statement.numbered.run next).1.references = statement.references := rfl

end Statement

namespace Parameter

theorem print_numbered (parameter : Parameter) (next : Nat) :
    (parameter.numbered.run next).1.print = parameter.print := rfl

theorem references_numbered (parameter : Parameter) (next : Nat) :
    (parameter.numbered.run next).1.references = parameter.references := rfl

end Parameter

/-- The references of nodes of one kind do not change. -/
theorem references_numberAll
    {α : Type}
    {number : α → Numbering α}
    (toNode : α → Node)
    (keeps : ∀ node next, (toNode ((number node).run next).1).references =
      (toNode node).references)
    (nodes : List α)
    (next : Nat) :
    ((((numberAll number nodes).run next).1.map toNode).map Node.references) =
      (nodes.map toNode).map Node.references := by
  rw [List.map_map, List.map_map]
  exact map_numberAll keeps nodes next

namespace Block

theorem print_numbered (block : Block) (next : Nat) :
    (block.numbered.run next).1.print = block.print := by
  have statements := printAll_numberAll Statement.print_numbered block.statements (next + 1)
  unfold print text
  exact congrArg (fun inner => block.lead ++ ("\x7b" ++ inBraces inner block.closing)) statements

theorem references_walk_numbered (block : Block) (next : Nat) :
    (block.numbered.run next).1.walk.map Node.references =
      block.walk.map Node.references := by
  have statements := references_numberAll .statement Statement.references_numbered
    block.statements (next + 1)
  exact congrArg (List.cons []) statements

end Block

namespace Field

theorem print_numbered (field : Field) (next : Nat) :
    (field.numbered.run next).1.print = field.print := by
  have annotations :=
    printAll_numberAll Annotation.print_numbered field.annotations (next + 1)
  exact congrArg (fun uses => field.lead ++ (uses ++ field.declLead ++ field.text)) annotations

end Field

namespace Method

/-- The numbered method differs from the method in the nodes below it only. -/
theorem numbered_run (method : Method) (next : Nat) :
    ∃ first second third,
      (method.numbered.run next).1 = { method with
        id := next
        annotations := ((numberAll Annotation.numbered method.annotations).run first).1
        parameters := ((numberAll Parameter.numbered method.parameters).run second).1
        body := method.body.map fun block => (block.numbered.run third).1 } := by
  let first := next + 1
  let second := ((numberAll Annotation.numbered method.annotations).run first).2
  let third := ((numberAll Parameter.numbered method.parameters).run second).2
  refine ⟨first, second, third, ?_⟩
  unfold numbered
  cases body_eq : method.body with
  | none => rfl
  | some block => rfl

theorem print_numbered (method : Method) (next : Nat) :
    (method.numbered.run next).1.print = method.print := by
  obtain ⟨first, second, third, numbered_eq⟩ := method.numbered_run next
  have parameters :=
    map_numberAll Parameter.print_numbered method.parameters second
  rw [numbered_eq]
  unfold print text typeText parameterText bodyText
  simp only [printAll_numberAll Annotation.print_numbered, isEmpty_numberAll, parameters]
  cases method.body with
  | none => rfl
  | some block => simp only [Option.map_some, block.print_numbered]

theorem references_walkBelow_numbered (method : Method) (next : Nat) :
    (method.numbered.run next).1.walkBelow.map Node.references =
      method.walkBelow.map Node.references := by
  obtain ⟨first, second, third, numbered_eq⟩ := method.numbered_run next
  rw [numbered_eq]
  simp only [walkBelow, List.map_append,
    references_numberAll .annotationUse Annotation.references_numbered,
    references_numberAll .parameter Parameter.references_numbered]
  cases method.body with
  | none => rfl
  | some block => simp only [Option.map_some, block.references_walk_numbered]

end Method

namespace ClassHead

theorem front_numbered (head : ClassHead) (next : Nat) :
    (head.numbered.run next).1.front = head.front := by
  have annotations :=
    printAll_numberAll Annotation.print_numbered head.annotations (next + 1)
  exact congrArg (fun uses => uses ++ head.declLead ++ head.header) annotations

end ClassHead

namespace Member

/-- A class is numbered before its members. -/
theorem numbered_classDecl (head : ClassHead) (members : List Member) (next : Nat) :
    ((classDecl head members).numbered.run next).1 =
      classDecl (head.numbered.run next).1
        ((numberedAll members).run (head.numbered.run next).2).1 := by
  rw [numbered]
  rfl

/-- Members are numbered one after the other. -/
theorem numberedAll_cons (first : Member) (rest : List Member) (next : Nat) :
    ((numberedAll (first :: rest)).run next).1 =
      (first.numbered.run next).1 ::
        ((numberedAll rest).run (first.numbered.run next).2).1 := by
  rw [numberedAll]
  rfl

mutual

/-- Numbering changes nothing that is printed. -/
theorem print_numbered (member : Member) (next : Nat) :
    (member.numbered.run next).1.print = member.print := by
  cases member with
  | importDecl decl => rfl
  | verbatim decl => rfl
  | field decl => exact decl.print_numbered next
  | method decl => exact decl.print_numbered next
  | classDecl head members =>
      have inner := printMembers_numberedAll members (head.numbered.run next).2
      rw [numbered_classDecl]
      simp only [print, lead, text, head.front_numbered next, inner]
      rfl

theorem printMembers_numberedAll (members : List Member) (next : Nat) :
    printMembers ((numberedAll members).run next).1 = printMembers members := by
  cases members with
  | nil => rfl
  | cons first rest =>
      have head := first.print_numbered next
      have tail := printMembers_numberedAll rest (first.numbered.run next).2
      rw [numberedAll_cons, printMembers, tail]
      exact congrArg (· ++ printMembers rest) head

end

mutual

/-- Numbering changes no name that a node mentions. -/
theorem references_walk_numbered (member : Member) (next : Nat) :
    (member.numbered.run next).1.walk.map Node.references =
      member.walk.map Node.references := by
  cases member with
  | importDecl decl => rfl
  | verbatim decl => rfl
  | field decl =>
      have annotations := references_numberAll .annotationUse Annotation.references_numbered
        decl.annotations (next + 1)
      exact congrArg (List.cons decl.references) annotations
  | method decl =>
      have below := decl.references_walkBelow_numbered next
      have own : (decl.numbered.run next).1.references = decl.references := by
        obtain ⟨first, second, third, numbered_eq⟩ := decl.numbered_run next
        rw [numbered_eq]
      exact List.cons_eq_cons.mpr ⟨own, below⟩
  | classDecl head members =>
      have annotations := references_numberAll .annotationUse Annotation.references_numbered
        head.annotations (next + 1)
      have inner := references_walkAll_numberedAll members (head.numbered.run next).2
      rw [numbered_classDecl]
      simp only [walk, List.map_cons, List.map_append, inner]
      exact congrArg (head.references :: · ++ _) annotations

theorem references_walkAll_numberedAll (members : List Member) (next : Nat) :
    (walkAll ((numberedAll members).run next).1).map Node.references =
      (walkAll members).map Node.references := by
  cases members with
  | nil => rfl
  | cons first rest =>
      have head := first.references_walk_numbered next
      have tail := references_walkAll_numberedAll rest (first.numbered.run next).2
      rw [numberedAll_cons, walkAll, walkAll, List.map_append, List.map_append, head, tail]

end

/-- Numbering changes no name that is used below a declaration. -/
theorem namesUsed_numbered (member : Member) (next : Nat) :
    (member.numbered.run next).1.namesUsed = member.namesUsed :=
  congrArg Names.unionAll (member.references_walk_numbered next)

/-- Numbering turns no declaration into an import and no import into something else. -/
theorem isImport_numbered (member : Member) (next : Nat) :
    (member.numbered.run next).1.isImport = member.isImport := by
  cases member with
  | classDecl head members => rw [numbered_classDecl]; rfl
  | _ => rfl

/-- What is the same for a declaration and its numbered copy is the same for some and theirs. -/
theorem map_numberedAll
    {β : Type}
    {view : Member → β}
    (keeps : ∀ member next, view (member.numbered.run next).1 = view member)
    (members : List Member)
    (next : Nat) : ((numberedAll members).run next).1.map view = members.map view := by
  induction members generalizing next with
  | nil => rfl
  | cons first rest inductionHypothesis =>
      rw [numberedAll_cons, List.map_cons, keeps, inductionHypothesis, List.map_cons]

end Member

namespace SourceUnit

/-- Numbering changes nothing that is printed of a file. -/
theorem print_numbered (unit : SourceUnit) (next : Nat) :
    (unit.numbered.run next).1.print = unit.print := by
  have members := Member.printMembers_numberedAll unit.members (next + 1)
  exact congrArg (fun inner => unit.lead ++ inner ++ unit.tail) members

/-- The declarations that are no imports use the same names when they are numbered. -/
theorem namesUsed_numbered (unit : SourceUnit) (next : Nat) :
    (unit.numbered.run next).1.namesUsed = unit.namesUsed := by
  let view (member : Member) : Bool × Names := (member.isImport, member.namesUsed)
  have keeps (member : Member) (later : Nat) :
      view (member.numbered.run later).1 = view member := by
    simp only [view, member.isImport_numbered, member.namesUsed_numbered]
  have views := Member.map_numberedAll keeps unit.members (next + 1)
  have fromViews (members : List Member) :
      Member.namesUsedByAll (members.filter (!·.isImport)) =
        Names.unionAll (((members.map view).filter (!·.1)).map (·.2)) := by
    rw [Member.namesUsedByAll, List.filter_map, List.map_map]
    rfl
  unfold namesUsed
  rw [fromViews, fromViews, ← views]
  rfl

end SourceUnit

end JupiterMigration
