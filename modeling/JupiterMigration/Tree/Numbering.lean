import JupiterMigration.Tree.Basic

/-!
# Numbering nodes

Numbers are dealt out from a counter, in the order in which a walk meets the nodes.  Numbering
changes nothing that is printed (`print_numbered`).
-/

namespace JupiterMigration

/-- A computation that deals out numbers. -/
abbrev Numbering := StateM Nat

/-- The next number. -/
def fresh : Numbering Nat :=
  modifyGet fun next => (next, next + 1)

namespace Annotation

/-- The annotation with a new number. -/
def numbered (annotationUse : Annotation) : Numbering Annotation :=
  return { annotationUse with id := ← fresh }

end Annotation

namespace Statement

/-- The statement with a new number. -/
def numbered (statement : Statement) : Numbering Statement :=
  return { statement with id := ← fresh }

end Statement

namespace Parameter

/-- The parameter with a new number. -/
def numbered (parameter : Parameter) : Numbering Parameter :=
  return { parameter with id := ← fresh }

end Parameter

/-- Numbers the nodes of a list one after the other. -/
def numberAll {α : Type} (number : α → Numbering α) : List α → Numbering (List α)
  | [] => return []
  | first :: rest => do
    let head ← number first
    let tail ← numberAll number rest
    return head :: tail

namespace Block

/-- The block and its statements with new numbers. -/
def numbered (block : Block) : Numbering Block := do
  let id ← fresh
  let statements ← numberAll Statement.numbered block.statements
  return { block with id, statements }

end Block

namespace Field

/-- The field and its annotations with new numbers. -/
def numbered (field : Field) : Numbering Field := do
  let id ← fresh
  let annotations ← numberAll Annotation.numbered field.annotations
  return { field with id, annotations }

end Field

namespace Method

/-- The method and all of its parts with new numbers. -/
def numbered (method : Method) : Numbering Method := do
  let id ← fresh
  let annotations ← numberAll Annotation.numbered method.annotations
  let parameters ← numberAll Parameter.numbered method.parameters
  match method.body with
  | none => return { method with id, annotations, parameters }
  | some block =>
    let body ← block.numbered
    return { method with id, annotations, parameters, body := some body }

end Method

namespace ClassHead

/-- The class and its annotations with new numbers. -/
def numbered (head : ClassHead) : Numbering ClassHead := do
  let id ← fresh
  let annotations ← numberAll Annotation.numbered head.annotations
  return { head with id, annotations }

end ClassHead

namespace Member

mutual

/-- The declaration and all of its parts with new numbers. -/
def numbered : Member → Numbering Member
  | importDecl decl => return importDecl { decl with id := ← fresh }
  | verbatim decl => return verbatim { decl with id := ← fresh }
  | field decl => return field (← decl.numbered)
  | method decl => return method (← decl.numbered)
  | classDecl head members => do
    let head ← head.numbered
    let members ← numberedAll members
    return classDecl head members

/-- Some declarations and all of their parts with new numbers. -/
def numberedAll : List Member → Numbering (List Member)
  | [] => return []
  | first :: rest => do
    let head ← numbered first
    let tail ← numberedAll rest
    return head :: tail

end

end Member

namespace SourceUnit

/-- The file and all of its parts with new numbers. -/
def numbered (unit : SourceUnit) : Numbering SourceUnit := do
  let id ← fresh
  let members ← Member.numberedAll unit.members
  return { unit with id, members }

end SourceUnit

end JupiterMigration
