import JupiterMigration.Tree.Node

/-!
# Edits that keep the layout

Removing a member or an annotation gives the white space before it to what follows where that keeps
the layout: at the head of a sequence, or where more blank lines would be lost otherwise.
-/

namespace JupiterMigration

namespace Member

/-- How many line feeds stand before a declaration. -/
def leadLines (member : Member) : Nat :=
  Text.count '\n' member.lead

/--
The declaration that follows a removed one.  It takes over the lead of the removed declaration at
the head of the sequence, and elsewhere where that has more line feeds.
-/
def following (atHead : Bool) (removed next : Member) : Member :=
  if atHead || next.leadLines < removed.leadLines then next.withLead removed.lead else next

/-- The declarations without the one at a position, its follower adjusted. -/
def removeAt (position : Nat) (members : List Member) : List Member :=
  match members.drop position with
  | removed :: next :: rest =>
    members.take position ++ following (position == 0) removed next :: rest
  | _ => members.take position

/-- A declaration taken out of a sequence. -/
structure Removal where
  removed : Member
  rest : List Member

/-- Takes out the declaration at a position, if there is one. -/
def remove? (position : Nat) (members : List Member) : Option Removal :=
  members[position]?.map fun removed => ⟨removed, removeAt position members⟩

/--
Takes out a declaration whose position is counted from the end, the last one being at one.  The
follower is then counted from the end as well: it is the declaration that afterwards has the same
position from the end, and there has to be one.
-/
def removeFromEnd? (position : Nat) (members : List Member) : Option Removal :=
  if position = 0 ∨ members.length ≤ position then none
  else
    let index := members.length - position
    match members[index]?, members[index - 1]? with
    | some removed, some previous =>
      some ⟨removed, members.take (index - 1) ++
        following false removed previous :: members.drop (index + 1)⟩
    | _, _ => none

end Member

/-- Annotations and the white space after them. -/
structure AnnotationList where
  annotations : List Annotation
  declLead : String

namespace AnnotationList

/--
Takes out the first annotation with a number.  What stands after it, the next annotation or the
declaration, takes over its lead.
-/
def erase (id : Nat) (declLead : String) : List Annotation → AnnotationList
  | [] => ⟨[], declLead⟩
  | [only] => if only.id = id then ⟨[], only.lead⟩ else ⟨[only], declLead⟩
  | first :: next :: rest =>
    if first.id = id then ⟨{ next with lead := first.lead } :: rest, declLead⟩
    else
      let others := erase id declLead (next :: rest)
      ⟨first :: others.annotations, others.declLead⟩

end AnnotationList

namespace Field

/-- The field without the annotation that has the given number. -/
def eraseAnnotation (id : Nat) (field : Field) : Field :=
  let list := AnnotationList.erase id field.declLead field.annotations
  { field with annotations := list.annotations, declLead := list.declLead }

end Field

namespace Method

/-- The method without the annotation that has the given number. -/
def eraseAnnotation (id : Nat) (method : Method) : Method :=
  let list := AnnotationList.erase id method.declLead method.annotations
  { method with annotations := list.annotations, declLead := list.declLead }

end Method

namespace ClassHead

/-- The class without the annotation that has the given number. -/
def eraseAnnotation (id : Nat) (head : ClassHead) : ClassHead :=
  let list := AnnotationList.erase id head.declLead head.annotations
  { head with annotations := list.annotations, declLead := list.declLead }

end ClassHead

namespace Member

/-- The declaration without the annotation that has the given number. -/
def eraseAnnotation (id : Nat) : Member → Member
  | field decl => field (decl.eraseAnnotation id)
  | method decl => method (decl.eraseAnnotation id)
  | classDecl head members => classDecl (head.eraseAnnotation id) members
  | member => member

end Member

namespace Node

/-- The declarations of a file or class; other nodes have none. -/
def members : Node → List Member
  | sourceUnit unit => unit.members
  | member (.classDecl _ members) => members
  | _ => []

/-- The file or class with other declarations; other nodes stay as they are. -/
def withMembers (members : List Member) : Node → Node
  | sourceUnit unit => sourceUnit { unit with members }
  | member (.classDecl head _) => member (.classDecl head members)
  | node => node

/-- The annotations before a declaration; other nodes have none. -/
def annotations : Node → List Annotation
  | member decl => decl.annotations
  | _ => []

/-- Takes out the declaration at a position, which is counted from the end if it is negative. -/
def removeMember? (index : Int) (node : Node) : Option (Node × Member) :=
  let removal :=
    if 0 ≤ index then Member.remove? index.toNat node.members
    else Member.removeFromEnd? (-index).toNat node.members
  removal.map fun removal => (node.withMembers removal.rest, removal.removed)

/-- Takes out the annotation at a position, which is counted from the end if it is negative. -/
def removeAnnotation? (index : Int) (node : Node) : Option (Node × Annotation) :=
  let position := if index < 0 then index + node.annotations.length else index
  match node with
  | member decl =>
    if position < 0 then none
    else decl.annotations[position.toNat]?.map fun use =>
      (member (decl.eraseAnnotation use.id), use)
  | _ => none

end Node

end JupiterMigration
