import JupiterMigration.Proofs.Numbering
import JupiterMigration.Proofs.Renumbering.Tree

/-!
# Nodes without their numbers

Numbering a node and taking all numbers away again leaves the node without numbers
(`Member.unnumbered_numbered`).  What is found in a numbered tree is found in the tree before it was
numbered, apart from the numbers (`Member.exists_of_mem_walkAll_numberedAll`).
-/

namespace JupiterMigration

/-- The annotation without its number. -/
def Annotation.unnumbered (use : Annotation) : Annotation :=
  { use with id := 0 }

/-- The statement without its number. -/
def Statement.unnumbered (statement : Statement) : Statement :=
  { statement with id := 0 }

/-- What a statement says, whatever its number is and whatever stands before it. -/
def Statement.content (statement : Statement) : Statement :=
  { statement with id := 0, lead := "" }

/-- The parameter without its number. -/
def Parameter.unnumbered (parameter : Parameter) : Parameter :=
  { parameter with id := 0 }

/-- The block without the numbers in it. -/
def Block.unnumbered (block : Block) : Block :=
  { block with id := 0, statements := block.statements.map Statement.unnumbered }

/-- The field without the numbers in it. -/
def Field.unnumbered (field : Field) : Field :=
  { field with id := 0, annotations := field.annotations.map Annotation.unnumbered }

/-- The method without the numbers in it. -/
def Method.unnumbered (method : Method) : Method :=
  { method with
    id := 0
    annotations := method.annotations.map Annotation.unnumbered
    parameters := method.parameters.map Parameter.unnumbered
    body := method.body.map Block.unnumbered }

/-- The head of a class without the numbers in it. -/
def ClassHead.unnumbered (head : ClassHead) : ClassHead :=
  { head with id := 0, annotations := head.annotations.map Annotation.unnumbered }

namespace Member

mutual

/-- The declaration without the numbers in it. -/
def unnumbered : Member → Member
  | importDecl decl => importDecl { decl with id := 0 }
  | verbatim decl => verbatim { decl with id := 0 }
  | field decl => field decl.unnumbered
  | method decl => method decl.unnumbered
  | classDecl head members => classDecl head.unnumbered (unnumberedAll members)

/-- Some declarations without the numbers in them. -/
def unnumberedAll : List Member → List Member
  | [] => []
  | first :: rest => unnumbered first :: unnumberedAll rest

end

theorem unnumberedAll_eq_map (members : List Member) :
    unnumberedAll members = members.map unnumbered := by
  induction members with
  | nil => rfl
  | cons first rest inductionHypothesis =>
      rw [unnumberedAll, inductionHypothesis, List.map_cons]

end Member

/-- The file without the numbers in it. -/
def SourceUnit.unnumbered (unit : SourceUnit) : SourceUnit :=
  { unit with id := 0, members := Member.unnumberedAll unit.members }

/-- The node without the numbers in it. -/
def Node.unnumbered : Node → Node
  | sourceUnit unit => sourceUnit unit.unnumbered
  | member decl => member decl.unnumbered
  | annotationUse use => annotationUse use.unnumbered
  | parameter decl => parameter decl.unnumbered
  | block body => block body.unnumbered
  | statement decl => statement decl.unnumbered

/-! ## Numbering -/

theorem Block.unnumbered_numbered (block : Block) (next : Nat) :
    (block.numbered.run next).1.unnumbered = block.unnumbered := by
  have statements : ((numberAll Statement.numbered block.statements).run (next + 1)).1.map
      Statement.unnumbered = block.statements.map Statement.unnumbered :=
    map_numberAll (fun _ _ => rfl) _ _
  exact congrArg (fun inner => ({ block with id := 0, statements := inner } : Block)) statements

theorem Field.unnumbered_numbered (field : Field) (next : Nat) :
    (field.numbered.run next).1.unnumbered = field.unnumbered := by
  have annotations : ((numberAll Annotation.numbered field.annotations).run (next + 1)).1.map
      Annotation.unnumbered = field.annotations.map Annotation.unnumbered :=
    map_numberAll (fun _ _ => rfl) _ _
  exact congrArg (fun inner => ({ field with id := 0, annotations := inner } : Field)) annotations

theorem Method.unnumbered_numbered (method : Method) (next : Nat) :
    (method.numbered.run next).1.unnumbered = method.unnumbered := by
  obtain ⟨first, second, third, numbered_eq⟩ := method.numbered_run next
  have annotations : ((numberAll Annotation.numbered method.annotations).run first).1.map
      Annotation.unnumbered = method.annotations.map Annotation.unnumbered :=
    map_numberAll (fun _ _ => rfl) _ _
  have parameters : ((numberAll Parameter.numbered method.parameters).run second).1.map
      Parameter.unnumbered = method.parameters.map Parameter.unnumbered :=
    map_numberAll (fun _ _ => rfl) _ _
  rw [numbered_eq]
  unfold unnumbered
  simp only [annotations, parameters, Option.map_map, Function.comp_def,
    Block.unnumbered_numbered]

theorem ClassHead.unnumbered_numbered (head : ClassHead) (next : Nat) :
    (head.numbered.run next).1.unnumbered = head.unnumbered := by
  have annotations : ((numberAll Annotation.numbered head.annotations).run (next + 1)).1.map
      Annotation.unnumbered = head.annotations.map Annotation.unnumbered :=
    map_numberAll (fun _ _ => rfl) _ _
  exact congrArg (fun inner => ({ head with id := 0, annotations := inner } : ClassHead))
    annotations

namespace Member

mutual

theorem unnumbered_numbered (member : Member) (next : Nat) :
    (member.numbered.run next).1.unnumbered = member.unnumbered := by
  cases member with
  | importDecl decl | verbatim decl => rfl
  | field decl => exact congrArg field (decl.unnumbered_numbered next)
  | method decl => exact congrArg method (decl.unnumbered_numbered next)
  | classDecl head members =>
      rw [numbered_classDecl, unnumbered, unnumbered, head.unnumbered_numbered,
        unnumberedAll_numberedAll]

/-- Numbering changes nothing but numbers. -/
theorem unnumberedAll_numberedAll (members : List Member) (next : Nat) :
    unnumberedAll ((numberedAll members).run next).1 = unnumberedAll members := by
  cases members with
  | nil => rfl
  | cons first rest =>
      rw [numberedAll_cons, unnumberedAll, unnumberedAll, unnumbered_numbered,
        unnumberedAll_numberedAll]

end

end Member

/-! ## Walks -/

namespace Member

mutual

theorem unnumbered_eq (member : Member) : member.unnumbered = member.renumbered fun _ => 0 := by
  cases member with
  | classDecl head members =>
      rw [unnumbered, renumbered_classDecl, unnumberedAll_eq members]
      rfl
  | importDecl _ | verbatim _ | field _ | method _ => rfl

/-- Taking the numbers away gives every node the number zero. -/
theorem unnumberedAll_eq (members : List Member) :
    unnumberedAll members = members.map (renumbered fun _ => 0) := by
  cases members with
  | nil => rfl
  | cons first rest =>
      rw [unnumberedAll, unnumbered_eq first, unnumberedAll_eq rest, List.map_cons]

end

theorem walkAll_unnumberedAll (members : List Member) :
    walkAll (unnumberedAll members) = (walkAll members).map Node.unnumbered := by
  have node_eq (node : Node) : node.unnumbered = node.renumbered fun _ => 0 := by
    cases node with
    | sourceUnit unit =>
        rw [Node.unnumbered, SourceUnit.unnumbered, Node.renumbered, unnumberedAll_eq]
    | member decl => exact congrArg Node.member decl.unnumbered_eq
    | annotationUse _ | parameter _ | block _ | statement _ => rfl
  rw [unnumberedAll_eq, walkAll_renumbered]
  exact List.map_congr_left fun node _ => (node_eq node).symm

/-- A node of a numbered tree has been a node before, apart from the numbers. -/
theorem exists_of_mem_walkAll_numberedAll
    {members : List Member}
    {next : Nat}
    {node : Node}
    (inside : node ∈ walkAll ((numberedAll members).run next).1) :
    ∃ original ∈ walkAll members, original.unnumbered = node.unnumbered := by
  have erased : node.unnumbered ∈ (walkAll ((numberedAll members).run next).1).map
      Node.unnumbered := List.mem_map_of_mem inside
  rw [← walkAll_unnumberedAll, unnumberedAll_numberedAll, walkAll_unnumberedAll] at erased
  exact List.mem_map.mp erased

end Member

end JupiterMigration
