import JupiterMigration.Tree.Node

/-!
# Traversals

A visitor looks at the nodes of a tree: it enters a node before its children, may decline the
children, and leaves the node after them.

An editor does the same and says what becomes of each node it leaves.  `Edit.keep` means that the
very node is kept; a node is rebuilt only if something below it was replaced or removed.  A method
cannot do without the body it has: an editor that may remove bodies stops there (`Editor.refusing`).

Both carry the enclosing nodes along, the innermost first, and both run in any monad.
-/

namespace JupiterMigration

/-- What becomes of a node. -/
inductive Edit (α : Type) where
  | keep
  | replace (node : α)
  | remove
  deriving DecidableEq, Repr

namespace Edit

/-- The node that an edit leaves in place of the given one, if any. -/
def apply {α : Type} (node : α) : Edit α → Option α
  | keep => some node
  | replace other => some other
  | remove => none

/-- The edit that stands for an update, if there was one. -/
def ofUpdate {α : Type} : Option α → Edit α
  | some node => replace node
  | none => keep

/-- The edit after which another one has been decided on the outcome. -/
def after {α : Type} (update : Option α) : Edit α → Edit α
  | keep => ofUpdate update
  | replace node => replace node
  | remove => remove

end Edit

/-- Why an edit stops. -/
inductive Refusal where
  /-- The body of a method was removed. -/
  | body
  deriving DecidableEq, Repr

/-- The wording of a refusal. -/
def Refusal.message : Refusal → String
  | body => "Cannot remove required child 'body' of MethodNode"

/-- What an edit leaves in place of a body, if not the body itself. -/
def Edit.required {α : Type} : Edit α → Except Refusal (Option α)
  | keep => .ok none
  | replace node => .ok (some node)
  | remove => .error .body

/-- The hooks of a visitor; the enclosing nodes come first, the innermost at the head. -/
structure Visitor (m : Type → Type) where
  /-- Called before the children; false declines them. -/
  enter : List Node → Node → m Bool
  /-- Called after the children. -/
  leave : List Node → Node → m Unit

namespace Visitor

variable {m : Type → Type} [Monad m]

/-- Enters a node, visits its children, and leaves it. -/
def around (visitor : Visitor m) (above : List Node) (node : Node)
    (visitChildren : List Node → m Unit) : m Unit := do
  if ← visitor.enter above node then
    visitChildren (node :: above)
  visitor.leave above node

/-- Visits a node that has no children. -/
def visitLeaf (visitor : Visitor m) (above : List Node) (node : Node) : m Unit :=
  visitor.around above node fun _ => pure ()

/-- Visits a block and its statements. -/
def visitBlock (visitor : Visitor m) (above : List Node) (block : Block) : m Unit :=
  visitor.around above (.block block) fun inner =>
    block.statements.forM fun statement => visitor.visitLeaf inner (.statement statement)

/-- Visits annotations. -/
def visitAnnotations (visitor : Visitor m) (above : List Node) (uses : List Annotation) : m Unit :=
  uses.forM fun use => visitor.visitLeaf above (.annotationUse use)

/-- Visits the children of a method. -/
def visitInMethod (visitor : Visitor m) (method : Method) (above : List Node) : m Unit := do
  visitor.visitAnnotations above method.annotations
  method.parameters.forM fun parameter => visitor.visitLeaf above (.parameter parameter)
  match method.body with
  | some block => visitor.visitBlock above block
  | none => pure ()

mutual

/-- Visits a declaration and everything below it. -/
def visitMember (visitor : Visitor m) (above : List Node) : Member → m Unit
  | .importDecl decl => visitor.visitLeaf above (.member (.importDecl decl))
  | .verbatim decl => visitor.visitLeaf above (.member (.verbatim decl))
  | .field decl =>
    visitor.around above (.member (.field decl)) fun inner =>
      visitor.visitAnnotations inner decl.annotations
  | .method decl =>
    visitor.around above (.member (.method decl)) (visitor.visitInMethod decl)
  | .classDecl head members =>
    visitor.around above (.member (.classDecl head members)) fun inner => do
      visitor.visitAnnotations inner head.annotations
      visitMembers visitor inner members

/-- Visits some declarations one after the other. -/
def visitMembers (visitor : Visitor m) (above : List Node) : List Member → m Unit
  | [] => pure ()
  | first :: rest => do
    visitMember visitor above first
    visitMembers visitor above rest

end

/-- Visits a whole file. -/
def visit (visitor : Visitor m) (unit : SourceUnit) : m Unit :=
  visitor.around [] (.sourceUnit unit) fun inner => visitor.visitMembers inner unit.members

end Visitor

/-- The innermost class among enclosing nodes. -/
def nearestClass? (above : List Node) : Option ClassDecl :=
  above.findSome? fun node =>
    match node with
    | .member member => member.class?
    | _ => none

/-- A node that is left by an editor. -/
structure Leaving (α : Type) where
  /-- The enclosing nodes, the innermost first. -/
  above : List Node
  /-- The node as it was entered. -/
  entered : α
  /-- The node rebuilt from edited children, if anything below it changed. -/
  update : Option α

/-- The node as it is when it is left. -/
def Leaving.current {α : Type} (leaving : Leaving α) : α :=
  leaving.update.getD leaving.entered

/-- The hooks of an editor. -/
structure Editor (m : Type → Type) where
  /-- Called before the children; false declines them. -/
  enter : List Node → Node → m Bool
  leaveUnit : Leaving SourceUnit → m (Edit SourceUnit)
  leaveMember : Leaving Member → m (Edit Member)
  leaveAnnotation : Leaving Annotation → m (Edit Annotation)
  leaveParameter : Leaving Parameter → m (Edit Parameter)
  /-- A body cannot be removed: another body, or nothing if it is kept. -/
  leaveBlock : Leaving Block → m (Option Block)
  leaveStatement : Leaving Statement → m (Edit Statement)

namespace Editor

variable {m : Type → Type} [Monad m]

/-- The editor that enters and keeps every node. -/
def identity : Editor m where
  enter _ _ := pure true
  leaveUnit _ := pure .keep
  leaveMember _ := pure .keep
  leaveAnnotation _ := pure .keep
  leaveParameter _ := pure .keep
  leaveBlock _ := pure none
  leaveStatement _ := pure .keep

/-- An editor with a hook for bodies like those for other nodes, which stops at a removed body. -/
def refusing (editor : Editor m) (leaveBlock : Leaving Block → m (Edit Block)) :
    Editor (ExceptT Refusal m) where
  enter above node := editor.enter above node
  leaveUnit leaving := editor.leaveUnit leaving
  leaveMember leaving := editor.leaveMember leaving
  leaveAnnotation leaving := editor.leaveAnnotation leaving
  leaveParameter leaving := editor.leaveParameter leaving
  leaveBlock leaving := ExceptT.mk (Edit.required <$> leaveBlock leaving)
  leaveStatement leaving := editor.leaveStatement leaving

/-- The list after its first element was edited and the rest updated; nothing if all was kept. -/
def combine {α : Type} (first : α) (rest : List α) :
    Edit α → Option (List α) → Option (List α)
  | .keep, none => none
  | .keep, some others => some (first :: others)
  | .replace other, others => some (other :: others.getD rest)
  | .remove, others => some (others.getD rest)

/-- Edits the elements of a list; nothing if all were kept. -/
def editList {α : Type} (edit : α → m (Edit α)) : List α → m (Option (List α))
  | [] => pure none
  | first :: rest => do
    let head ← edit first
    let others ← editList edit rest
    return combine first rest head others

/-- Enters a node, and edits its children unless they are declined. -/
def inside {α : Type} (editor : Editor m) (above : List Node) (node : Node)
    (editChildren : List Node → m (Option α)) : m (Option α) := do
  if ← editor.enter above node then editChildren (node :: above) else pure none

/-- Edits a statement. -/
def editStatement (editor : Editor m) (above : List Node) (statement : Statement) :
    m (Edit Statement) := do
  let update ← editor.inside above (.statement statement) fun _ => pure none
  return .after update (← editor.leaveStatement ⟨above, statement, update⟩)

/-- Edits an annotation. -/
def editAnnotation (editor : Editor m) (above : List Node) (use : Annotation) :
    m (Edit Annotation) := do
  let update ← editor.inside above (.annotationUse use) fun _ => pure none
  return .after update (← editor.leaveAnnotation ⟨above, use, update⟩)

/-- Edits a parameter. -/
def editParameter (editor : Editor m) (above : List Node) (parameter : Parameter) :
    m (Edit Parameter) := do
  let update ← editor.inside above (.parameter parameter) fun _ => pure none
  return .after update (← editor.leaveParameter ⟨above, parameter, update⟩)

/-- Edits a body; nothing if it was kept. -/
def editBlock (editor : Editor m) (above : List Node) (block : Block) :
    m (Option Block) := do
  let update ← editor.inside above (.block block) fun inner => do
    let statements ← editList (editor.editStatement inner) block.statements
    return statements.map fun statements => { block with statements }
  return (← editor.leaveBlock ⟨above, block, update⟩).or update

/-- Edits annotations; nothing if all were kept. -/
def editAnnotations (editor : Editor m) (above : List Node) (uses : List Annotation) :
    m (Option (List Annotation)) :=
  editList (editor.editAnnotation above) uses

/-- Edits the children of a method; nothing if all were kept. -/
def editInMethod (editor : Editor m) (method : Method) (above : List Node) :
    m (Option Method) := do
  let annotations ← editor.editAnnotations above method.annotations
  let parameters ← editList (editor.editParameter above) method.parameters
  let body ←
    match method.body with
    | some block => editor.editBlock above block
    | none => pure none
  if annotations.isNone && parameters.isNone && body.isNone then return none
  return some { method with
    annotations := annotations.getD method.annotations
    parameters := parameters.getD method.parameters
    body := body.or method.body }

mutual

/-- Edits a declaration and everything below it. -/
def editMember (editor : Editor m) (above : List Node) : Member → m (Edit Member)
  | .importDecl decl => do
    let update ← editor.inside above (.member (.importDecl decl)) fun _ => pure none
    return .after update (← editor.leaveMember ⟨above, .importDecl decl, update⟩)
  | .verbatim decl => do
    let update ← editor.inside above (.member (.verbatim decl)) fun _ => pure none
    return .after update (← editor.leaveMember ⟨above, .verbatim decl, update⟩)
  | .field decl => do
    let update ← editor.inside above (.member (.field decl)) fun inner => do
      let annotations ← editor.editAnnotations inner decl.annotations
      return annotations.map fun annotations => .field { decl with annotations }
    return .after update (← editor.leaveMember ⟨above, .field decl, update⟩)
  | .method decl => do
    let update ← editor.inside above (.member (.method decl)) fun inner => do
      return (← editor.editInMethod decl inner).map .method
    return .after update (← editor.leaveMember ⟨above, .method decl, update⟩)
  | .classDecl head members => do
    let update ← editor.inside above (.member (.classDecl head members)) fun inner => do
      let annotations ← editor.editAnnotations inner head.annotations
      let others ← editMembers editor inner members
      if annotations.isNone && others.isNone then return none
      return some (.classDecl { head with annotations := annotations.getD head.annotations }
        (others.getD members))
    return .after update (← editor.leaveMember ⟨above, .classDecl head members, update⟩)

/-- Edits some declarations; nothing if all were kept. -/
def editMembers (editor : Editor m) (above : List Node) :
    List Member → m (Option (List Member))
  | [] => pure none
  | first :: rest => do
    let head ← editMember editor above first
    let others ← editMembers editor above rest
    return combine first rest head others

end

/-- Edits a whole file. -/
def edit (editor : Editor m) (unit : SourceUnit) : m (Edit SourceUnit) := do
  let update ← editor.inside [] (.sourceUnit unit) fun inner => do
    let members ← editor.editMembers inner unit.members
    return members.map fun members => { unit with members }
  return .after update (← editor.leaveUnit ⟨[], unit, update⟩)

end Editor

end JupiterMigration
