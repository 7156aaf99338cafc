import JupiterMigration.Tree.Basic

/-!
# Nodes of every kind

`Node` is the sum of all kinds of nodes.  A node has children in source order, and `walk` lists a
node and everything below it, each node before its children.  The expressions among the arguments
of annotations and calls are not nodes.
-/

namespace JupiterMigration

/-- The kinds of nodes. -/
inductive NodeKind where
  | sourceUnit
  | importDecl
  | verbatim
  | classDecl
  | annotationUse
  | field
  | method
  | parameter
  | block
  | statement
  deriving DecidableEq, Repr

/-- A node of any kind. -/
inductive Node where
  | sourceUnit (unit : SourceUnit)
  | member (member : Member)
  | annotationUse (use : Annotation)
  | parameter (parameter : Parameter)
  | block (block : Block)
  | statement (statement : Statement)

namespace Member

/-- The kind of a declaration. -/
def kind : Member → NodeKind
  | importDecl _ => .importDecl
  | verbatim _ => .verbatim
  | field _ => .field
  | method _ => .method
  | classDecl .. => .classDecl

/-- The name of a declaration, if its kind has names. -/
def name? : Member → Option String
  | importDecl decl => some decl.name
  | verbatim _ => none
  | field decl => some decl.name
  | method decl => some decl.name
  | classDecl head _ => some head.name

/-- The annotations before a declaration. -/
def annotations : Member → List Annotation
  | importDecl _ => []
  | verbatim _ => []
  | field decl => decl.annotations
  | method decl => decl.annotations
  | classDecl head _ => head.annotations

end Member

namespace Block

/-- The block and its statements. -/
def walk (block : Block) : List Node :=
  .block block :: block.statements.map .statement

end Block

namespace Method

/-- The nodes below a method. -/
def walkBelow (method : Method) : List Node :=
  method.annotations.map .annotationUse ++ method.parameters.map .parameter ++
    (match method.body with
      | some block => block.walk
      | none => [])

end Method

namespace Member

mutual

/-- The declaration and everything below it. -/
def walk : Member → List Node
  | importDecl decl => [.member (importDecl decl)]
  | verbatim decl => [.member (verbatim decl)]
  | field decl => .member (field decl) :: decl.annotations.map .annotationUse
  | method decl => .member (method decl) :: decl.walkBelow
  | classDecl head members =>
    .member (classDecl head members) :: (head.annotations.map .annotationUse ++ walkAll members)

/-- Some declarations, each followed by everything below it. -/
def walkAll : List Member → List Node
  | [] => []
  | first :: rest => walk first ++ walkAll rest

end

end Member

namespace SourceUnit

/-- The file and everything in it. -/
def walk (unit : SourceUnit) : List Node :=
  .sourceUnit unit :: Member.walkAll unit.members

/-- The classes of a file, enclosing ones before those they enclose. -/
def classes (unit : SourceUnit) : List ClassDecl :=
  unit.walk.filterMap fun node =>
    match node with
    | .member member => member.class?
    | _ => none

end SourceUnit

namespace Node

/-- The kind of a node. -/
def kind : Node → NodeKind
  | sourceUnit _ => .sourceUnit
  | member decl => decl.kind
  | annotationUse _ => .annotationUse
  | parameter _ => .parameter
  | block _ => .block
  | statement _ => .statement

/-- The name of a node, if its kind has names. -/
def name? : Node → Option String
  | sourceUnit _ => none
  | member decl => decl.name?
  | annotationUse use => some use.name
  | parameter decl => some decl.name
  | block _ => none
  | statement _ => none

/-- The number that tells the node from others. -/
def id : Node → Nat
  | sourceUnit unit => unit.id
  | member decl => decl.id
  | annotationUse use => use.id
  | parameter decl => decl.id
  | block body => body.id
  | statement step => step.id

/-- White space and comments before the node. -/
def lead : Node → String
  | sourceUnit unit => unit.lead
  | member decl => decl.lead
  | annotationUse use => use.lead
  | parameter decl => decl.lead
  | block body => body.lead
  | statement step => step.lead

/-- The node without its lead. -/
def text : Node → String
  | sourceUnit unit => Member.printMembers unit.members ++ unit.tail
  | member decl => decl.text
  | annotationUse use => use.text
  | parameter decl => decl.body
  | block body => body.text
  | statement step => step.text

/-- The node with its lead. -/
def print (node : Node) : String :=
  node.lead ++ node.text

/-- The node after other white space and comments. -/
def withLead (lead : String) : Node → Node
  | sourceUnit unit => sourceUnit { unit with lead }
  | member decl => member (decl.withLead lead)
  | annotationUse use => annotationUse { use with lead }
  | parameter decl => parameter { decl with lead }
  | block body => block { body with lead }
  | statement step => statement { step with lead }

/-- The names that the node itself mentions, apart from those of its children. -/
def references : Node → Names
  | sourceUnit _ => []
  | member (.importDecl _) => []
  | member (.verbatim decl) => decl.references
  | member (.field decl) => decl.references
  | member (.method decl) => decl.references
  | member (.classDecl head _) => head.references
  | annotationUse use => use.references
  | parameter decl => decl.references
  | block _ => []
  | statement step => step.references

/-- The children of a node in source order. -/
def children : Node → List Node
  | sourceUnit unit => unit.members.map .member
  | member (.method decl) =>
    decl.annotations.map .annotationUse ++ decl.parameters.map .parameter ++
      decl.body.toList.map .block
  | member (.classDecl head members) =>
    head.annotations.map .annotationUse ++ members.map .member
  | member decl => decl.annotations.map .annotationUse
  | block body => body.statements.map .statement
  | annotationUse _ => []
  | parameter _ => []
  | statement _ => []

/-- The node and everything below it. -/
def walk : Node → List Node
  | sourceUnit unit => unit.walk
  | member decl => decl.walk
  | block body => body.walk
  | node => [node]

end Node

end JupiterMigration
