import JupiterMigration.Text.Blank
import JupiterMigration.Text.Search
import JupiterMigration.Tree.Names

/-!
# Declaration trees

A declaration tree shows of a Java file what a migration has to understand: imports, classes, their
annotations, fields and methods, and the statements of method bodies.  Everything else is kept as
verbatim text.

Every node owns the white space and comments before it, its lead, and prints the text it was read
from.  Nodes carry a number that tells them apart; it is kept when a node is changed and plays no
part in what is printed.
-/

namespace JupiterMigration

/-- What an expression is, as far as the migrations tell expressions apart. -/
inductive ExpressionForm where
  /-- An integer literal and its value. -/
  | integer (value : Nat)
  /-- A string literal or text block and what stands between its quotes. -/
  | string (content : String)
  /-- A class literal and the type it names. -/
  | classLiteral (type : String)
  /-- A method invocation and the name of the method. -/
  | call (method : String)
  /-- The creation of an object. -/
  | creation
  /-- A name or a member selected by name. -/
  | name
  /-- A sum or concatenation: the operator that binds loosest is a plus. -/
  | concatenation
  | other
  deriving DecidableEq, Repr

/-- An expression as verbatim text, with what is known about it. -/
structure Expression where
  text : String
  form : ExpressionForm
  references : Names
  deriving DecidableEq, Repr

/-- An argument of an annotation; a positional one has no key. -/
structure AnnotationArgument where
  key : Option String
  value : Expression
  deriving DecidableEq, Repr

/-- An annotation before a declaration. -/
structure Annotation where
  id : Nat
  lead : String
  text : String
  /-- The type name as written, without blanks. -/
  name : String
  arguments : List AnnotationArgument
  references : Names
  deriving DecidableEq, Repr

/-- A method invocation: the receiver as written, the method, and the arguments. -/
structure Call where
  target : Option String
  name : String
  arguments : List Expression
  deriving DecidableEq, Repr

/-- An import declaration. -/
structure Import where
  id : Nat
  lead : String
  text : String
  /-- The imported name; for an import on demand, the name before the star. -/
  name : String
  isStatic : Bool
  isWildcard : Bool
  deriving DecidableEq, Repr

/-- A declaration or statement whose inside is not looked at. -/
structure Verbatim where
  id : Nat
  lead : String
  text : String
  references : Names
  deriving DecidableEq, Repr

/-- A statement of a method body. -/
structure Statement where
  id : Nat
  lead : String
  text : String
  /-- The invocation, if the statement is a bare one. -/
  call : Option Call
  references : Names
  deriving DecidableEq, Repr

/-- A method body in braces. -/
structure Block where
  id : Nat
  lead : String
  statements : List Statement
  /-- The text between the last statement and the closing brace. -/
  closing : String
  deriving DecidableEq, Repr

/-- A formal parameter. -/
structure Parameter where
  id : Nat
  lead : String
  text : String
  type : String
  name : String
  /-- The text up to the next comma or the closing parenthesis. -/
  trail : String
  references : Names
  deriving DecidableEq, Repr

/-- A field declaration. -/
structure Field where
  id : Nat
  lead : String
  annotations : List Annotation
  /-- White space between the last annotation and the rest. -/
  declLead : String
  /-- What follows the annotations: modifiers, type, variables and semicolon. -/
  text : String
  type : String
  /-- The name of the first variable. -/
  name : String
  modifiers : List String
  variableCount : Nat
  references : Names
  deriving DecidableEq, Repr

/-- A method or constructor declaration; a constructor has no return type. -/
structure Method where
  id : Nat
  lead : String
  annotations : List Annotation
  /-- White space between the last annotation and the rest. -/
  declLead : String
  /-- The text before the return type, or before the name of a constructor. -/
  modifiers : String
  returnType : Option String
  /-- The text between the return type and the name. -/
  typeSpace : String
  name : String
  /-- The text between the name and the parameter list. -/
  nameSpace : String
  parameters : List Parameter
  /-- The text between the parentheses of an empty parameter list. -/
  emptySpace : String
  /-- The text between the parameter list and the body. -/
  throwsText : String
  body : Option Block
  references : Names
  deriving DecidableEq, Repr

/-- A class declaration without its members. -/
structure ClassHead where
  id : Nat
  lead : String
  annotations : List Annotation
  /-- White space between the last annotation and the rest. -/
  declLead : String
  /-- What follows the annotations, up to and with the opening brace. -/
  header : String
  name : String
  /-- The text between the last member and the closing brace. -/
  closing : String
  references : Names
  deriving DecidableEq, Repr

/-- A declaration of a file or of a class body. -/
inductive Member where
  | importDecl (decl : Import)
  | verbatim (decl : Verbatim)
  | field (decl : Field)
  | method (decl : Method)
  | classDecl (head : ClassHead) (members : List Member)

/-- A class declaration. -/
structure ClassDecl extends ClassHead where
  members : List Member

/-- A Java file. -/
structure SourceUnit where
  id : Nat
  lead : String
  members : List Member
  /-- The text after the last member. -/
  tail : String
  /-- Where the file comes from. -/
  path : Option String

/-- The text of some nodes in a row. -/
def printAll {α : Type} (print : α → String) (nodes : List α) : String :=
  String.join (nodes.map print)

/-- The text of a braced body after its opening brace. -/
def inBraces (inner closing : String) : String :=
  inner ++ closing ++ "\x7d"

namespace Expression

/-- The type that the expression names, if it is a class literal. -/
def classType? (expression : Expression) : Option String :=
  match expression.form with
  | .classLiteral type => some type
  | _ => none

end Expression

namespace Annotation

/-- The annotation with its lead. -/
def print (annotationUse : Annotation) : String :=
  annotationUse.lead ++ annotationUse.text

end Annotation

namespace Import

/-- The import with its lead. -/
def print (decl : Import) : String :=
  decl.lead ++ decl.text

end Import

namespace Verbatim

/-- The declaration with its lead. -/
def print (decl : Verbatim) : String :=
  decl.lead ++ decl.text

end Verbatim

namespace Statement

/-- The statement with its lead. -/
def print (statement : Statement) : String :=
  statement.lead ++ statement.text

end Statement

namespace Block

/-- The block without its lead. -/
def text (block : Block) : String :=
  "\x7b" ++ inBraces (printAll Statement.print block.statements) block.closing

/-- The block with its lead. -/
def print (block : Block) : String :=
  block.lead ++ block.text

end Block

namespace Parameter

/-- The parameter without its lead. -/
def body (parameter : Parameter) : String :=
  parameter.text ++ parameter.trail

/-- The parameter with its lead. -/
def print (parameter : Parameter) : String :=
  parameter.lead ++ parameter.body

end Parameter

namespace Field

/-- The field without its lead. -/
def body (field : Field) : String :=
  printAll Annotation.print field.annotations ++ field.declLead ++ field.text

/-- The field with its lead. -/
def print (field : Field) : String :=
  field.lead ++ field.body

end Field

namespace Method

/-- Whether the method is a constructor. -/
def isConstructor (method : Method) : Bool :=
  method.returnType.isNone

/-- The return type and the space after it. -/
def typeText (method : Method) : String :=
  match method.returnType with
  | some type => type ++ method.typeSpace
  | none => ""

/-- What stands between the parentheses. -/
def parameterText (method : Method) : String :=
  if method.parameters.isEmpty then method.emptySpace
  else ",".intercalate (method.parameters.map Parameter.print)

/-- The body, if there is one. -/
def bodyText (method : Method) : String :=
  match method.body with
  | some block => block.print
  | none => ""

/-- The method without its lead. -/
def text (method : Method) : String :=
  printAll Annotation.print method.annotations ++ method.declLead ++ method.modifiers ++
    method.typeText ++ method.name ++ method.nameSpace ++ "(" ++ method.parameterText ++ ")" ++
    method.throwsText ++ method.bodyText

/-- The method with its lead. -/
def print (method : Method) : String :=
  method.lead ++ method.text

end Method

namespace ClassHead

/-- The class up to its opening brace, without its lead. -/
def front (head : ClassHead) : String :=
  printAll Annotation.print head.annotations ++ head.declLead ++ head.header

end ClassHead

namespace Member

/-- White space and comments before the declaration. -/
def lead : Member → String
  | importDecl decl => decl.lead
  | verbatim decl => decl.lead
  | field decl => decl.lead
  | method decl => decl.lead
  | classDecl head _ => head.lead

mutual

/-- The declaration without its lead. -/
def text : Member → String
  | importDecl decl => decl.text
  | verbatim decl => decl.text
  | field decl => decl.body
  | method decl => decl.text
  | classDecl head members => head.front ++ inBraces (printMembers members) head.closing

/-- The declarations of a class body or file, each with its lead. -/
def printMembers : List Member → String
  | [] => ""
  | first :: rest => first.lead ++ first.text ++ printMembers rest

end

/-- The declaration with its lead. -/
def print (member : Member) : String :=
  member.lead ++ member.text

/-- The number that tells the declaration from others. -/
def id : Member → Nat
  | importDecl decl => decl.id
  | verbatim decl => decl.id
  | field decl => decl.id
  | method decl => decl.id
  | classDecl head _ => head.id

/-- The declaration after other white space and comments. -/
def withLead (lead : String) : Member → Member
  | importDecl decl => importDecl { decl with lead }
  | verbatim decl => verbatim { decl with lead }
  | field decl => field { decl with lead }
  | method decl => method { decl with lead }
  | classDecl head members => classDecl { head with lead } members

/-- The class that the declaration is, if it is one. -/
def class? : Member → Option ClassDecl
  | classDecl head members => some { head with members }
  | _ => none

/-- The field that the declaration is, if it is one. -/
def field? : Member → Option Field
  | field decl => some decl
  | _ => none

/-- The method that the declaration is, if it is one. -/
def method? : Member → Option Method
  | method decl => some decl
  | _ => none

/-- The import that the declaration is, if it is one. -/
def import? : Member → Option Import
  | importDecl decl => some decl
  | _ => none

@[simp]
theorem lead_withLead (lead : String) (member : Member) : (member.withLead lead).lead = lead := by
  cases member <;> rfl

@[simp]
theorem text_withLead (lead : String) (member : Member) :
    (member.withLead lead).text = member.text := by
  cases member <;> simp [withLead, text, Field.body, Method.text, Method.typeText,
    Method.parameterText, Method.bodyText, ClassHead.front]

@[simp]
theorem id_withLead (lead : String) (member : Member) : (member.withLead lead).id = member.id := by
  cases member <;> rfl

end Member

namespace ClassDecl

/-- The class as a declaration among others. -/
def toMember (decl : ClassDecl) : Member :=
  .classDecl decl.toClassHead decl.members

/-- The class with its lead. -/
def print (decl : ClassDecl) : String :=
  decl.toMember.print

/-- The methods and constructors of the class. -/
def methods (decl : ClassDecl) : List Method :=
  decl.members.filterMap Member.method?

end ClassDecl

namespace SourceUnit

/-- The whole file. -/
def print (unit : SourceUnit) : String :=
  unit.lead ++ Member.printMembers unit.members ++ unit.tail

/-- The import declarations in order. -/
def imports (unit : SourceUnit) : List Import :=
  unit.members.filterMap Member.import?

/-- The package that a declaration names, if it is kept verbatim and begins like a package. -/
def packageOf : Member → Option String
  | .verbatim decl =>
    if Text.beginsWith decl.text "package" then
      let name := Text.trim (String.ofList (decl.text.toList.drop "package".length))
      some (Text.trim (String.ofList (Text.dropTail (· == ';') name.toList)))
    else none
  | _ => none

/-- The package of the file, if it has one. -/
def package? (unit : SourceUnit) : Option String :=
  unit.members.findSome? packageOf

end SourceUnit

end JupiterMigration
