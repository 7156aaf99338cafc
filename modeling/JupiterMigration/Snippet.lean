import JupiterMigration.Java.Source
import JupiterMigration.Text.Quoted

/-!
# Snippets

A snippet is the text of a single member, statement or annotation.  It is read inside a class that
is made up around it, and has to hold exactly one node of the wanted kind.
-/

namespace JupiterMigration

/-- Why no node could be made from a template or snippet. -/
inductive SynthesisError where
  /-- The template has another number of placeholders than there are values. -/
  | valueCount (expected given : Nat) (template : String)
  /-- A value of this kind has no text in a program. -/
  | unbindable (kind : String)
  /-- The class around the snippet is not grammatical. -/
  | ungrammatical (reason : SyntaxError) (source : String)
  /-- The snippet leaves the class around it. -/
  | notOneDeclaration (source : String)
  | notOneMember (count : Nat) (snippet : String)
  | notOneStatement (count : Nat) (snippet : String)
  | noSingleMark (snippet : String)
  deriving DecidableEq, Repr

/-- The wording of a synthesis error. -/
def SynthesisError.message : SynthesisError → String
  | .valueCount expected given template =>
    "Template expects " ++ toString expected ++ " values, got " ++ toString given ++ ": " ++
      Text.quoted template
  | .unbindable kind => "Cannot bind value of type " ++ kind
  | .ungrammatical reason source => "Template does not parse: " ++ reason.message ++ "\n" ++ source
  | .notOneDeclaration source => "Template does not parse to a single declaration:\n" ++ source
  | .notOneMember count snippet =>
    "Expected exactly one member, got " ++ toString count ++ ": " ++ Text.quoted snippet
  | .notOneStatement count snippet =>
    "Expected exactly one statement, got " ++ toString count ++ ": " ++ Text.quoted snippet
  | .noSingleMark snippet => "Expected exactly one annotation: " ++ Text.quoted snippet

namespace Snippet

/-- The source of a class with the given text between its braces. -/
def inClass (body : String) : String :=
  "class __Synthesized__ \x7b\n" ++ body ++ "\n\x7d\n"

/-- The source of a method with the given text between its braces. -/
def inMethod (body : String) : String :=
  "void __synthesized__() \x7b\n" ++ body ++ "\n\x7d"

/-- The source of a method after the given text. -/
def beforeMethod (text : String) : String :=
  text ++ "\nvoid __synthesized__() \x7b\x7d"

/-- The members of the class around a snippet. -/
def readClass (source : String) : Except SynthesisError (List Member) :=
  match SourceUnit.read? source none with
  | none => .error (.ungrammatical .unreadable source)
  | some unit =>
    match unit.members.filterMap Member.class? with
    | [decl] => .ok decl.members
    | _ => .error (.notOneDeclaration source)

/-- The statements of a method. -/
def statementsOf : Member → List Statement
  | .method decl => (decl.body.map (·.statements)).getD []
  | _ => []

/-- The annotations of a method. -/
def annotationsOf : Member → List Annotation
  | .method decl => decl.annotations
  | _ => []

/-- The member that a snippet is, not yet numbered. -/
def readMember (snippet : String) : Except SynthesisError Member := do
  match ← readClass (inClass snippet) with
  | [member] => .ok member
  | members => .error (.notOneMember members.length snippet)

/-- The statement that a snippet is, not yet numbered. -/
def readStatement (snippet : String) : Except SynthesisError Statement := do
  let members ← readClass (inClass (inMethod snippet))
  match (members.head?.map statementsOf).getD [] with
  | [statement] => .ok statement
  | statements => .error (.notOneStatement statements.length snippet)

/-- The annotation that a snippet is, not yet numbered. -/
def readAnnotation (snippet : String) : Except SynthesisError Annotation := do
  match ← readClass (inClass (beforeMethod snippet)) with
  | [member] =>
    match annotationsOf member with
    | [use] => .ok use
    | _ => .error (.noSingleMark snippet)
  | _ => .error (.noSingleMark snippet)

end Snippet

end JupiterMigration
