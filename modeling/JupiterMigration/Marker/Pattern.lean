import JupiterMigration.Text.Quoted
import JupiterMigration.Text.Word
import JupiterMigration.TypeScope

/-!
# Annotation patterns

A pattern describes annotations by the type they denote, however that type is spelled, and may ask
for a class literal as their value.  Patterns are written as signatures: an at sign and a qualified
name, optionally followed by a class literal between parentheses.
-/

namespace JupiterMigration

namespace Annotation

/-- The simple name of the annotation type. -/
def simpleName (use : Annotation) : String :=
  Text.afterLastDot use.name

/-- Whether an argument gives the element with a key; an argument without a key gives `value`. -/
def givesElement (key : String) (argument : AnnotationArgument) : Bool :=
  argument.key == some key || (argument.key.isNone && key == "value")

/-- The expression for an element of the annotation, if there is one. -/
def element? (key : String) (use : Annotation) : Option Expression :=
  (use.arguments.find? (givesElement key)).map (·.value)

end Annotation

/-- A description of annotations by qualified names. -/
structure AnnotationPattern where
  /-- The annotation type. -/
  typeName : String
  /-- The type whose class literal the value has to be, if any. -/
  classArgument : Option String
  deriving DecidableEq, Repr

/-- Why a text is no signature of a pattern. -/
inductive SignatureError where
  | malformed (signature : String)
  deriving DecidableEq, Repr

/-- The wording of a signature error. -/
def SignatureError.message : SignatureError → String
  | .malformed signature => "Invalid annotation signature: " ++ Text.quoted signature

namespace AnnotationPattern

/-- A character of a qualified name in a signature. -/
def isNameChar (c : Char) : Bool :=
  Text.isWordChar c || c == '$' || c == '.'

/-- The end of a class literal. -/
def classSuffix : List Char := ".class".toList

/-- The type that a class literal names; the name may not be empty. -/
def literalType? (literal : List Char) : Option (List Char) :=
  let type := literal.take (literal.length - classSuffix.length)
  if type ≠ [] ∧ literal = type ++ classSuffix then some type else none

/-- The type of a class literal between parentheses, with blanks around it. -/
def argumentType? : List Char → Option (List Char)
  | '(' :: rest =>
    let inner := rest.dropWhile Text.isBlank
    let closing := (inner.dropWhile isNameChar).dropWhile Text.isBlank
    if closing = [')'] then literalType? (inner.takeWhile isNameChar) else none
  | _ => none

/-- The pattern of a signature without blanks at its ends. -/
def ofTrimmed? : List Char → Option AnnotationPattern
  | '@' :: rest =>
    let name := rest.takeWhile isNameChar
    let after := rest.dropWhile isNameChar
    if name.isEmpty then none
    else if after.isEmpty then some ⟨String.ofList name, none⟩
    else (argumentType? after).map fun type => ⟨String.ofList name, some (String.ofList type)⟩
  | _ => none

/-- The pattern that a signature describes. -/
def parse (signature : String) : Except SignatureError AnnotationPattern :=
  match ofTrimmed? (Text.trim signature).toList with
  | some pattern => .ok pattern
  | none => .error (.malformed signature)

/-- The simple name of the annotation type. -/
def simpleName (pattern : AnnotationPattern) : String :=
  Text.afterLastDot pattern.typeName

/-- The signature of a pattern; a class without a name is left out. -/
def signature (pattern : AnnotationPattern) : String :=
  match pattern.classArgument.filter (!·.isEmpty) with
  | some type => "@" ++ pattern.typeName ++ "(" ++ type ++ ".class)"
  | none => "@" ++ pattern.typeName

/-- Whether an expression is a class literal that may denote a type. -/
def isLiteralOf (scope : TypeScope) (type : String) (value : Expression) : Bool :=
  value.classType?.any fun name => scope.mayDenote name type

/-- Whether the pattern describes an annotation. -/
def describes (pattern : AnnotationPattern) (scope : TypeScope) (use : Annotation) : Bool :=
  scope.mayDenote use.name pattern.typeName &&
    pattern.classArgument.all fun type => (use.element? "value").any (isLiteralOf scope type)

end AnnotationPattern

end JupiterMigration
