import JupiterMigration.Java.Numeral
import JupiterMigration.Java.Phrase
import JupiterMigration.Text.Blank
import JupiterMigration.Text.Search
import JupiterMigration.Tree.Basic

/-!
# From phrases to declaration trees

Each declaration cuts the source of its phrase into the pieces that the tree keeps.  A phrase that
does not have the expected parts is kept verbatim, so that a member prints the source of its phrase
whatever the phrase is.

The nodes made here are not yet told apart: all of them have the number zero.
-/

namespace JupiterMigration.Java

open JupiterMigration.Text

/-- The text without blanks that names a type or package. -/
def nameText (phrase : Phrase) : String :=
  deleteBlanks phrase.text

/-- The names in some phrases. -/
def namesIn (phrases : List Phrase) : Names :=
  Names.ofList (Phrase.namesOfAll (fun _ => false) phrases)

/-- The names in some phrases, except those in parts with the given labels. -/
def namesOutside (labels : List Label) (phrases : List Phrase) : Names :=
  Names.ofList (Phrase.namesOfAll labels.contains phrases)

/-- The text without a number of characters at both ends. -/
def strip (count : Nat) (text : String) : String :=
  let inner := text.toList.drop count
  String.ofList (inner.take (inner.length - count))

/-- What stands between the quotes of a string literal or text block. -/
def stringContent (text : String) : String :=
  if beginsWith text "\"\"\"" then strip 3 text else strip 1 text

namespace Expression

/-- The forms of the tokens that are expressions by themselves. -/
def formOfToken (isName : Bool) (token : Token) : ExpressionForm :=
  match token.kind with
  | .integer radix =>
    match Numeral.value? radix token.text.toList with
    | some value => .integer value
    | none => .other
  | .string => .string (stringContent token.text)
  | .word => if isName then .name else .other
  | _ => .other

/-- The name of the method that an invocation calls. -/
def calledName (parts : List Phrase) : String :=
  (parts.findSome? fun part =>
    match part with
    | .leaf true token => some token.text
    | _ => none).getD ""

/-- The form of the last link in a chain of selections. -/
def formOfLink : Phrase → ExpressionForm
  | .leaf isName token => formOfToken isName token
  | .node label parts =>
    match label with
    | .string => .string (stringContent (Phrase.textOfAll parts))
    | .classLiteral => .classLiteral ((parts.head?.map Phrase.text).getD "")
    | .call => .call (calledName parts)
    | .creation => .creation
    | .selection => .name
    | _ => .other

/-- How tightly a binary operator binds. -/
def tightness (operator : String) : Nat :=
  if operator = "||" then 4
  else if operator = "&&" then 5
  else if operator = "|" then 6
  else if operator = "^" then 7
  else if operator = "&" then 8
  else if operator = "==" || operator = "!=" then 9
  else if operator = "<" || operator = "<=" || operator = ">" || operator = ">=" then 10
  else if operator = "<<" || operator = ">>" || operator = ">>>" then 11
  else if operator = "+" || operator = "-" then 12
  else 13

/-- The operator that binds loosest, of equally loose ones the last. -/
def loosest (first : String) : List String → String
  | [] => first
  | next :: rest =>
    if tightness next ≤ tightness first then loosest next rest else loosest first rest

/-- The form of an operand followed by operators and operands. -/
def formOfRow (continuations : List Phrase) : ExpressionForm :=
  if continuations.any fun part => part.isA .conditional || part.isA .typeTest then .other
  else
    match (continuations.filter (·.isA .operator)).map Phrase.text with
    | [] => .other
    | first :: rest => if loosest first rest = "+" then .concatenation else .other

/-- The form of an expression or of another value of an annotation. -/
def formOf : Phrase → ExpressionForm
  | .node .expression [.node .primary links] =>
    match links.getLast? with
    | some last => formOfLink last
    | none => .other
  | .node .expression (_ :: continuation :: continuations) =>
    formOfRow (continuation :: continuations)
  | _ => .other

/-- The expression that a phrase is. -/
def ofPhrase (phrase : Phrase) : JupiterMigration.Expression :=
  { text := phrase.text, form := formOf phrase, references := namesIn [phrase] }

end Expression

/-- The phrases among the parts, without the tokens. -/
def phrasesAmong (parts : List Phrase) : List Phrase :=
  parts.filter fun part => part.label?.isSome

namespace Annotation

/-- The argument that a part of an argument list is. -/
def argumentOf : Phrase → AnnotationArgument
  | .node .pair (key :: _ :: value :: _) => ⟨some key.text, Expression.ofPhrase value⟩
  | phrase => ⟨none, Expression.ofPhrase phrase⟩

/-- The annotation that a phrase is. -/
def ofPhrase (lead : String) (phrase : Phrase) : JupiterMigration.Annotation where
  id := 0
  lead := lead
  text := phrase.text
  name := ((phrase.parts.find? (·.isA .qualifiedName)).map nameText).getD ""
  arguments :=
    match phrase.parts.find? (·.isA .arguments) with
    | some list => (phrasesAmong list.parts).map argumentOf
    | none => []
  references := namesIn [phrase]

/-- The annotations at the beginning of a declaration: the first one has the declaration's lead. -/
def leading : List Phrase → List JupiterMigration.Annotation
  | [] => []
  | first :: rest => ofPhrase "" first :: rest.map fun phrase => ofPhrase phrase.gap phrase

end Annotation

namespace Call

/-- The receiver of a selected call: everything before its dot. -/
def targetOf (front : List Phrase) : Option String :=
  if front.isEmpty then none else some (Phrase.textOfAll front)

/-- The invocation that an expression is, if it is nothing else. -/
def ofExpression? : Phrase → Option JupiterMigration.Call
  | .node .expression [.node .primary links] =>
    match links.getLast? with
    | some (.node .call parts) =>
      some {
        target := targetOf links.dropLast
        name := Expression.calledName parts
        arguments :=
          match parts.getLast? with
          | some list => (phrasesAmong list.parts).map Expression.ofPhrase
          | none => [] }
    | _ => none
  | _ => none

/-- The invocation that a statement is, if it is nothing else. -/
def ofStatement? : Phrase → Option JupiterMigration.Call
  | .node .expressionStatement (expression :: _) => ofExpression? expression
  | _ => none

end Call

/-- The statement that a phrase is. -/
def Statement.ofPhrase (phrase : Phrase) : JupiterMigration.Statement where
  id := 0
  lead := phrase.gap
  text := phrase.text
  call := Call.ofStatement? phrase
  references := namesIn [phrase]

/-- The declaration of a phrase whose inside is not looked at. -/
def Verbatim.ofPhrase (phrase : Phrase) : JupiterMigration.Verbatim where
  id := 0
  lead := phrase.gap
  text := phrase.text
  references := namesIn [phrase]

/-- The parts of a bracketed phrase: the opening token, what is inside, and the closing token. -/
structure Bracketed where
  opening : Token
  inner : List Phrase
  closing : Token

/-- Takes a bracketed phrase apart, if its first and last parts are the given tokens. -/
def bracketed? (opening closing : String) : List Phrase → Option Bracketed
  | .leaf _ first :: rest =>
    match rest.getLast? with
    | some (.leaf _ last) =>
      if first.text = opening ∧ last.text = closing then some ⟨first, rest.dropLast, last⟩
      else none
    | _ => none
  | _ => none

/-- The body of a method. -/
def Block.ofBraced (body : Bracketed) : JupiterMigration.Block where
  id := 0
  lead := ""
  statements := body.inner.map Statement.ofPhrase
  closing := body.closing.gap

namespace Parameter

/-- The first comment in the white space and comments before a token. -/
def commentIn (gap : String) : Option String :=
  let comment := gap.toList.dropWhile isSpace
  match comment with
  | '/' :: '/' :: _ => some (String.ofList (comment.takeWhile (· != '\n')))
  | '/' :: '*' :: rest =>
    match splitOn (String.ofList rest) "*/" with
    | inner :: _ :: _ => some ("/*" ++ inner ++ "*/")
    | _ => none
  | _ => none

/--
The type of a parameter.  Where a variable number of arguments is declared, a comment between the
modifiers and the type stands for it.
-/
def typeOf (phrase : Phrase) : String :=
  if phrase.isA .receiver then (phrase.parts.head?.map Phrase.text).getD ""
  else
    match phrase.parts.find? (·.isA .type) with
    | none => ""
    | some type =>
      let isVariable := phrase.parts.any (·.isA .declarator)
      let modified := phrase.parts.any (·.isA .modifiers)
      if isVariable && modified then (commentIn type.gap).getD type.text else type.text

/-- The first token after the type, or of the declarator. -/
def nameAfterType (parts : List Phrase) : String :=
  match (parts.dropWhile (!·.isA .type)).drop 1 with
  | [] => ""
  | first :: rest =>
    match (first :: rest).find? (·.isA .declarator) with
    | some declarator => ((declarator.tokens.head?).map Token.text).getD ""
    | none => first.text

/-- The name of a parameter; of a receiver, the last word of its text. -/
def nameOf (phrase : Phrase) : String :=
  if phrase.isA .receiver then (words phrase.text).getLastD "" else nameAfterType phrase.parts

/-- The parameter that a phrase is, with the gap after it. -/
def ofPhrase (phrase : Phrase) (trail : String) : JupiterMigration.Parameter where
  id := 0
  lead := phrase.gap
  text := phrase.text
  type := typeOf phrase
  name := nameOf phrase
  trail := trail
  references := namesIn [phrase]

/-- The parameters of a list: parameters and commas in turn, up to the closing token. -/
def ofList (closing : Token) : List Phrase → Option (List JupiterMigration.Parameter)
  | [] => some []
  | [last] => some [ofPhrase last closing.gap]
  | phrase :: .leaf _ separator :: rest =>
    if separator.text = "," ∧ rest ≠ [] then
      (ofList closing rest).map (ofPhrase phrase separator.gap :: ·)
    else none
  | _ => none

end Parameter

/-- A declaration taken apart: leading annotations, and all that follows them. -/
structure Declared where
  annotations : List Phrase
  rest : List Phrase

/-- The leading annotations of a declaration are those before any other modifier. -/
def declared : List Phrase → Declared
  | .node .modifiers modifiers :: rest =>
    ⟨modifiers.takeWhile (·.isA .annotationUse), modifiers.dropWhile (·.isA .annotationUse) ++ rest⟩
  | parts => ⟨[], parts⟩

namespace Declared

/--
The text after the leading annotations: with the gap after the last of them, or, if there are none,
without the gap that is the declaration's lead.
-/
def textAfter (decl : Declared) (tokens : List Token) : String :=
  if decl.annotations.isEmpty then textOf tokens else sourceOf tokens

/-- The gap of a token that stands after other tokens of the declaration. -/
def gapAfter (decl : Declared) (tokens : List Token) (gap : String) : String :=
  if decl.annotations.isEmpty && tokens.isEmpty then "" else gap

end Declared

/-- The keywords among the modifiers of a declaration. -/
def keywordsOf : List Phrase → List String
  | .node .modifiers modifiers :: _ =>
    (modifiers.filter (!·.isA .annotationUse)).map Phrase.text
  | _ => []

/-- The field that the parts of a declaration make up, if they do. -/
def Field.ofParts? (lead : String) (parts : List Phrase) : Option JupiterMigration.Field :=
  match parts.getLast? with
  | some (.node .fieldDeclaration inner) =>
    let decl := declared parts
    let text := decl.textAfter (Phrase.tokensOfAll decl.rest)
    let declarators := inner.filter (·.isA .declarator)
    some {
      id := 0
      lead := lead
      annotations := Annotation.leading decl.annotations
      declLead := leadingBlanks text
      text := trimStart text
      type := ((inner.find? (·.isA .type)).map Phrase.text).getD ""
      name := ((declarators.head?.bind (·.tokens.head?)).map Token.text).getD ""
      modifiers := keywordsOf parts
      variableCount := declarators.length
      references := namesOutside [.modifiers] inner }
  | _ => none

namespace Method

/-- A method taken apart at its name. -/
structure Header where
  /-- What stands before the return type, or before the name of a constructor. -/
  front : List Phrase
  returnType : Option Phrase
  name : Token
  parameters : Bracketed
  /-- What stands between the parameter list and the body. -/
  back : List Phrase
  body : Option Bracketed

/-- The body and what stands before it. -/
def splitBody (parts : List Phrase) : List Phrase × Option Bracketed :=
  match parts.getLast? with
  | some (.node _ inner) =>
    match bracketed? "\x7b" "\x7d" inner with
    | some body => (parts.dropLast, some body)
    | none => (parts, none)
  | _ => (parts, none)

/-- The header of a method from its name on. -/
def headerFrom? (front : List Phrase) (returnType : Option Phrase) : List Phrase → Option Header
  | .leaf _ name :: .node .parameters parameters :: rest =>
    match bracketed? "(" ")" parameters with
    | some list =>
      let (back, body) := splitBody rest
      some ⟨front, returnType, name, list, back, body⟩
    | none => none
  | _ => none

/-- The header of a method or constructor. -/
def header? : Phrase → Option Header
  | .node .methodDeclaration parts =>
    let front := parts.takeWhile (!·.isA .type)
    match parts.dropWhile (!·.isA .type) with
    | type :: rest => headerFrom? front (some type) rest
    | [] => none
  | .node .constructorDeclaration parts =>
    let front := parts.takeWhile (·.label?.isSome)
    headerFrom? front none (parts.dropWhile (·.label?.isSome))
  | _ => none

/-- The method that the parts of a declaration make up, if they do. -/
def ofParts? (lead : String) (parts : List Phrase) : Option JupiterMigration.Method :=
  match parts.getLast? with
  | none => none
  | some last =>
    match header? last with
    | none => none
    | some header =>
      match Parameter.ofList header.parameters.closing header.parameters.inner with
      | none => none
      | some parameters =>
        let decl := declared parts
        let front := Phrase.tokensOfAll (decl.rest.dropLast ++ header.front)
        let next := (header.returnType.map Phrase.gap).getD header.name.gap
        let text := decl.textAfter front ++ decl.gapAfter front next
        some {
          id := 0
          lead := lead
          annotations := Annotation.leading decl.annotations
          declLead := leadingBlanks text
          modifiers := trimStart text
          returnType := header.returnType.map Phrase.text
          typeSpace := if header.returnType.isSome then header.name.gap else " "
          name := header.name.text
          nameSpace := header.parameters.opening.gap
          parameters := parameters
          emptySpace := if parameters.isEmpty then header.parameters.closing.gap else ""
          throwsText := Phrase.sourceOfAll header.back ++
            (header.body.map (·.opening.gap)).getD ""
          body := header.body.map Block.ofBraced
          references := namesOutside [.modifiers, .block, .constructorBody] last.parts }

end Method

/-- The import that a phrase is, if it is one. -/
def Import.ofPhrase? : Phrase → Option JupiterMigration.Import
  | phrase@(.node .importDeclaration parts) => some {
      id := 0
      lead := phrase.gap
      text := phrase.text
      name := ((parts.find? (·.isA .qualifiedName)).map nameText).getD ""
      isStatic := parts.any fun part => part.label?.isNone && part.text == "static"
      isWildcard := parts.any fun part => part.label?.isNone && part.text == "*" }
  | _ => none

namespace ClassDecl

/-- A class taken apart: what stands before its body, and the body. -/
structure View where
  name : String
  references : Names
  front : List Phrase
  body : Bracketed

/-- Takes a class apart. -/
def view? : Phrase → Option View
  | .node .classDeclaration parts =>
    match parts.getLast? with
    | some (.node .classBody inner) =>
      (bracketed? "\x7b" "\x7d" inner).map fun body => {
        name := Expression.calledName parts
        references := namesOutside [.modifiers, .classBody] parts
        front := parts.dropLast
        body := body }
    | _ => none
  | _ => none

/-- The class that the parts of a declaration and its members make up, if they do. -/
def ofParts? (lead : String) (parts : List Phrase) (members : List Member) : Option Member :=
  (parts.getLast?.bind view?).map fun view =>
    let decl := declared parts
    let front := Phrase.tokensOfAll (decl.rest.dropLast ++ view.front) ++ [view.body.opening]
    let text := decl.textAfter front
    .classDecl {
      id := 0
      lead := lead
      annotations := Annotation.leading decl.annotations
      declLead := leadingBlanks text
      header := trimStart text
      name := view.name
      closing := view.body.closing.gap
      references := view.references } members

end ClassDecl

namespace Member

/-- A member of a class whose own members have been read already. -/
def ofClassPart (phrase : Phrase) (members : List JupiterMigration.Member) :
    JupiterMigration.Member :=
  let verbatim := .verbatim (Verbatim.ofPhrase phrase)
  match phrase with
  | .node .declaration parts =>
    match Field.ofParts? phrase.gap parts with
    | some field => .field field
    | none =>
      match Method.ofParts? phrase.gap parts with
      | some method => .method method
      | none => (ClassDecl.ofParts? phrase.gap parts members).getD verbatim
  | _ => verbatim

mutual

/-- The member of a class that a phrase is. -/
def ofPhrase : Phrase → JupiterMigration.Member
  | .leaf isName token => ofClassPart (.leaf isName token) []
  | .node label parts => ofClassPart (.node label parts) (declaredIn parts)

/-- The members of the class that is declared in some phrases. -/
def declaredIn : List Phrase → List JupiterMigration.Member
  | [] => []
  | first :: rest => declaredBy first ++ declaredIn rest

/-- The members of the class that a phrase declares. -/
def declaredBy : Phrase → List JupiterMigration.Member
  | .node .classDeclaration parts => declaredIn parts
  | .node .classBody parts => (ofAll parts).tail.dropLast
  | _ => []

/-- The members that some phrases are. -/
def ofAll : List Phrase → List JupiterMigration.Member
  | [] => []
  | first :: rest => ofPhrase first :: ofAll rest

end

/-- The top level declaration that a phrase is: an import, a class or verbatim text. -/
def ofTopLevel (phrase : Phrase) : JupiterMigration.Member :=
  match Import.ofPhrase? phrase with
  | some decl => .importDecl decl
  | none =>
    match phrase with
    | .node .declaration parts =>
      (ClassDecl.ofParts? phrase.gap parts (declaredIn parts)).getD
        (.verbatim (Verbatim.ofPhrase phrase))
    | _ => .verbatim (Verbatim.ofPhrase phrase)

end Member

end JupiterMigration.Java
