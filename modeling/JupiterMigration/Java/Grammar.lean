import JupiterMigration.Java.Rule

/-!
# The grammar of Java

The grammar is a table: `Category.rule` says how each category is written.  It is purely syntactic
and generous: any expression may stand as a statement, statements and methods may stand at the top
level, and a word is a keyword only where that keyword could stand, so that `int return = 5;`
declares a variable.

Operators are not nested by precedence here.  An expression is a row of operands with operators
between them; which operator binds loosest is read off the row where it matters.

Type arguments, casts and lambda expressions begin like other things.  A guard looks ahead for
what tells them apart, so that no part of a program is read more often than a fixed number of times.
-/

namespace JupiterMigration.Java

/-- What the grammar has a rule for. -/
inductive Category where
  | topLevel
  | statement
  | block
  | declarationKeyword
  | modifiers
  | annotationUse
  | elementValue
  | qualifiedName
  | classDeclaration
  | interfaceDeclaration
  | enumDeclaration
  | recordDeclaration
  | annotationDeclaration
  | moduleDeclaration
  | classBody
  | classMember
  | enumConstant
  | interfaceMember
  | annotationMember
  | field
  | method
  | constructor
  | constructorBody
  | typeParameters
  | type
  | annotatedType
  | codeType
  | typeArguments
  | dimensions
  | declarator
  | initializer
  | arrayInitializer
  | parameters
  | parameter
  | localVariable
  | switch
  | switchLabel
  | recordPattern
  | catchClause
  | arguments
  | creation
  /-- An expression; without arrows it may not be a lambda, as in a `case` label. -/
  | expression (arrows : Bool)
  | operand (arrows : Bool)
  | primary (arrows : Bool)
  | selectors (arrows : Bool)
  | assignable (arrows : Bool)
  deriving DecidableEq, Repr

namespace Category

open Rule

/-- Words for primitive types and `void`. -/
def primitiveWords : List String :=
  ["byte", "short", "int", "long", "char", "float", "double", "boolean", "void"]

/-- Words that begin an operand as keywords and so name nothing there. -/
def operandWords : List String :=
  primitiveWords ++ ["this", "super", "new", "true", "false", "null", "switch"]

/-- Words that are keywords at the beginning of code and can name variables there, but no type. -/
def softWords : List String :=
  ["open", "module", "record", "with", "sealed", "yield"]

/-- Words that are keywords after a dot. -/
def selectorWords : List String :=
  ["this", "super", "new", "class"]

/-- The words that are always modifiers where modifiers can stand. -/
def modifierWords : List String :=
  ["public", "protected", "private", "abstract", "static", "final", "strictfp", "default",
    "synchronized", "native", "transient", "volatile"]

/-- A symbol between others. -/
private def between (opening : String) (inner : Rule Category) (closing : String) : Rule Category :=
  all [.symbol opening, inner, .symbol closing]

private def comma : Rule Category := .symbol ","

private def semicolon : Rule Category := .symbol ";"

private def anyName : Rule Category := .name []

private def words (texts : List String) : Rule Category :=
  oneOf (texts.map .word)

private def symbols (texts : List String) : Rule Category :=
  oneOf (texts.map .symbol)

private def isLiteral : TokenKind → Bool
  | .integer _ | .floating | .character | .string => true
  | _ => false

private def literal : Rule Category := .kind isLiteral

private def stringHead : Rule Category := .kind (· == .stringHead)

/-- Parts in braces. -/
private def inBraces (inner : Rule Category) : Rule Category :=
  between "\x7b" inner "\x7d"

/-- A list in which a comma may follow the last element, or stand alone. -/
private def openList (element : Rule Category) : Rule Category :=
  .seq (optional (separated element comma)) (optional comma)

private def annotations : Rule Category := .many (.call .annotationUse)

/-- The sign of an annotation type declaration: `@interface` in one piece. -/
private def annotationKeyword : Rule Category :=
  .seq (.symbol "@") (.gluedWord "interface")

/-- The word `sealed` where it modifies what follows. -/
private def sealedAhead : Rule Category :=
  .seq (.word "sealed") (.either anyName (.symbol "@"))

private def nonSealed : Rule Category :=
  all [.word "non", .glued "-", .gluedWord "sealed"]

/-- Whether modifiers begin here. -/
private def modifierAhead : Rule Category :=
  branch [(annotationKeyword, never)]
    (oneOf [.symbol "@", words modifierWords, sealedAhead, nonSealed])

private def modifier : Rule Category :=
  branch [(annotationKeyword, never), (sealedAhead, .word "sealed")]
    (oneOf [.call .annotationUse, words modifierWords, .node .modifier nonSealed])

private def optionalModifiers : Rule Category := optional (.call .modifiers)

private def recordAhead : Rule Category := .seq (.word "record") anyName

private def moduleAhead : Rule Category :=
  all [optional (.word "open"), .word "module", anyName]

private def extendsType : Rule Category := .seq (.word "extends") (.call .annotatedType)

private def typeList : Rule Category := separated (.call .annotatedType) comma

private def implementsTypes : Rule Category := .seq (.word "implements") typeList

private def permitsTypes : Rule Category := .seq (.word "permits") typeList

private def throwsTypes : Rule Category := .seq (.word "throws") typeList

/-- The name of a declared variable; a lone underscore names nothing. -/
private def variableName : Rule Category := .either (.word "_") anyName

private def declarators : Rule Category := separated (.call .declarator) comma

private def optionalDimensions : Rule Category := optional (.call .dimensions)

/-- Type parameters and annotations before the type of a method. -/
private def methodGenerics : Rule Category :=
  optional (.seq (.call .typeParameters) annotations)

/-- Whether a method with a type of the given form is declared here. -/
private def methodAhead (type : Rule Category) : Rule Category :=
  all [methodGenerics, type, anyName, .symbol "("]

private def constructorAhead : Rule Category :=
  all [optional (.call .typeParameters), .name primitiveWords, .symbol "("]

/-- The declarations that a keyword gives away. -/
private def keywordCases : List (Rule Category × Rule Category) :=
  [(.word "class", .call .classDeclaration), (.word "interface", .call .interfaceDeclaration),
    (.word "enum", .call .enumDeclaration), (annotationKeyword, .call .annotationDeclaration),
    (recordAhead, .call .recordDeclaration)]

private def packageDeclaration : Rule Category :=
  .node .other (all [.word "package", .call .qualifiedName, semicolon])

private def importDeclaration : Rule Category :=
  .node .importDeclaration
    (all [.word "import", optional (.word "static"), .call .qualifiedName,
      optional (.seq (.symbol ".") (.symbol "*")), semicolon])

private def variableDeclaration : Rule Category :=
  .node .other (.call .localVariable)

/-- Whether a local variable is declared here. -/
private def variableAhead : Rule Category := .seq (.call .codeType) (.name ["instanceof"])

/-- A type that a simple name begins: its arguments and the types selected from it. -/
private def typeFrom (first : Rule Category) : Rule Category :=
  all [first, optional (.call .typeArguments),
    .many (all [.symbol ".", annotations, .name selectorWords, optional (.call .typeArguments)])]

private def simpleType (except : List String) : Rule Category :=
  .either (words primitiveWords) (typeFrom (.name except))

private def arrayable (simple : Rule Category) : Rule Category :=
  .node .type (.seq simple optionalDimensions)

/-- The words that name no type where an expression could begin as well. -/
private def codeWords : List String := operandWords ++ softWords

private def condition : Rule Category := between "(" (.call (.expression true)) ")"

private def fullExpression : Rule Category := .call (.expression true)

/-- Where an operand could begin after a closed parenthesis. -/
private def operandAhead : Rule Category :=
  let start := oneOf [.name ["instanceof"], .kind isLiteral, stringHead,
    symbols ["(", "!", "~", "+", "-"]]
  .either start (.seq (symbols ["++", "--"]) start)

private def castAhead : Rule Category :=
  .either (all [.symbol "(", annotations, .call .codeType, .symbol ")", operandAhead])
    (all [.symbol "(", annotations, .call .codeType,
      many1 (.seq (.symbol "&") (.call .annotatedType)), .symbol ")",
      oneOf [anyName, .kind isLiteral, stringHead, .symbol "("]])

private def lambdaParameters : Rule Category :=
  .either (between "(" (separated anyName comma) ")") (.call .parameters)

private def lambda (arrows : Bool) (parameters : Rule Category) : Rule Category :=
  .node .lambda (all [parameters, .symbol "->",
    .guarded (.symbol "\x7b") (.call .block) (.call (.expression arrows))])

private def assignmentOperator : Rule Category :=
  oneOf [symbols ["=", "+=", "-=", "*=", "/=", "&=", "|=", "^=", "%=", "<<="],
    all [.symbol ">", .glued ">", .glued ">", .glued "="],
    all [.symbol ">", .glued ">", .glued "="]]

private def binaryOperator : Rule Category :=
  oneOf [symbols ["==", "!=", "<=", "<<", "<", "&&", "||", "*", "/", "%", "+", "-", "&", "|", "^"],
    all [.symbol ">", .glued ">", .glued ">"], all [.symbol ">", .glued ">"],
    all [.symbol ">", .glued "="], .symbol ">"]

/-- What may follow an operand in an expression. -/
private def continuation (arrows : Bool) : Rule Category :=
  branch
    [(.symbol "?",
      .seq (.node .conditional (all [.symbol "?", fullExpression, .symbol ":"]))
        (.call (.operand arrows))),
    (.word "instanceof",
      .node .typeTest (all [.word "instanceof", optional (.word "final"),
        .either (.call .recordPattern)
          (.seq (.call .annotatedType) (optional (.name ["instanceof"])))])),
    (symbols ["++", "--"], .node .postfixOperator (symbols ["++", "--"]))]
    (.seq (.node .operator binaryOperator) (.call (.operand arrows)))

/-- The type after `new`: without brackets. -/
private def createdType : Rule Category := simpleType []

private def creationGenerics : Rule Category :=
  .seq annotations (optional (.seq (.call .typeArguments) annotations))

private def embeddedString : Rule Category :=
  .node .string (all [stringHead, fullExpression,
    .many (.seq (.kind (· == .stringMiddle)) fullExpression), .kind (· == .stringTail)])

private def anyString : Rule Category :=
  .either (.kind (· == .string)) embeddedString

private def referenceEnd : Rule Category :=
  all [.symbol "::", optional (.call .typeArguments), .either (.word "new") anyName]

private def parenthesized : Rule Category :=
  .node .parenthesized condition

/-- What stands between a dot and the name of a selected method. -/
private def selectedCallFront : Rule Category :=
  all [.symbol ".", optional (.seq (.word "super") (.symbol ".")),
    optional (.call .typeArguments)]

private def statementNode (parts : List (Rule Category)) : Rule Category :=
  .node .statement (all parts)

private def resource : Rule Category :=
  .either
    (all [optionalModifiers, .call .type, variableName, optionalDimensions, .symbol "=",
      fullExpression])
    (.seq (.either (.word "this") anyName)
      (.many (.seq (.symbol ".") (.either (.word "this") anyName))))

private def resources : Rule Category :=
  between "(" (.seq (separated resource semicolon) (optional semicolon)) ")"

private def finallyClause : Rule Category := .seq (.word "finally") (.call .block)

private def tryStatement : Rule Category :=
  .guarded (.seq (.word "try") (.symbol "("))
    (statementNode [.word "try", resources, .call .block, .many (.call .catchClause),
      optional finallyClause])
    (statementNode [.word "try", .call .block,
      .either (.seq (many1 (.call .catchClause)) (optional finallyClause)) finallyClause])

private def eachVariable : Rule Category :=
  all [optionalModifiers, .call .codeType, variableName, optionalDimensions, .symbol ":"]

private def loopStart : Rule Category :=
  .guarded (.seq optionalModifiers variableAhead)
    (.seq optionalModifiers (.call .localVariable))
    (.seq (optional (separated fullExpression comma)) semicolon)

private def forStatement : Rule Category :=
  statementNode [.word "for", .symbol "(",
    .guarded eachVariable (.seq eachVariable fullExpression)
      (all [loopStart, optional fullExpression, semicolon,
        optional (separated fullExpression comma)]),
    .symbol ")", .call .statement]

/-- A `switch` alone, or one that begins an expression. -/
private def switchStatement : Rule Category :=
  statementNode [.call .switch, optional (.seq (.many (continuation true)) semicolon)]

/-- The statements that a keyword gives away. -/
private def statementCases : List (Rule Category × Rule Category) :=
  [(.symbol "\x7b", .call .block),
    (semicolon, statementNode [semicolon]),
    (.word "if", statementNode [.word "if", condition, .call .statement,
      optional (.seq (.word "else") (.call .statement))]),
    (.word "while", statementNode [.word "while", condition, .call .statement]),
    (.word "for", forStatement),
    (.word "do", statementNode [.word "do", .call .statement, .word "while", condition, semicolon]),
    (.word "try", tryStatement),
    (.word "switch", switchStatement),
    (.word "return", statementNode [.word "return", optional fullExpression, semicolon]),
    (.word "break", statementNode [.word "break", optional anyName, semicolon]),
    (.word "continue", statementNode [.word "continue", optional anyName, semicolon]),
    (.word "throw", statementNode [.word "throw", fullExpression, semicolon]),
    (.word "assert", statementNode [.word "assert", fullExpression,
      optional (.seq (.symbol ":") fullExpression), semicolon]),
    (.seq (.word "synchronized") (.symbol "("),
      statementNode [.word "synchronized", condition, .call .block]),
    (.seq (.word "yield") operandAhead, statementNode [.word "yield", fullExpression, semicolon]),
    (.word "import", importDeclaration),
    (.seq annotations (.either (.word "package") moduleAhead),
      .node .declaration (.seq annotations
        (.guarded (.word "package") packageDeclaration (.call .moduleDeclaration))))]

private def expressionStatement : Rule Category :=
  .node .expressionStatement (.seq fullExpression semicolon)

/-- A declaration that begins with modifiers. -/
private def modifiedDeclaration (otherwise : Rule Category) : Rule Category :=
  .node .declaration (.seq (.call .modifiers) (branch keywordCases otherwise))

/-- A declaration without modifiers. -/
private def plainDeclaration : Rule Category × Rule Category :=
  (.call .declarationKeyword, .node .declaration (branch keywordCases never))

private def labelAhead : Rule Category := .seq (.name codeWords) (.symbol ":")

private def labelledStatement : Rule Category :=
  statementNode [anyName, .symbol ":", .call .statement]

/-- A name list after a word, as in `exports a to b, c;`. -/
private def namesAfter (word : String) : Rule Category :=
  .seq (.word word) (separated (.call .qualifiedName) comma)

private def moduleDirective : Rule Category :=
  oneOf
    [all [.word "requires", .many (words ["transitive", "static"]), .call .qualifiedName,
       semicolon],
    all [words ["exports", "opens"], .call .qualifiedName, optional (namesAfter "to"), semicolon],
    all [.word "uses", .call .qualifiedName, semicolon],
    all [.word "provides", .call .qualifiedName, namesAfter "with", semicolon]]

/-- A statement in a `switch`, where `case` and `default` begin labels. -/
private def switchGroup : Rule Category :=
  .guarded (words ["case", "default"]) (.seq (.call .switchLabel) (.symbol ":")) (.call .statement)

private def switchRule : Rule Category :=
  all [.call .switchLabel, .symbol "->",
    branch [(.symbol "\x7b", .call .block),
      (.word "throw", statementNode [.word "throw", fullExpression, semicolon])]
      expressionStatement]

/-- How each category is written. -/
def rule : Category → Rule Category
  | topLevel =>
    branch (statementCases ++ [plainDeclaration,
        (modifierAhead, modifiedDeclaration
          (.guarded (methodAhead (.call .type)) (.call .method) variableDeclaration)),
        (methodAhead (.call .codeType), .node .declaration (.call .method)),
        (variableAhead, .node .declaration variableDeclaration),
        (labelAhead, labelledStatement)])
      expressionStatement
  | statement =>
    branch (statementCases ++ [plainDeclaration,
        (modifierAhead, modifiedDeclaration variableDeclaration),
        (variableAhead, .node .declaration variableDeclaration),
        (labelAhead, labelledStatement)])
      expressionStatement
  | block => .node .block (inBraces (.many (.call .statement)))
  | declarationKeyword =>
    oneOf [words ["class", "interface", "enum"], annotationKeyword, recordAhead]
  | modifiers => .node .modifiers (many1 modifier)
  | annotationUse =>
    .node .annotationUse (all [.symbol "@", .call .qualifiedName,
      optional (.node .arguments (between "("
        (.guarded (.seq anyName (.symbol "="))
          (separated (.node .pair (all [anyName, .symbol "=", .call .elementValue])) comma)
          (optional (.call .elementValue)))
        ")"))])
  | elementValue =>
    branch [(.symbol "@", .call .annotationUse),
      (.symbol "\x7b", .node .braced (inBraces (openList (.call .elementValue))))] fullExpression
  | qualifiedName =>
    .node .qualifiedName (.seq anyName (.many (.seq (.symbol ".") anyName)))
  | classDeclaration =>
    .node .classDeclaration (all [.word "class", anyName, optional (.call .typeParameters),
      optional extendsType, optional implementsTypes, optional permitsTypes, .call .classBody])
  | interfaceDeclaration =>
    .node .other (all [.word "interface", anyName, optional (.call .typeParameters),
      optional (.seq (.word "extends") typeList), optional permitsTypes,
      inBraces (.many (.call .interfaceMember))])
  | enumDeclaration =>
    .node .other (all [.word "enum", anyName, optional implementsTypes,
      inBraces (.seq (openList (.call .enumConstant))
        (optional (.seq semicolon (.many (.call .classMember)))))])
  | enumConstant =>
    all [.guarded modifierAhead (.call .modifiers) .done, anyName, optional (.call .arguments),
      optional (.call .classBody)]
  | recordDeclaration =>
    .node .other (all [.word "record", anyName, optional (.call .typeParameters),
      .call .parameters, optional implementsTypes, .call .classBody])
  | annotationDeclaration =>
    .node .other (all [annotationKeyword, anyName, inBraces (.many (.call .annotationMember))])
  | moduleDeclaration =>
    .node .other (all [optional (.word "open"), .word "module", .call .qualifiedName,
      inBraces (.many moduleDirective)])
  | classBody => .node .classBody (inBraces (.many (.call .classMember)))
  | classMember =>
    branch [(semicolon, .node .other semicolon), (.symbol "\x7b", .call .block),
        (.seq (.word "static") (.symbol "\x7b"),
          .node .other (.seq (.word "static") (.call .block)))]
      (.node .declaration (.seq (.guarded modifierAhead (.call .modifiers) .done)
        (branch (keywordCases ++ [(constructorAhead, .call .constructor),
            (.seq (.name primitiveWords) (.symbol "\x7b"),
              .node .other (.seq anyName (.call .block))),
            (methodAhead (.call .type), .call .method)])
          (.call .field))))
  | interfaceMember =>
    branch [(semicolon, semicolon)]
      (.seq (.guarded modifierAhead (.call .modifiers) .done)
        (branch (keywordCases ++ [(methodAhead (.call .type), .call .method)]) (.call .field)))
  | annotationMember =>
    branch [(semicolon, semicolon)]
      (.seq (.guarded modifierAhead (.call .modifiers) .done)
        (branch (keywordCases ++ [(.seq (.call .type) (.seq anyName (.symbol "(")),
            all [.call .type, anyName, .symbol "(", .symbol ")", optionalDimensions,
              optional (.seq (.word "default") (.call .elementValue)), semicolon])])
          (.call .field)))
  | field => .node .fieldDeclaration (all [.call .type, declarators, semicolon])
  | method =>
    .node .methodDeclaration (all [methodGenerics, .call .type, anyName, .call .parameters,
      optionalDimensions, optional throwsTypes, .either (.call .block) semicolon])
  | constructor =>
    .node .constructorDeclaration (all [optional (.call .typeParameters), anyName,
      .call .parameters, optional throwsTypes, .call .constructorBody])
  | constructorBody =>
    .node .constructorBody (inBraces (.seq
      (optional (statementNode [
        .either (.seq (optional (.call .typeArguments)) (words ["this", "super"]))
          (all [.call (.primary true), .symbol ".", optional (.call .typeArguments),
            .word "super"]),
        .call .arguments, semicolon]))
      (.many (.call .statement))))
  | typeParameters =>
    .node .typeParameters (between "<"
      (separated (all [annotations, anyName, optional (.seq extendsType
        (.many (.seq (.symbol "&") (.call .annotatedType))))]) comma) ">")
  | type => arrayable (simpleType [])
  | annotatedType => .seq annotations (.call .type)
  | codeType => arrayable (simpleType codeWords)
  | typeArguments =>
    .node .typeArguments (between "<"
      (optional (separated (.seq annotations (.guarded (.symbol "?")
        (.seq (.symbol "?") (optional (.seq (words ["extends", "super"]) (.call .annotatedType))))
        (.call .type))) comma)) ">")
  | dimensions => many1 (all [annotations, .symbol "[", .symbol "]"])
  | declarator =>
    .node .declarator (all [variableName, optionalDimensions,
      optional (.seq (.symbol "=") (.call .initializer))])
  | initializer => .guarded (.symbol "\x7b") (.call .arrayInitializer) fullExpression
  | arrayInitializer => .node .braced (inBraces (openList (.call .initializer)))
  | parameters =>
    let receiver := all [annotations, .call .type, .many (.seq anyName (.symbol ".")), .word "this"]
    let list := separated (.call .parameter) comma
    .node .parameters (between "("
      (.guarded receiver
        (.seq (.node .receiver receiver) (optional (.seq comma list)))
        (optional list)) ")")
  | parameter =>
    .node .parameter (all [.guarded modifierAhead (.call .modifiers) .done, .call .type,
      .guarded (.symbol "...") (all [.symbol "...", annotations, .call .declarator])
        (.seq variableName optionalDimensions)])
  | localVariable => all [.call .type, declarators, semicolon]
  | switch =>
    .node .switch (all [.word "switch", condition,
      inBraces (.guarded (.seq (.call .switchLabel) (.symbol "->")) (.many switchRule)
        (optional (all [.call .switchLabel, .symbol ":", .many switchGroup])))])
  | switchLabel =>
    .either
      (all [.word "case",
        oneOf [.seq (.call .codeType) (.name ["when", "instanceof"]), .call .recordPattern,
          separated (.call (.expression false)) comma],
        optional (.seq (.word "when") (.call (.expression false)))])
      (.word "default")
  | recordPattern =>
    .seq (typeFrom anyName) (between "("
      (optional (separated (oneOf [.call .recordPattern, .seq (.call .type) anyName, .word "_"])
        comma)) ")")
  | catchClause =>
    all [.word "catch", .symbol "(", optionalModifiers, separated (.call .type) (.symbol "|"),
      variableName, optionalDimensions, .symbol ")", .call .block]
  | arguments => .node .arguments (between "(" (optional (separated fullExpression comma)) ")")
  | creation =>
    .guarded (all [.word "new", creationGenerics, createdType, .symbol "("])
      (.node .creation (all [.word "new", creationGenerics, createdType, .call .arguments,
        optional (.call .classBody)]))
      (.node .arrayCreation (all [.word "new", annotations, createdType,
        .either
          (.seq (many1 (all [annotations, .symbol "[", fullExpression, .symbol "]"]))
            optionalDimensions)
          (.seq (.call .dimensions) (.call .arrayInitializer))]))
  | expression arrows =>
    .node .expression (.seq (.call (.operand arrows)) (.many (continuation arrows)))
  | operand arrows =>
    let lambdas := if arrows then
        [(.seq (.name operandWords) (.symbol "->"), lambda arrows anyName),
          (.seq lambdaParameters (.symbol "->"), lambda arrows lambdaParameters)]
      else []
    branch (lambdas ++
        [(castAhead, .node .cast (all [.symbol "(",
            separated (.call .annotatedType) (.symbol "&"), .symbol ")", .call (.operand arrows)])),
          (symbols ["+", "-", "!", "~", "++", "--"],
            .node .unary
              (.seq (symbols ["+", "-", "!", "~", "++", "--"]) (.call (.operand arrows)))),
          (.word "switch", .call .switch)])
      (.call (.primary arrows))
  | primary arrows =>
    .node .primary (branch
      [(literal, .seq literal (.call (.selectors arrows))),
        (stringHead, .seq embeddedString (.call (.selectors arrows))),
        (words ["true", "false", "null", "this"],
          .seq (words ["true", "false", "null", "this"]) (.call (.selectors arrows))),
        (.symbol "(", .seq parenthesized (.call (.selectors arrows))),
        (.word "new", .seq (.call .creation) (.call (.selectors arrows))),
        (.seq (.word "super") (symbols [".", "::"]),
          .seq (.word "super") (.call (.selectors arrows))),
        (.seq (.call .codeType) (.seq (.symbol ".") (.word "class")),
          .seq (.node .classLiteral (all [.call .codeType, .symbol ".", .word "class"]))
            (.call (.selectors arrows))),
        (.seq (.call .codeType) (.symbol "::"),
          .seq (.node .reference (.seq (.call .codeType) referenceEnd))
            (.call (.selectors arrows))),
        (.seq (.name operandWords) (.symbol "("),
          .seq (.node .call (.seq anyName (.call .arguments))) (.call (.selectors arrows)))]
      (.seq (.name operandWords) (.call (.assignable arrows))))
  | selectors arrows =>
    branch
      [(.seq (.symbol ".") (.word "new"),
        .seq (.node .creation (.seq (.symbol ".") (.call .creation))) (.call (.selectors arrows))),
      (.seq (.symbol ".") (.either (.kind (· == .string)) stringHead),
        .seq (.node .template (.seq (.symbol ".") anyString)) (.call (.selectors arrows))),
      (.seq selectedCallFront (.seq (.name selectorWords) (.symbol "(")),
        .seq (.node .call (all [selectedCallFront, anyName, .call .arguments]))
          (.call (.selectors arrows))),
      (all [.symbol ".", optional (.seq (.word "super") (.symbol ".")),
          .either (.word "this") (.name selectorWords)],
        .seq (.node .selection (all [.symbol ".", optional (.seq (.word "super") (.symbol ".")),
          .either (.word "this") (.name selectorWords)])) (.call (.assignable arrows))),
      (.symbol "[",
        .seq (.node .index (between "[" fullExpression "]")) (.call (.assignable arrows))),
      (.symbol "::", .seq (.node .reference referenceEnd) (.call (.selectors arrows)))]
      .done
  | assignable arrows =>
    .guarded assignmentOperator
      (.node .assignment (.seq assignmentOperator (.call (.expression arrows))))
      (.call (.selectors arrows))

end Category

/-- Reads a whole program: the phrases of its top level, if all of it is grammatical. -/
def readProgram (tokens : List Token) : Option (List Phrase) :=
  match Rule.read Category.rule (Rule.steps tokens) (.many (.call .topLevel)) tokens with
  | some (phrases, []) => some phrases
  | _ => none

/-- The phrases of a program hold all of its tokens in order. -/
theorem readProgram_lossless {tokens : List Token} {phrases : List Phrase}
    (found : readProgram tokens = some phrases) : Phrase.tokensOfAll phrases = tokens := by
  unfold readProgram at found
  split at found
  · next readAll =>
    simp only [Option.some.injEq] at found
    subst found
    simpa using Rule.read_lossless readAll
  · simp at found

end JupiterMigration.Java
