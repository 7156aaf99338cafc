import JupiterMigration.Java.Token

/-!
# Phrases

A phrase is a token or a labelled sequence of phrases: the concrete structure of a program, with
every token in its place.  A leaf knows whether its word is used as a name; keywords are not.
-/

namespace JupiterMigration.Java

/-- What a phrase is, as far as anyone who reads the structure has to tell phrases apart. -/
inductive Label where
  | importDeclaration
  /-- Modifiers, if any, and what they modify. -/
  | declaration
  | modifiers
  | modifier
  | annotationUse
  | qualifiedName
  | arguments
  /-- A named argument of an annotation. -/
  | pair
  /-- A list of values in braces. -/
  | braced
  | classDeclaration
  | classBody
  | fieldDeclaration
  | methodDeclaration
  | constructorDeclaration
  | typeParameters
  | typeArguments
  | type
  | declarator
  | parameters
  | parameter
  /-- The parameter that names the receiver of a method. -/
  | receiver
  | block
  | constructorBody
  | statement
  | expressionStatement
  | expression
  | operator
  /-- The middle of a conditional expression, from `?` to `:`. -/
  | conditional
  | typeTest
  | postfixOperator
  | unary
  | cast
  | lambda
  | parenthesized
  | primary
  /-- A member picked with a dot. -/
  | selection
  | call
  | index
  | reference
  | creation
  | arrayCreation
  | classLiteral
  | assignment
  | string
  | template
  | switch
  | other
  deriving DecidableEq, Repr

/-- A token, or a labelled sequence of phrases. -/
inductive Phrase where
  | leaf (isName : Bool) (token : Token)
  | node (label : Label) (parts : List Phrase)

namespace Phrase

mutual

/-- Decides whether two phrases are equal. -/
def decEq : (phrase other : Phrase) → Decidable (phrase = other)
  | leaf isName token, leaf otherIsName otherToken =>
    decidable_of_iff (isName = otherIsName ∧ token = otherToken) (by rw [leaf.injEq])
  | node label parts, node otherLabel otherParts =>
    match decEqAll parts otherParts with
    | isTrue same => decidable_of_iff (label = otherLabel) (by rw [node.injEq, and_iff_left same])
    | isFalse differ => isFalse fun same => differ (node.inj same).2
  | leaf .., node .. => isFalse nofun
  | node .., leaf .. => isFalse nofun

/-- Decides whether two lists of phrases are equal. -/
def decEqAll : (phrases others : List Phrase) → Decidable (phrases = others)
  | [], [] => isTrue rfl
  | first :: rest, other :: others =>
    match decEq first other, decEqAll rest others with
    | isTrue sameFirst, isTrue sameRest => isTrue (by rw [sameFirst, sameRest])
    | isFalse differ, _ => isFalse fun same => differ (List.cons.inj same).1
    | _, isFalse differ => isFalse fun same => differ (List.cons.inj same).2
  | [], _ :: _ => isFalse nofun
  | _ :: _, [] => isFalse nofun

end

instance : DecidableEq Phrase := decEq

mutual

/-- The tokens of a phrase in order. -/
def tokens : Phrase → List Token
  | leaf _ token => [token]
  | node _ parts => tokensOfAll parts

/-- The tokens of a list of phrases in order. -/
def tokensOfAll : List Phrase → List Token
  | [] => []
  | first :: rest => tokens first ++ tokensOfAll rest

end

mutual

/-- The words a phrase uses as names, except those in parts with a skipped label. -/
def names (skip : Label → Bool) : Phrase → List String
  | leaf isName token => if isName then [token.text] else []
  | node label parts => if skip label then [] else namesOfAll skip parts

/-- The words a list of phrases uses as names. -/
def namesOfAll (skip : Label → Bool) : List Phrase → List String
  | [] => []
  | first :: rest => names skip first ++ namesOfAll skip rest

end

/-- The tokens of two lists of phrases in a row. -/
theorem tokensOfAll_append (front back : List Phrase) :
    tokensOfAll (front ++ back) = tokensOfAll front ++ tokensOfAll back := by
  induction front with
  | nil => rfl
  | cons first rest ih => simp [tokensOfAll, ih]

/-- The label of a phrase that has one. -/
def label? : Phrase → Option Label
  | leaf .. => none
  | node label _ => some label

/-- Whether a phrase has the given label. -/
def isA (label : Label) (phrase : Phrase) : Bool :=
  phrase.label? = some label

/-- The parts of a phrase; a token has none. -/
def parts : Phrase → List Phrase
  | leaf .. => []
  | node _ parts => parts

/-- The source of a phrase, the gap before it included. -/
def source (phrase : Phrase) : String :=
  sourceOf phrase.tokens

/-- The text of a phrase, from its first token on. -/
def text (phrase : Phrase) : String :=
  textOf phrase.tokens

/-- The white space and comments before a phrase. -/
def gap (phrase : Phrase) : String :=
  gapOf phrase.tokens

/-- The source of a list of phrases. -/
def sourceOfAll (phrases : List Phrase) : String :=
  sourceOf (tokensOfAll phrases)

/-- The text of a list of phrases, from the first token on. -/
def textOfAll (phrases : List Phrase) : String :=
  textOf (tokensOfAll phrases)

end Phrase

end JupiterMigration.Java
