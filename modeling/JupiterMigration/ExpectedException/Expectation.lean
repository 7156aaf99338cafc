import JupiterMigration.Tree.Basic

/-!
# Expectations

An expectation is a call of the rule for expected exceptions: what the thrown exception has to be,
or what its message or cause has to be.  What is given as the argument decides whether the call
names a type or text, or a matcher.
-/

namespace JupiterMigration

namespace ExpectedException

/-- The kinds of expectations. -/
inductive ExpectationKind where
  /-- The type of the exception. -/
  | type
  /-- A matcher for the exception. -/
  | typeMatcher
  /-- The text of the message. -/
  | message
  /-- A matcher for the message. -/
  | messageMatcher
  /-- A matcher for the cause. -/
  | causeMatcher
  deriving DecidableEq, Repr

namespace ExpectationKind

/-- All kinds, in the order in which expectations are written down. -/
def all : List ExpectationKind :=
  [type, typeMatcher, message, messageMatcher, causeMatcher]

/-- The name of a kind. -/
def name : ExpectationKind → String
  | type => "type"
  | typeMatcher => "type_matcher"
  | message => "message"
  | messageMatcher => "message_matcher"
  | causeMatcher => "cause_matcher"

/-- Whether an expectation of the kind is checked by a matcher. -/
def isMatcher : ExpectationKind → Bool
  | type => false
  | typeMatcher => true
  | message => false
  | messageMatcher => true
  | causeMatcher => true

/-- The kind of an expected exception, by what is given. -/
def ofException : ExpressionForm → ExpectationKind
  | .classLiteral _ => type
  | _ => typeMatcher

/-- The kind of an expected message, by what is given. -/
def ofMessage : ExpressionForm → ExpectationKind
  | .call _ => messageMatcher
  | .creation => messageMatcher
  | _ => message

end ExpectationKind

/-- A call of the rule, and the statement it is. -/
structure Expectation where
  kind : ExpectationKind
  argument : Expression
  statement : Statement
  deriving DecidableEq, Repr

/-- The kind of expectation that a method of the rule states about an argument. -/
def kindOf? (method : String) (form : ExpressionForm) : Option ExpectationKind :=
  if method = "expect" then some (.ofException form)
  else if method = "expectMessage" then some (.ofMessage form)
  else if method = "expectCause" then some .causeMatcher
  else none

/-- What a call of the rule expects of which argument; it has to have a single one. -/
def classify (call : Call) : Option (ExpectationKind × Expression) :=
  match call.arguments with
  | [argument] => (kindOf? call.name argument.form).map fun kind => (kind, argument)
  | _ => none

end ExpectedException

end JupiterMigration
