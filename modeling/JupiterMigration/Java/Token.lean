/-!
# Tokens

A token carries its own text and the white space and comments that stand before it, so that a list
of tokens with the blank end of the file is the whole source again.
-/

namespace JupiterMigration.Java

/-- The base an integer literal is written in. -/
inductive Radix where
  | decimal
  | hexadecimal
  | octal
  | binary
  deriving DecidableEq, Repr

/-- What a token is.  Keywords are words: the grammar decides where a word is a keyword. -/
inductive TokenKind where
  | word
  | integer (radix : Radix)
  | floating
  | character
  /-- A string or text block without embedded expressions. -/
  | string
  /-- A string up to its first embedded expression. -/
  | stringHead
  /-- A string between two embedded expressions. -/
  | stringMiddle
  /-- A string after its last embedded expression. -/
  | stringTail
  | symbol
  deriving DecidableEq, Repr

/-- One token of a program. -/
structure Token where
  /-- White space and comments between the previous token and this one. -/
  gap : String
  text : String
  kind : TokenKind
  deriving DecidableEq, Repr

namespace Token

/-- Whether the token follows the previous one directly. -/
def isGlued (token : Token) : Bool :=
  token.gap.isEmpty

/-- The source of a token: its gap and its text. -/
def source (token : Token) : String :=
  token.gap ++ token.text

end Token

/-- The source of a list of tokens, gaps included. -/
def sourceOf (tokens : List Token) : String :=
  String.join (tokens.map Token.source)

/-- The source of a list of tokens from the text of the first one on. -/
def textOf : List Token → String
  | [] => ""
  | first :: rest => first.text ++ sourceOf rest

/-- The gap before the first token. -/
def gapOf : List Token → String
  | [] => ""
  | first :: _ => first.gap

/-- The source is the first gap followed by the text. -/
theorem sourceOf_eq_gapOf_append_textOf (tokens : List Token) :
    sourceOf tokens = gapOf tokens ++ textOf tokens := by
  cases tokens with
  | nil => rfl
  | cons first rest => simp [sourceOf, gapOf, textOf, Token.source, String.append_assoc]

/-- The source of two lists in a row. -/
theorem sourceOf_append (front back : List Token) :
    sourceOf (front ++ back) = sourceOf front ++ sourceOf back := by
  simp [sourceOf, String.join_append]

end JupiterMigration.Java
