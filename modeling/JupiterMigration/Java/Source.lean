import JupiterMigration.Java.Grammar
import JupiterMigration.Java.Lexer
import JupiterMigration.Java.Reading
import JupiterMigration.Tree.Numbering

/-!
# Reading Java sources

A source is cut into tokens, read by the grammar, and turned into a declaration tree.
-/

namespace JupiterMigration

/-- A place in a source; lines and columns count from one. -/
structure Place where
  line : Nat
  column : Nat
  deriving DecidableEq, Repr

/-- Why a source is not accepted. -/
inductive SyntaxError where
  /-- Some of the text is no token, or the tokens are not grammatical from a place on. -/
  | ungrammatical (place : Option Place)
  deriving DecidableEq, Repr

/-- The wording of a syntax error, with the place if it is known. -/
def SyntaxError.message : SyntaxError → String
  | .ungrammatical place =>
    "Invalid Java source" ++ (place.elim "" fun place =>
      " (line " ++ toString place.line ++ ", column " ++ toString place.column ++ ")")

namespace SyntaxError

/--
The error of a source that cannot be read.  Its place would be that of the first node that a reader
has put in or skipped in order to go on; reading stops here instead, so the error has none.
-/
def unreadable : SyntaxError := .ungrammatical none

end SyntaxError

namespace SourceUnit

/-- The phrases of a source and the gap after the last one. -/
def phrases? (source : String) : Option (List Java.Phrase × String) :=
  match Java.Token.scan source with
  | none => none
  | some (tokens, tail) =>
    match Java.readProgram tokens with
    | none => none
    | some phrases => some (phrases, tail)

/-- The tree of a source in which no node is numbered yet. -/
def read? (source : String) (path : Option String) : Option SourceUnit :=
  (phrases? source).map fun (phrases, tail) =>
    { id := 0, lead := "", members := phrases.map Java.Member.ofTopLevel, tail, path }

/-- The tree of a source, its nodes numbered from the given number on. -/
def parse (source : String) (path : Option String) (next : Nat) :
    Except SyntaxError (SourceUnit × Nat) :=
  match read? source path with
  | some unit => .ok (unit.numbered.run next)
  | none => .error .unreadable

end SourceUnit

end JupiterMigration
