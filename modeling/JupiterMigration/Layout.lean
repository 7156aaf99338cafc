import JupiterMigration.Text.Escaped
import JupiterMigration.Text.Search
import JupiterMigration.Tree.Node

/-!
# Indentation

New code is written from the first column on and shifted to the column it is put into; statements
that move into a lambda body are shifted from their old column to one unit inside it.  The unit of
a file is read off its first indented member or statement.

`shift` and `shiftFrom` put spaces and tabs before lines.  `reindent` and `rebase` do the same with
an indentation that is written with escapes, and so may fail; they agree with the former where it
holds no backslash.
-/

namespace JupiterMigration

namespace Layout

/-- A space or a tab. -/
def isIndent (c : Char) : Bool :=
  c == ' ' || c == '\t'

/-- What follows the last line feed. -/
def lastLine (text : List Char) : List Char :=
  (text.reverse.takeWhile (· != '\n')).reverse

/-- The spaces and tabs that the last line of a text begins with. -/
def indentation (text : String) : String :=
  String.ofList ((lastLine text.toList).takeWhile isIndent)

/-- Puts `indent` before every line after the first, except empty lines. -/
def shiftChars (indent : List Char) : List Char → List Char
  | [] => []
  | '\n' :: c :: rest =>
    if c = '\n' then '\n' :: shiftChars indent (c :: rest)
    else '\n' :: (indent ++ shiftChars indent (c :: rest))
  | c :: rest => c :: shiftChars indent rest

/-- The text with `indent` before every line after the first, except empty lines. -/
def shift (text indent : String) : String :=
  String.ofList (shiftChars indent.toList text.toList)

/-- The text with `new` in place of `old` at the beginning of every line after the first. -/
def replaceIndent (text old new : String) : String :=
  Text.replaceAll text ("\n" ++ old) ("\n" ++ new)

/-- The lines after the first moved to another indentation; from none, empty lines stay empty. -/
def shiftFrom (text old new : String) : String :=
  if old.isEmpty then shift text new else replaceIndent text old new

/--
The text with an indentation before every line after the first, except empty lines.  The
indentation is part of what takes the place of a line feed, and is written with escapes.
-/
def reindent (text indent : String) : Except Text.EscapeFault String :=
  if indent.isEmpty then .ok text
  else (Text.expand "\n" ("\n" ++ indent)).map fun written =>
    String.ofList (shiftChars (written.toList.drop 1) text.toList)

/--
The lines after the first moved to another indentation; from none, empty lines stay empty and the
new indentation is written with escapes.
-/
def rebase (text old new : String) : Except Text.EscapeFault String :=
  if old.isEmpty then reindent text new else .ok (replaceIndent text old new)

/-- Shifting by nothing changes nothing. -/
theorem shiftChars_nil (text : List Char) : shiftChars [] text = text := by
  fun_induction shiftChars [] text <;> simp_all

/-- An indentation without a backslash is written as it is. -/
theorem reindent_of_not_mem (text : String) {indent : String} (unescaped : '\\' ∉ indent.toList) :
    reindent text indent = .ok (shift text indent) := by
  by_cases blank : indent = ""
  · simp [reindent, shift, blank, shiftChars_nil]
  · simp [reindent, shift, blank, Text.expand_of_not_mem, unescaped, Except.map]

/-- An indentation without a backslash is written as it is. -/
theorem rebase_of_not_mem (text old : String) {new : String} (unescaped : '\\' ∉ new.toList) :
    rebase text old new = .ok (shiftFrom text old new) := by
  by_cases blank : old.isEmpty = true
  · simp [rebase, shiftFrom, blank, reindent_of_not_mem text unescaped]
  · simp [rebase, shiftFrom, blank]

/-- What an indentation has beyond another one, if it extends it. -/
def beyond? (outer inner : String) : Option String :=
  if outer.length < inner.length && Text.beginsWith inner outer then
    some (String.ofList (inner.toList.drop outer.length))
  else none

/-- The indentation used where a file shows none. -/
def defaultUnit : String := "    "

/-- The column of the first statement of a method, if it has one. -/
def firstStatement? : Member → Option Statement
  | .method decl => decl.body.bind fun block => block.statements.head?
  | _ => none

/-- The unit that a member shows: beyond its class, or of its first statement beyond itself. -/
def unitOfMember? (classIndent : String) (member : Member) : Option String :=
  let memberIndent := indentation member.lead
  (beyond? classIndent memberIndent).or
    ((firstStatement? member).bind fun statement =>
      beyond? memberIndent (indentation statement.lead))

/-- The column of a class. -/
def classIndent (head : ClassHead) : String :=
  indentation (if head.annotations.isEmpty then head.lead else head.declLead)

/-- The unit that a top level class shows. -/
def unitOfClass? : Member → Option String
  | .classDecl head members => members.findSome? (unitOfMember? (classIndent head))
  | _ => none

/-- The unit of indentation of a file. -/
def detectUnit (unit : SourceUnit) : String :=
  (unit.members.findSome? unitOfClass?).getD defaultUnit

end Layout

/-- A layout: the unit of indentation in use. -/
structure Layout where
  unit : String
  deriving DecidableEq, Repr

namespace Layout

/-- The layout of a file, unless another unit is asked for. -/
def ofUnit (source : SourceUnit) (override : Option String) : Layout :=
  match override with
  | some unit => ⟨if unit.isEmpty then detectUnit source else unit⟩
  | none => ⟨detectUnit source⟩

/-- The column of the members of a class. -/
def memberIndent (layout : Layout) (decl : ClassDecl) : String :=
  match decl.members with
  | first :: _ => indentation first.lead
  | [] => classIndent decl.toClassHead ++ layout.unit

/-- The column of the statements of a method: one unit inside it if they share its line. -/
def statementIndent (layout : Layout) (method : Method) (memberIndent : String) : String :=
  match firstStatement? (.method method) with
  | some first =>
    if first.lead.toList.contains '\n' then indentation first.lead
    else memberIndent ++ layout.unit
  | none => memberIndent ++ layout.unit

/-- A text that begins with line feeds begins with only one. -/
def joinLineFeeds : List Char → List Char
  | '\n' :: rest => '\n' :: rest.dropWhile (· == '\n')
  | text => text

/-- Statements as the body of a lambda that is written from the first column on. -/
def lambdaBody (layout : Layout) (statements : List Statement) (indent : String) : String :=
  let body := String.join (statements.map fun statement =>
    shiftFrom statement.print indent layout.unit)
  String.ofList (joinLineFeeds body.toList)

end Layout

end JupiterMigration
