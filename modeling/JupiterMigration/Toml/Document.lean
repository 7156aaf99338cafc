import JupiterMigration.Text.Search
import JupiterMigration.Toml.Value

/-!
# TOML documents

A document is a list of statements, each on a line of its own: a key with its value, or the header
of the table that the following keys belong to.  A table is opened once, and what has been set is
not set again.
-/

namespace JupiterMigration.Toml

/-- A document as far as it has been read. -/
structure Document where
  table : Table
  /-- The key of the table that the next keys belong to. -/
  header : List String
  /-- The keys of the tables that no header may open any more. -/
  opened : List (List String)
  /-- The keys of the tables that no header after this one may open. -/
  entered : List (List String)
  /-- The keys of lists and tables that stand as values. -/
  complete : List (List String)

namespace Document

/-- The document in which nothing has been read. -/
def empty : Document := ⟨[], [], [], [], []⟩

/-- Opens a table by its header. -/
def openTable (document : Document) (key : List String) : Option Document := do
  let opened := document.opened ++ document.entered
  if opened.contains key || covers document.complete key then none
  let table ← Table.changeAt some key document.table
  return { document with table, header := key, opened := key :: opened, entered := [] }

/-- Adds a table at the end of a list of tables. -/
def appendTable (last : String) (table : Table) : Option Table :=
  match table.lookup last with
  | none => some (Setting.setEntry last (.list [.table []]) table)
  | some (.list items) => some (Setting.setEntry last (.list (items ++ [.table []])) table)
  | some _ => none

/-- The keys that do not lead to the given key or below it. -/
def outside (key : List String) (keys : List (List String)) : List (List String) :=
  keys.filter fun other => !key.isPrefixOf other

/-- Opens a further table of a list by its header. -/
def openItem (document : Document) (key : List String) : Option Document := do
  if covers document.complete key then none
  let last ← key.getLast?
  let table ← Table.changeAt (appendTable last) key.dropLast document.table
  return { document with
    table
    header := key
    opened := key :: outside key (document.opened ++ document.entered)
    entered := []
    complete := outside key document.complete }

/-- The keys of the tables that a key leads through. -/
def passed (header key : List String) : List (List String) :=
  (List.range (key.length - 1)).map fun count => header ++ key.take (count + 1)

/-- Sets the value of a key in the open table. -/
def set (document : Document) (key : List String) (value : Setting) : Option Document := do
  let through := passed document.header key
  if through.any document.opened.contains then none
  if covers document.complete (document.header ++ key.dropLast) then none
  let table ← document.table.setKey (document.header ++ key) value
  return { document with
    table
    entered := document.entered ++ through
    complete :=
      if isComposite value then (document.header ++ key) :: document.complete
      else document.complete }

/-! ## Reading -/

/-- Reads a statement. -/
def statement (document : Document) : List Char → Option (Document × List Char)
  | '[' :: '[' :: rest => do
    let (key, rest) ← key (skipGap rest)
    return (← document.openItem key, ← expect ']' (← expect ']' rest))
  | '[' :: rest => do
    let (key, rest) ← key (skipGap rest)
    return (← document.openTable key, ← expect ']' rest)
  | text => do
    let (key, rest) ← key text
    let (value, rest) ← value (skipGap (← expect '=' rest))
    return (← document.set key value, rest)

/-- The characters of the next line, after a gap or a comment at most. -/
def nextLine (text : List Char) : Option (List Char) :=
  match skipGap text with
  | [] => some []
  | '\n' :: rest => some rest
  | '#' :: rest =>
    let comment := rest.takeWhile (· != '\n')
    if comment.any isForbidden then none else some (rest.drop (comment.length + 1))
  | _ => none

/-- Reads a limited number of lines. -/
def readLines : Nat → Document → List Char → Option Document
  | 0, _, _ => none
  | limit + 1, document, text =>
    match skipGap text with
    | [] => some document
    | '\n' :: rest => readLines limit document rest
    | '#' :: rest => do readLines limit document (← nextLine ('#' :: rest))
    | line => do
      let (document, rest) ← document.statement line
      readLines limit document (← nextLine rest)

end Document

/-- The entries of a document; nothing if it cannot be read. -/
def read? (text : String) : Option Table :=
  let characters := (Text.replaceAll text "\r\n" "\n").toList
  (Document.readLines (characters.length + 1) .empty characters).map Document.table

end JupiterMigration.Toml
