import JupiterMigration.Toml.Scalar

/-!
# Values of TOML documents

A value is a text, a truth value, a moment, a number, a list, or a table on one line.  `Table` says
how a key with several names is set: each name but the last leads to a table within.
-/

namespace JupiterMigration.Toml

/-- The entries of a table. -/
abbrev Table := List (String × Setting)

namespace Table

/--
Changes the table that names lead to; tables that are not there are made.  A list of tables leads
to its last one.
-/
def changeAt (change : Table → Option Table) : List String → Table → Option Table
  | [], table => change table
  | name :: rest, table =>
    match table.lookup name with
    | none => (changeAt change rest []).map fun made => Setting.setEntry name (.table made) table
    | some (.table inner) =>
      (changeAt change rest inner).map fun changed => Setting.setEntry name (.table changed) table
    | some (.list items) =>
      match items.getLast? with
      | some (.table inner) =>
        (changeAt change rest inner).map fun changed =>
          Setting.setEntry name (.list (items.dropLast ++ [.table changed])) table
      | _ => none
    | some _ => none

/-- Sets what is not set yet. -/
def setNew (name : String) (value : Setting) (table : Table) : Option Table :=
  if (table.lookup name).isSome then none else some (Setting.setEntry name value table)

/-- Sets the value of a key that is not set yet. -/
def setKey (key : List String) (value : Setting) (table : Table) : Option Table :=
  match key.getLast? with
  | some last => changeAt (setNew last value) key.dropLast table
  | none => none

end Table

/-- Whether a value is complete where it stands: nothing is added to lists and tables later. -/
def isComposite : Setting → Bool
  | .list _ => true
  | .table _ => true
  | _ => false

/-- Whether one of the keys leads to the given key or stands above it. -/
def covers (keys : List (List String)) (key : List String) : Bool :=
  keys.any fun above => above.isPrefixOf key

/-- The characters after blank lines and comments, the first of which may have begun. -/
def skipLines (comment : Bool) : List Char → Option (List Char)
  | [] => some []
  | c :: rest =>
    if comment then
      if c == '\n' then skipLines false rest
      else if isForbidden c then none
      else skipLines true rest
    else if c == '#' then skipLines true rest
    else if isGap c || c == '\n' then skipLines false rest
    else some (c :: rest)

mutual

/-- Reads a value; its parts are read within a limit. -/
def valueWithin : Nat → List Char → Option (Setting × List Char)
  | 0, _ => none
  | limit + 1, found =>
    match found with
    | '"' :: _ => (text found).map fun (content, rest) => (.text content, rest)
    | '\'' :: _ => (text found).map fun (content, rest) => (.text content, rest)
    | 't' :: 'r' :: 'u' :: 'e' :: rest => some (.boolean true, rest)
    | 'f' :: 'a' :: 'l' :: 's' :: 'e' :: rest => some (.boolean false, rest)
    | '[' :: rest => do
      let (items, rest) ← itemsWithin limit (← skipLines false rest)
      return (.list items, rest)
    | '\x7b' :: rest =>
      match skipGap rest with
      | '\x7d' :: rest => some (.table [], rest)
      | rest => do
        let (table, rest) ← entriesWithin limit [] [] rest
        return (.table table, rest)
    | _ => scalar found

/-- Reads the items of a list and its closing bracket. -/
def itemsWithin : Nat → List Char → Option (List Setting × List Char)
  | 0, _ => none
  | limit + 1, found =>
    match found with
    | ']' :: rest => some ([], rest)
    | _ => do
      let (item, rest) ← valueWithin limit found
      match ← skipLines false rest with
      | ']' :: rest => return ([item], rest)
      | ',' :: rest =>
        let (items, rest) ← itemsWithin limit (← skipLines false rest)
        return (item :: items, rest)
      | _ => none

/-- Reads the further entries of a table on one line and its closing brace. -/
def entriesWithin : Nat → Table → List (List String) → List Char → Option (Table × List Char)
  | 0, _, _, _ => none
  | limit + 1, table, complete, found => do
    let (name, rest) ← key found
    let (value, rest) ← valueWithin limit (skipGap (← expect '=' rest))
    if covers complete name then none
    let table ← table.setKey name value
    match skipGap rest with
    | '\x7d' :: rest => return (table, rest)
    | ',' :: rest =>
      entriesWithin limit table (if isComposite value then name :: complete else complete)
        (skipGap rest)
    | _ => none

end

/-- Reads a value. -/
def value (text : List Char) : Option (Setting × List Char) :=
  valueWithin (2 * text.length + 2) text

end JupiterMigration.Toml
