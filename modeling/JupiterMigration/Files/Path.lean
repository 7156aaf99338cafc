import JupiterMigration.Text.Search

/-!
# Paths

A path leads from the working directory, or from the root of all files, through directories by
their names; the name `..` leads back to the directory above.
-/

namespace JupiterMigration

/-- A path without empty names and without the name `.`, which stays where it is. -/
structure Path where
  /-- The slashes that a path from the root of all files begins with; nothing otherwise. -/
  anchor : String
  names : List String
  deriving DecidableEq, Repr

namespace Path

/-- The path to the working directory. -/
def here : Path := ⟨"", []⟩

/-- The slashes that stand for a number of slashes in front: two are kept, more count as one. -/
def anchorOf : Nat → String
  | 0 => ""
  | 2 => "//"
  | _ => "/"

/-- The path that a text shows. -/
def ofString (text : String) : Path where
  anchor := anchorOf (text.toList.takeWhile (· == '/')).length
  names := (Text.splitOn text "/").filter fun name => !name.isEmpty && name != "."

/-- The text of a path. -/
def text (path : Path) : String :=
  let shown := path.anchor ++ "/".intercalate path.names
  if shown.isEmpty then "." else shown

/-- The path without its last name. -/
def parent (path : Path) : Path :=
  { path with names := path.names.dropLast }

/-- The path that goes on with further names. -/
def below (path : Path) (names : List String) : Path :=
  { path with names := path.names ++ names }

/-- Going on with no name stays at a path. -/
@[simp]
theorem below_nil (path : Path) : path.below [] = path := by
  simp [below]

/-- Going on twice is going on with all the names. -/
@[simp]
theorem below_below (path : Path) (first second : List String) :
    (path.below first).below second = path.below (first ++ second) := by
  simp [below]

/-- Going on with one name and back leads to the same path. -/
@[simp]
theorem parent_below_singleton (path : Path) (name : String) :
    (path.below [name]).parent = path := by
  simp [below, parent]

end Path

end JupiterMigration
