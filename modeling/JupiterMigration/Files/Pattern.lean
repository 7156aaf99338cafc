import JupiterMigration.Files.Tree

/-!
# File patterns

A file pattern selects files below a directory.  Its parts stand between slashes: `**` is any number
of directories, a part with one of `*`, `?` and `[` is a wildcard for one name, and any other part
is a name.

In a wildcard, `*` stands for any characters, `?` for one, and brackets for one out of a set, or
out of all others if the set begins with an exclamation mark.  A bracket that is not closed is a
character like any other.
-/

namespace JupiterMigration

/-- A piece of a wildcard. -/
inductive WildcardPiece where
  | anyText
  | anyCharacter
  | literal (c : Char)
  /-- One character inside one of the ranges, or outside all of them. -/
  | ranges (outside : Bool) (ranges : List (Char × Char))
  deriving DecidableEq, Repr

namespace WildcardPiece

/-! ## Sets of characters -/

/--
The chunks that hyphens cut the members of a set into.  A hyphen cuts only between two members that
belong to no range yet, so none does before `skip` further characters.
-/
def chunksFrom : Nat → List Char → List (List Char)
  | _, [] => [[]]
  | 0, c :: rest =>
    if c = '-' then [] :: chunksFrom 2 rest else Text.pushFirst c (chunksFrom 0 rest)
  | skip + 1, c :: rest => Text.pushFirst c (chunksFrom skip rest)

/-- The chunks of a set; a hyphen at the end is a member. -/
def chunks (members : List Char) : List (List Char) :=
  let found := chunksFrom (if members.head? = some '!' then 2 else 1) members
  match found.reverse with
  | [] :: last :: before => ((last ++ ['-']) :: before).reverse
  | _ => found

/-- Drops the ranges between chunks that hold no character. -/
def withoutEmptyRanges : List (List Char) → List (List Char)
  | [] => []
  | chunk :: rest =>
    match withoutEmptyRanges rest with
    | next :: more =>
      match chunk.getLast?, next with
      | some low, high :: following =>
        if high < low then (chunk.dropLast ++ following) :: more else chunk :: next :: more
      | _, _ => chunk :: next :: more
    | [] => [chunk]

/-- The ranges that chunks stand for: one between two chunks, and one for every other member. -/
def rangesOf : List (List Char) → List (Char × Char)
  | [] => []
  | chunk :: rest =>
    let single := chunk.map fun c => (c, c)
    match chunk.getLast?, rest with
    | some low, (high :: _) :: _ => (low, high) :: single ++ rangesOf rest
    | none, _ :: _ => ('-', '-') :: rangesOf rest
    | _, _ => single ++ rangesOf rest

/-- The piece that the members of a set in brackets stand for. -/
def ofSet (members : List Char) : WildcardPiece :=
  match withoutEmptyRanges (chunks members) with
  | ('!' :: chunk) :: rest => .ranges true (rangesOf (chunk :: rest))
  | found => .ranges false (rangesOf found)

/-- The length of the set that a text begins with, up to the closing bracket; none without one. -/
def setLength? (text : List Char) : Option Nat :=
  let marks := if text.head? = some '!' then 1 else 0
  let first := if (text.drop marks).head? = some ']' then marks + 1 else marks
  let others := (text.drop first).takeWhile (· != ']')
  if first + others.length < text.length then some (first + others.length) else none

/-! ## Wildcards -/

/-- The pieces of a wildcard after `skip` characters. -/
def ofTextFrom : Nat → List Char → List WildcardPiece
  | _, [] => []
  | skip + 1, _ :: rest => ofTextFrom skip rest
  | 0, c :: rest =>
    match c with
    | '*' => .anyText :: ofTextFrom 0 rest
    | '?' => .anyCharacter :: ofTextFrom 0 rest
    | '[' =>
      match setLength? rest with
      | some length => ofSet (rest.take length) :: ofTextFrom (length + 1) rest
      | none => .literal '[' :: ofTextFrom 0 rest
    | _ => .literal c :: ofTextFrom 0 rest

/-- The pieces of a wildcard. -/
def ofText (text : String) : List WildcardPiece :=
  ofTextFrom 0 text.toList

/-- Whether a piece stands for a character. -/
def accepts (c : Char) : WildcardPiece → Bool
  | anyText => true
  | anyCharacter => true
  | literal expected => c = expected
  | ranges outside found => found.any (fun (low, high) => low ≤ c && c ≤ high) != outside

/-- Whether pieces stand for a whole text. -/
def match? : List WildcardPiece → List Char → Bool
  | [], text => text.isEmpty
  | .anyText :: pieces, [] => match? pieces []
  | .anyText :: pieces, c :: rest => match? pieces (c :: rest) || match? (.anyText :: pieces) rest
  | _ :: _, [] => false
  | piece :: pieces, c :: rest => piece.accepts c && match? pieces rest

end WildcardPiece

/-- A part of a file pattern. -/
inductive PatternPart where
  | anyDirectories
  | name (name : String)
  | wildcard (pieces : List WildcardPiece)
  deriving DecidableEq, Repr

/-- A pattern of files. -/
structure FilePattern where
  parts : List PatternPart
  /-- Whether a slash at the end asks for directories. -/
  onlyDirectories : Bool
  deriving DecidableEq, Repr

/-- Why a text is no file pattern. -/
inductive PatternError where
  | empty
  | fromRoot
  | noParts
  | partialStars
  deriving DecidableEq, Repr

/-- The wording of an error. -/
def PatternError.message : PatternError → String
  | empty => "Unacceptable pattern: ''"
  | fromRoot => "Non-relative patterns are unsupported"
  | noParts => "tuple index out of range"
  | partialStars => "Invalid pattern: '**' can only be an entire path component"

/-- The part of a pattern that a text shows. -/
def PatternPart.ofText (text : String) : Except PatternError PatternPart :=
  if text = "**" then .ok .anyDirectories
  else if Text.contains text "**" then .error .partialStars
  else if text.toList.any fun c => c == '*' || c == '?' || c == '[' then
    .ok (.wildcard (WildcardPiece.ofText text))
  else .ok (.name text)

/-- The pattern that a text shows. -/
def FilePattern.parse (text : String) : Except PatternError FilePattern := do
  if text.isEmpty then throw .empty
  let path := Path.ofString text
  if path.anchor ≠ "" then throw .fromRoot
  let parts ← path.names.mapM PatternPart.ofText
  let onlyDirectories := text.toList.getLast? = some '/'
  if parts.isEmpty && !onlyDirectories then throw .noParts
  return ⟨parts, onlyDirectories⟩

namespace FileTree

/-- Whether a path leads to something, and to a directory if that is asked for. -/
def containsFor (tree : FileTree) (directory : Bool) (path : Path) : Bool :=
  if directory then tree.isDirectory path else tree.contains path

/--
The names that lead from a directory to what the parts of a pattern select, going on from names
that have been followed.  `directory` tells whether the last part has to be a directory.
-/
def select (tree : FileTree) (root : Path) (directory : Bool) :
    List PatternPart → List String → List (List String)
  | [], names => [names]
  | .name name :: rest, names =>
    let next := names ++ [name]
    if tree.containsFor (directory || !rest.isEmpty) (root.below next) then
      tree.select root directory rest next
    else []
  | .wildcard pieces :: rest, names =>
    match tree.locate (root.below names) with
    | .error _ => []
    | .ok location =>
      (tree.children location).flatMap fun (name, entry) =>
        if (entry.isDirectory || !(directory || !rest.isEmpty)) &&
            WildcardPiece.match? pieces name.toList then
          tree.select root directory rest (names ++ [name])
        else []
  | .anyDirectories :: rest, names =>
    match tree.locate (root.below names) with
    | .error _ => []
    | .ok location =>
      ((tree.directoriesBelow location).flatMap fun more =>
        tree.select root directory rest (names ++ more)).eraseDups

/-- Whether names come before others, or are the same: the first ones that differ decide. -/
def notAfter : List String → List String → Bool
  | [], _ => true
  | _ :: _, [] => false
  | name :: rest, other :: others =>
    if name = other then notAfter rest others else decide (name < other)

/-- The names that lead from a directory to the files that a pattern selects, in order. -/
def filesMatching (tree : FileTree) (root : Path) (pattern : FilePattern) : List (List String) :=
  ((tree.select root pattern.onlyDirectories pattern.parts []).filter fun names =>
    tree.isFile (root.below names)).mergeSort notAfter

end FileTree

end JupiterMigration
