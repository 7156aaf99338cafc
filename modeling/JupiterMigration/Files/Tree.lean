import JupiterMigration.Files.Path
import JupiterMigration.Text.Quoted

/-!
# Trees of files

A tree of files holds what stands below a working directory.  Its entries are found by location:
the names that lead to an entry, without detours.  A path is located name by name, and every name
but the last must lead to a directory.

The view of a tree is `find?`; `find?_put` says what storing an entry does to it.
-/

namespace JupiterMigration

/-- The names that lead from the working directory to an entry. -/
abbrev Location := List String

/-- What stands at a location. -/
inductive Entry where
  | directory
  | file (content : ByteArray)

/-- Whether an entry is a directory. -/
def Entry.isDirectory : Entry → Bool
  | .directory => true
  | .file _ => false

/-- Why something cannot be done with a path. -/
inductive FileProblem where
  | missing
  | alreadyThere
  | noDirectory
  | isDirectory
  deriving DecidableEq, Repr

/-- The wording of a problem with its number. -/
def FileProblem.message : FileProblem → String
  | missing => "[Errno 2] No such file or directory"
  | alreadyThere => "[Errno 17] File exists"
  | noDirectory => "[Errno 20] Not a directory"
  | isDirectory => "[Errno 21] Is a directory"

/-- A path that something cannot be done with. -/
structure FileError where
  problem : FileProblem
  path : Path
  deriving DecidableEq, Repr

/-- The wording of an error. -/
def FileError.message (error : FileError) : String :=
  error.problem.message ++ ": " ++ Text.quoted error.path.text

/-- The entries below a working directory, each at its location. -/
structure FileTree where
  entries : List (Location × Entry)

namespace FileTree

/-- The tree without entries. -/
def empty : FileTree := ⟨[]⟩

/-- The entry at a location; the working directory is always there. -/
def find? (tree : FileTree) (location : Location) : Option Entry :=
  if location = [] then some .directory else tree.entries.lookup location

/-- The content of the file at a location. -/
def content? (tree : FileTree) (location : Location) : Option ByteArray :=
  match tree.find? location with
  | some (.file content) => some content
  | _ => none

/-- Stores an entry, in place of the one at its location if there is one. -/
def put (tree : FileTree) (location : Location) (entry : Entry) : FileTree :=
  ⟨tree.entries.filter (fun stored => stored.1 != location) ++ [(location, entry)]⟩

/-- A list of entries without those at a location, and with one there, looks the same elsewhere. -/
theorem lookup_replaced (entries : List (Location × Entry)) (location other : Location)
    (entry : Entry) :
    (entries.filter (fun stored => stored.1 != location) ++ [(location, entry)]).lookup other =
      if other = location then some entry else entries.lookup other := by
  induction entries with
  | nil => by_cases same : other = location <;> simp [List.lookup_cons, same, beq_eq_false_iff_ne.2]
  | cons stored rest ih =>
    obtain ⟨key, value⟩ := stored
    by_cases removed : key = location
    · subst removed
      simp only [List.filter, bne_self_eq_false, ih, List.lookup_cons]
      split
      · rfl
      · next differs => rw [beq_eq_false_iff_ne.2 differs]
    · simp only [List.filter, bne_iff_ne.2 removed, List.cons_append, List.lookup_cons, ih]
      cases found : other == key
      · rfl
      · simp [beq_iff_eq.1 found, removed]

/-- What is stored at a location is found there, and nothing changes at any other one. -/
theorem find?_put (tree : FileTree) (location other : Location) (entry : Entry)
    (inside : location ≠ []) :
    (tree.put location entry).find? other =
      if other = location then some entry else tree.find? other := by
  unfold find? put
  rw [lookup_replaced]
  by_cases top : other = []
  · simp [top, Ne.symm inside]
  · simp [top]

/-! ## Paths in a tree -/

/-- The location that names lead to from a location on. -/
def follow (tree : FileTree) (location : Location) : List String → Except FileProblem Location
  | [] => .ok location
  | name :: rest =>
    match tree.find? location with
    | none => .error .missing
    | some (.file _) => .error .noDirectory
    | some .directory =>
      if name = ".." then
        if location = [] then .error .missing else tree.follow location.dropLast rest
      else tree.follow (location ++ [name]) rest

/-- The location that a path leads to; paths that leave the working directory lead nowhere. -/
def locate (tree : FileTree) (path : Path) : Except FileError Location :=
  if path.anchor.isEmpty then
    match tree.follow [] path.names with
    | .ok location => .ok location
    | .error problem => .error ⟨problem, path⟩
  else .error ⟨.missing, path⟩

/-- The entry that a path leads to. -/
def findAt? (tree : FileTree) (path : Path) : Option Entry :=
  match tree.locate path with
  | .ok location => tree.find? location
  | .error _ => none

/-- Whether a path leads to something. -/
def contains (tree : FileTree) (path : Path) : Bool :=
  (tree.findAt? path).isSome

/-- Whether a path leads to a file. -/
def isFile (tree : FileTree) (path : Path) : Bool :=
  tree.findAt? path matches some (.file _)

/-- Whether a path leads to a directory. -/
def isDirectory (tree : FileTree) (path : Path) : Bool :=
  tree.findAt? path matches some .directory

/-- The content of the file that a path leads to. -/
def read (tree : FileTree) (path : Path) : Except FileError ByteArray := do
  match tree.find? (← tree.locate path) with
  | some (.file content) => return content
  | some .directory => throw ⟨.isDirectory, path⟩
  | none => throw ⟨.missing, path⟩

/-- Writes a file in a directory that is there. -/
def write (tree : FileTree) (path : Path) (content : ByteArray) : Except FileError FileTree := do
  let location ← tree.locate path
  match tree.find? location with
  | some .directory => throw ⟨.isDirectory, path⟩
  | _ => return tree.put location (.file content)

/-- Makes a directory in a directory that is there. -/
def makeDirectory (tree : FileTree) (path : Path) : Except FileError FileTree := do
  let location ← tree.locate path
  match tree.find? location with
  | some _ => throw ⟨.alreadyThere, path⟩
  | none => return tree.put location .directory

/-- Makes a directory unless it is there. -/
def ensureDirectory (tree : FileTree) (path : Path) : Except FileError FileTree :=
  match tree.makeDirectory path with
  | .ok changed => .ok changed
  | .error error => if tree.isDirectory path then .ok tree else .error error

/-- Makes a directory unless it is there, and the directories that lead to it. -/
def ensureDirectories (tree : FileTree) (path : Path) : Except FileError FileTree :=
  match tree.makeDirectory path with
  | .ok changed => .ok changed
  | .error error =>
    if tree.isDirectory path then .ok tree
    else if _missing : error.problem = .missing ∧ path.names ≠ [] then do
      let changed ← tree.ensureDirectories path.parent
      changed.ensureDirectory path
    else .error error
  termination_by path.names.length
  decreasing_by
    have := List.length_pos_iff.2 _missing.2
    simp only [Path.parent, List.length_dropLast]
    omega

/-! ## What a directory holds -/

/-- The names in a directory with their entries. -/
def children (tree : FileTree) (location : Location) : List (String × Entry) :=
  tree.entries.filterMap fun (place, entry) =>
    match place.getLast? with
    | some name => if place.dropLast = location then some (name, entry) else none
    | none => none

/-- The directories below a directory, each by the names that lead there; the directory is one. -/
def directoriesBelow (tree : FileTree) (location : Location) : List (List String) :=
  [] :: tree.entries.filterMap fun (place, entry) =>
    match entry with
    | .directory =>
      if location.isPrefixOf place && location.length < place.length then
        some (place.drop location.length)
      else none
    | .file _ => none

/-! ## Building a tree -/

/-- Adds a file and the directories that lead to it. -/
def addFile (tree : FileTree) (path : Path) (content : ByteArray) : Except FileError FileTree := do
  (← tree.ensureDirectories path.parent).write path content

/-- The files of a tree that have another content in an earlier one, or are not there. -/
def changedSince (tree earlier : FileTree) : List (Location × ByteArray) :=
  tree.entries.filterMap fun (location, entry) =>
    match entry with
    | .file content =>
      if (earlier.content? location).map ByteArray.data = some content.data then none
      else some (location, content)
    | .directory => none

end FileTree

end JupiterMigration
