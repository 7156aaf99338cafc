import JupiterMigration.Configuration.Validation
import JupiterMigration.Files.Tree
import JupiterMigration.Journal
import JupiterMigration.Text.Utf8
import JupiterMigration.Toml.Document

/-!
# The configuration of a project

A project is configured by the nearest project file: the one in a directory, or else in the
directory above it, and so on.  Its settings stand in the table `tool.junit_switcheroo`; settings
that are asked for explicitly take their place.
-/

namespace JupiterMigration

/-- What stands where the settings of a project should stand. -/
inductive MisplacedValue where
  /-- A value of this kind in place of the table of all tools. -/
  | tools (kind : String)
  /-- A value of this kind in place of the table of settings. -/
  | settings (kind : String)
  /-- A text in which the name of a setting occurs, in place of the table of settings. -/
  | settingsText
  /-- A list in which the name of a setting occurs, in place of the table of settings. -/
  | settingsList
  deriving DecidableEq, Repr

/-- The wording of a misplaced value. -/
def MisplacedValue.message : MisplacedValue → String
  | tools kind => "'" ++ kind ++ "' object has no attribute 'get'"
  | settings kind => "argument of type '" ++ kind ++ "' is not iterable"
  | settingsText => "string indices must be integers, not 'str'"
  | settingsList => "list indices must be integers or slices, not str"

/-- Why there is no configuration. -/
inductive LoadError where
  | invalid (errors : List SettingError)
  | undecodable (fault : Text.Utf8Fault)
  | misplaced (value : MisplacedValue)
  deriving DecidableEq, Repr

namespace Configuration

/-- The name of a project file. -/
def projectFileName : String := "pyproject.toml"

/-- The names of the settings. -/
def settingNames : List String := ["recipes", "indent", "workers", "include", "strict_mode"]

/-! ## Where the project file is -/

/-- The location that names lead to, whether something is there or not. -/
def resolve (location : Location) : List String → Option Location
  | [] => some location
  | name :: rest =>
    if name = ".." then
      if location = [] then none else resolve location.dropLast rest
    else resolve (location ++ [name]) rest

/-- A directory and those above it, from the inside. -/
def outwards (location : Location) : List Location :=
  (List.range (location.length + 1)).reverse.map location.take

/-- The location of the project file that is nearest to a path. -/
def nearestProjectFile? (tree : FileTree) (start : Path) : Option Location :=
  match if start.anchor.isEmpty then resolve [] start.names else none with
  | none => none
  | some location =>
    ((outwards location).map (· ++ [projectFileName])).find? fun file =>
      (tree.content? file).isSome

/-! ## What it says -/

/-- The settings that are not a table, of which only some names are looked up. -/
def readNoTable (names : List String) (found : Setting) :
    Except MisplacedValue (List (String × Setting)) :=
  match found with
  | .text content =>
    if names.any (Text.contains content) then .error .settingsText else .ok []
  | .list items =>
    let texts := items.filterMap Setting.text?
    if names.any texts.contains then .error .settingsList else .ok []
  | other => if names.isEmpty then .ok [] else .error (.settings other.kindName)

/-- The settings of a project file, of which only some names are looked up. -/
def projectSettings (names : List String) (file : Toml.Table) :
    Except MisplacedValue (List (String × Setting)) :=
  match file.lookup "tool" with
  | none => .ok []
  | some (.table tools) =>
    match tools.lookup "junit_switcheroo" with
    | none => .ok []
    | some (.table settings) => .ok settings
    | some other => readNoTable names other
  | some other => .error (.tools other.kindName)

/-- A configuration or the reason why there is none, and what is worth saying about it. -/
structure Loading where
  log : List LogRecord
  result : Except LoadError Configuration

/--
The configuration that settings make: those asked for explicitly, and those of a project file for
what is not asked for or asked for with nothing.
-/
def combine (explicit : List (String × Setting)) (file : Toml.Table) :
    Except LoadError Configuration :=
  let asked := explicit.filter fun entry => !(entry.2 matches .null)
  let others := settingNames.filter fun name => (asked.lookup name).isNone
  match projectSettings others file with
  | .error value => .error (.misplaced value)
  | .ok settings =>
    match ofSettings (asked ++ settings) with
    | .error errors => .error (.invalid errors)
    | .ok configuration => .ok configuration

/--
The configuration for a directory.  `root` is the path of the working directory as messages show it.
-/
def load (root : String) (tree : FileTree) (start : Path) (explicit : List (String × Setting)) :
    Loading :=
  match nearestProjectFile? tree start with
  | none => ⟨[], combine explicit []⟩
  | some file =>
    match Text.decode ((tree.content? file).getD .empty) with
    | .error fault => ⟨[], .error (.undecodable fault)⟩
    | .ok text =>
      match Toml.read? text with
      | some table => ⟨[], combine explicit table⟩
      | none =>
        let path := root ++ "/" ++ "/".intercalate file
        ⟨[⟨.warning, "Ignoring unreadable " ++ path⟩], combine explicit []⟩

end Configuration

end JupiterMigration
