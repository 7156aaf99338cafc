import JupiterMigration.Configuration
import JupiterMigration.Configuration.Setting
import JupiterMigration.Text.Quoted
import JupiterMigration.Text.Blank
import JupiterMigration.Text.Digits
import JupiterMigration.Text.Lowercase

/-!
# From settings to a configuration

Settings are lenient where the meaning is clear: a whole number may be written as a text, and so
may a truth value.  Every invalid setting is reported, in the order of the settings of a
configuration.
-/

namespace JupiterMigration

/-- What is wrong with a setting. -/
inductive SettingProblem where
  | noList
  | noText
  | noInteger
  /-- A text that is no whole number. -/
  | unreadableInteger
  /-- A text with more digits than are read. -/
  | oversizedInteger
  | fractionalInteger
  | infiniteInteger
  /-- A number less than one. -/
  | tooSmall
  | noBoolean
  /-- A text or number that is no truth value. -/
  | unreadableBoolean
  | unknownRecipe (name : String)
  | badIndent (text : String)
  deriving DecidableEq, Repr

/-- The wording of a problem. -/
def SettingProblem.message : SettingProblem → String
  | noList => "Input should be a valid list"
  | noText => "Input should be a valid string"
  | noInteger => "Input should be a valid integer"
  | unreadableInteger =>
    "Input should be a valid integer, unable to parse string as an integer"
  | oversizedInteger => "Unable to parse input string as an integer, exceeded maximum size"
  | fractionalInteger =>
    "Input should be a valid integer, got a number with a fractional part"
  | infiniteInteger => "Input should be a finite number"
  | tooSmall => "Input should be greater than or equal to 1"
  | noBoolean => "Input should be a valid boolean"
  | unreadableBoolean => "Input should be a valid boolean, unable to interpret input"
  | unknownRecipe name =>
    "Value error, Unknown recipe: '" ++ name ++ "'. Available recipes: " ++
      Text.quotedList (Recipe.all.map Recipe.name)
  | badIndent text =>
    "Value error, Indentation must be non-empty spaces or tabs, got " ++ Text.quoted text

/-- An invalid setting: where it stands, and what is wrong with it. -/
structure SettingError where
  /-- The name of the setting, and the position in its list. -/
  location : List String
  problem : SettingProblem
  deriving DecidableEq, Repr

namespace SettingError

/-- How many settings are invalid, in words. -/
def summary (errors : List SettingError) : String :=
  toString errors.length ++ " validation error" ++ (if errors.length = 1 then "" else "s") ++
    " for RuntimeConfig"

end SettingError

namespace Setting

/-! ## Texts -/

/-- The text of a setting. -/
def readText : Setting → Except SettingProblem String
  | text value => .ok value
  | _ => .error .noText

/-! ## Whole numbers -/

/-- The most digits that a whole number is read from. -/
def maxDigits : Nat := 4300

/-- The digits of a number in which single underscores stand between digits. -/
def ungrouped? (digits : List Char) : Option (List Char) :=
  let groups := Text.splitOn (String.ofList digits) "_"
  if groups.all fun group => !group.isEmpty && group.toList.all Text.isDigit then
    some (digits.filter Text.isDigit)
  else none

/-- The text without a point that only zeros follow. -/
def withoutZeroFraction (digits : List Char) : List Char :=
  match digits.dropWhile (· != '.') with
  | '.' :: fraction =>
    if fraction.all (· == '0') then digits.takeWhile (· != '.') else digits
  | _ => digits

/-- The value of unsigned digits. -/
def unsigned (digits : List Char) : Except SettingProblem Nat :=
  match ungrouped? (withoutZeroFraction digits) with
  | none => .error .unreadableInteger
  | some digits =>
    let significant := digits.dropWhile (· == '0')
    if maxDigits < significant.length then .error .oversizedInteger
    else .ok (Text.valueOf 10 significant)

/-- The whole number that a text shows. -/
def integerOfText (value : String) : Except SettingProblem Int :=
  match Text.dropTail Text.isSpace (value.toList.dropWhile Text.isSpace) with
  | '+' :: digits => (unsigned digits).map Int.ofNat
  | '-' :: digits => (unsigned digits).map fun value => -Int.ofNat value
  | digits => (unsigned digits).map Int.ofNat

/-- The whole number that a decimal is, if it has no fraction. -/
def wholeDecimal? (numerator : Int) (scale : Nat) : Option Int :=
  let denominator : Int := Text.powerOfTen scale
  if numerator.emod denominator = 0 then some (numerator.ediv denominator) else none

/-- The whole number of a setting. -/
def readInteger : Setting → Except SettingProblem Int
  | integer value => .ok value
  | boolean value => .ok (if value then 1 else 0)
  | decimal numerator scale =>
    match wholeDecimal? numerator scale with
    | some value => .ok value
    | none => .error .fractionalInteger
  | notFinite => .error .infiniteInteger
  | text value => integerOfText value
  | _ => .error .noInteger

/-! ## Truth values -/

/-- The text with the letters of the alphabet in lower case. -/
def asciiLower (value : String) : String :=
  String.ofList (value.toList.map Char.toLower)

/-- The truth value that a text shows. -/
def booleanOfText (value : String) : Except SettingProblem Bool :=
  let word := asciiLower value
  if ["1", "t", "y", "on", "yes", "true"].contains word then .ok true
  else if ["0", "f", "n", "off", "no", "false"].contains word then .ok false
  else .error .unreadableBoolean

/-- The truth value that a number shows. -/
def booleanOfInteger (value : Int) : Except SettingProblem Bool :=
  if value = 1 then .ok true else if value = 0 then .ok false else .error .unreadableBoolean

/-- The truth value of a setting. -/
def readBoolean : Setting → Except SettingProblem Bool
  | boolean value => .ok value
  | integer value => booleanOfInteger value
  | decimal numerator scale =>
    match wholeDecimal? numerator scale with
    | some value => booleanOfInteger value
    | none => .error .noBoolean
  | text value => booleanOfText value
  | _ => .error .noBoolean

end Setting

namespace Configuration

/-- A setting that has been read, or the errors in it. -/
abbrev Checked (α : Type) := Except (List SettingError) α

/-- The errors of a setting that has been read. -/
def errorsOf {α : Type} : Checked α → List SettingError
  | .error errors => errors
  | .ok _ => []

/-- A result with the place where a problem in it arises. -/
def located {α : Type} (location : List String) : Except SettingProblem α → Checked α
  | .ok value => .ok value
  | .error problem => .error [⟨location, problem⟩]

/-- The texts of a list; every element that is none is reported. -/
def readTexts (name : String) (position : Nat) : List Setting → Checked (List String)
  | [] => .ok []
  | first :: rest =>
    match located [name, toString position] first.readText, readTexts name (position + 1) rest with
    | .ok text, .ok texts => .ok (text :: texts)
    | head, tail => .error (errorsOf head ++ errorsOf tail)

/-- Recipes by name, each at its first place; the name is trimmed and put in lower case. -/
def readRecipes (found : List Recipe) : List String → Except SettingProblem (List Recipe)
  | [] => .ok found
  | name :: rest =>
    let key := Text.trim (Text.lowercase name)
    match Recipe.ofName? key with
    | none => .error (.unknownRecipe key)
    | some recipe => readRecipes (if found.contains recipe then found else found ++ [recipe]) rest

/-- The recipes of a setting. -/
def checkRecipes : Setting → Checked (List Recipe)
  | .list items => do
    let names ← readTexts "recipes" 0 items
    located ["recipes"] (readRecipes [] names)
  | _ => .error [⟨["recipes"], .noList⟩]

/-- Whether a text can be a unit of indentation. -/
def isIndentUnit (text : String) : Bool :=
  !text.isEmpty && text.toList.all fun c => c == ' ' || c == '\t'

/-- The unit of indentation of a setting. -/
def checkIndent : Setting → Checked (Option String)
  | .null => .ok none
  | setting => located ["indent"] (do
    let text ← setting.readText
    if isIndentUnit text then return some text
    throw (.badIndent text))

/-- The number of workers of a setting. -/
def checkWorkers (setting : Setting) : Checked Nat :=
  located ["workers"] (do
    let value ← setting.readInteger
    if value < 1 then throw .tooSmall
    return value.toNat)

/-- The file pattern of a setting. -/
def checkFilePattern (setting : Setting) : Checked String :=
  located ["include"] setting.readText

/-- The strictness of a setting. -/
def checkStrict (setting : Setting) : Checked Bool :=
  located ["strict_mode"] setting.readBoolean

/-- Checks what a name is set to; a name that is not set has a standard value. -/
def checked {α : Type} (settings : List (String × Setting)) (name : String) (standard : α)
    (check : Setting → Checked α) : Checked α :=
  match settings.lookup name with
  | some setting => check setting
  | none => .ok standard

/-- The configuration that settings make; settings of other names are ignored. -/
def ofSettings (settings : List (String × Setting)) : Checked Configuration :=
  let recipes := checked settings "recipes" standard.recipes checkRecipes
  let indent := checked settings "indent" standard.indent checkIndent
  let workers := checked settings "workers" standard.workers checkWorkers
  let filePattern := checked settings "include" standard.filePattern checkFilePattern
  let strict := checked settings "strict_mode" standard.strict checkStrict
  match recipes, indent, workers, filePattern, strict with
  | .ok recipes, .ok indent, .ok workers, .ok filePattern, .ok strict =>
    .ok { recipes, indent, workers, filePattern, strict }
  | recipes, indent, workers, filePattern, strict =>
    .error (errorsOf recipes ++ errorsOf indent ++ errorsOf workers ++ errorsOf filePattern ++
      errorsOf strict)

end Configuration

end JupiterMigration
