import JupiterMigration.Text.Search
import JupiterMigration.Text.Digits

/-!
# Arguments of a command

An argument that begins with a hyphen is an option.  A long option may be cut short as long as it is
the only one of its kind, and its value may follow an equals sign; short options without values
may be written together.  After `--` no argument is an option.

What an option means is for the command to say; here are the names of options and the rules by which
arguments are told apart.
-/

namespace JupiterMigration.CommandLine

/-- The options of all commands. -/
inductive Flag where
  | help
  | version
  | verbose
  | quiet
  | out
  | recipe
  | workers
  | strict
  | diff
  | jsonTrace
  deriving DecidableEq, Repr

/-- Whether an option has a value. -/
def Flag.hasValue : Flag → Bool
  | out | recipe | workers | jsonTrace => true
  | _ => false

/-- The options that a command has, by name. -/
abbrev Flags := List (String × Flag)

/-- A value in the same argument as its option. -/
structure Attachment where
  value : List Char
  /-- Whether an equals sign stands before it. -/
  afterEquals : Bool
  deriving DecidableEq, Repr

/-- An argument in the light of the options that a command has. -/
inductive Argument where
  | operand
  /-- The argument `--`. -/
  | separator
  | option (flag : Flag) (short : Bool) (attachment : Option Attachment)
  | unknown
  deriving DecidableEq, Repr

/-- How reading the arguments ends if there is nothing to be done. -/
inductive Stop where
  | help
  | version
  /-- The arguments are wrong. -/
  | misuse
  deriving DecidableEq, Repr

/-- The parts of a text before and after the first equals sign. -/
def splitAtEquals (text : List Char) : List Char × Option (List Char) :=
  match text.dropWhile (· != '=') with
  | _ :: value => (text.takeWhile (· != '='), some value)
  | [] => (text, none)

/-- A negative number, which is not an option. -/
def isNegativeNumber : List Char → Bool
  | '-' :: rest =>
    match rest.dropWhile Text.isDigit with
    | [] => !rest.isEmpty
    | '.' :: fraction => !fraction.isEmpty && fraction.all Text.isDigit
    | _ => false
  | _ => false

/-- The options that a text which is none may be short for. -/
def abbreviated (flags : Flags) (text : List Char) : List Argument :=
  match text with
  | '-' :: '-' :: _ =>
    let (name, value) := splitAtEquals text
    (flags.filter fun (other, _) => name.isPrefixOf other.toList).map fun (_, flag) =>
      .option flag false (value.map (⟨·, true⟩))
  | _ =>
    (flags.filter fun (other, _) => other.toList == text.take 2).map fun (_, flag) =>
      .option flag true (some ⟨text.drop 2, false⟩)

/-- Tells what an argument is. -/
def Argument.read (flags : Flags) (text : String) : Except Stop Argument :=
  let characters := text.toList
  match characters with
  | '-' :: _ :: _ =>
    match flags.lookup text with
    | some flag => .ok (.option flag (characters.length == 2) none)
    | none =>
      let (name, value) := splitAtEquals characters
      match value, flags.lookup (String.ofList name) with
      | some value, some flag => .ok (.option flag (name.length == 2) (some ⟨value, true⟩))
      | _, _ =>
        match abbreviated flags characters with
        | [found] => .ok found
        | [] =>
          if isNegativeNumber characters || characters.contains ' ' then .ok .operand
          else .ok .unknown
        | _ => .error .misuse
  | _ => .ok .operand

/-- Tells what arguments are, each with its text. -/
def readArguments (flags : Flags) : List String → Except Stop (List (String × Argument))
  | [] => .ok []
  | text :: rest =>
    if text = "--" then .ok ((text, .separator) :: rest.map fun text => (text, .operand))
    else do
      let argument ← Argument.read flags text
      return (text, argument) :: (← readArguments flags rest)

/-- Short options that are written together: those that there are, and whether there are others. -/
structure Cluster where
  flags : List Flag
  hasUnknown : Bool

/-- Reads the options that are written together with one that has no value. -/
def readCluster (flags : Flags) (afterEquals : Bool) : List Char → Except Stop Cluster
  | [] => if afterEquals then .error .misuse else .ok ⟨[], false⟩
  | letter :: rest =>
    if afterEquals || letter == '-' then .error .misuse
    else
      match flags.lookup (String.ofList ['-', letter]) with
      | none => .ok ⟨[], true⟩
      | some flag =>
        match rest with
        | '=' :: _ => .error .misuse
        | _ => do
          let cluster ← readCluster flags false rest
          return { cluster with flags := flag :: cluster.flags }

end JupiterMigration.CommandLine
