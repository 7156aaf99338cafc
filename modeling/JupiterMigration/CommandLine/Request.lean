import JupiterMigration.CommandLine.Arguments
import JupiterMigration.Files.Path
import JupiterMigration.Journal
import JupiterMigration.Text.Blank

/-!
# What a command is asked to do

Before the name of a command stand the options for all commands, after it its own options and
operands.  Options take effect in the order in which they stand: the first one that asks for help
ends the reading, and so does the first mistake.  Arguments that are not understood are a mistake
only after everything else.
-/

namespace JupiterMigration.CommandLine

/-- What the conversion of files is asked for. -/
structure ConvertRequest where
  path : Path
  out : Option Path
  recipes : Option (List String)
  workers : Option Int
  strict : Bool
  diff : Bool
  jsonTrace : Option Path
  deriving DecidableEq, Repr

/-- What is to be done. -/
inductive Request where
  | convert (request : ConvertRequest)
  | check (path : Path) (recipes : Option (List String))
  | listRecipes
  deriving DecidableEq, Repr

/-- What is to be done, and which messages are shown meanwhile. -/
structure Invocation where
  level : LogLevel
  request : Request
  deriving DecidableEq, Repr

/-! ## Options of commands -/

/-- The options before the name of a command. -/
def mainFlags : Flags :=
  [("-h", .help), ("--help", .help), ("--version", .version), ("-v", .verbose),
    ("--verbose", .verbose), ("-q", .quiet), ("--quiet", .quiet)]

/-- The options that ask for help. -/
def helpFlags : Flags := [("-h", .help), ("--help", .help)]

/-- The options of the conversion. -/
def convertFlags : Flags :=
  helpFlags ++ [("--out", .out), ("--recipe", .recipe), ("--workers", .workers),
    ("--strict", .strict), ("--diff", .diff), ("--json-trace", .jsonTrace)]

/-- The options of the check. -/
def checkFlags : Flags := helpFlags ++ [("--recipe", .recipe)]

/-! ## Collecting options and operands -/

/-- The options and operands of a command. -/
structure Collected where
  flags : List Flag
  /-- The values of options, in order. -/
  values : List (Flag × String)
  operand : Option String
  /-- Whether something has not been understood. -/
  hasUnknown : Bool

namespace Collected

/-- Nothing has been collected. -/
def empty : Collected := ⟨[], [], none, false⟩

/-- The last value of an option. -/
def value? (collected : Collected) (flag : Flag) : Option String :=
  (collected.values.reverse.find? (·.1 = flag)).map (·.2)

/-- All values of an option; nothing if it is not there. -/
def values? (collected : Collected) (flag : Flag) : Option (List String) :=
  match collected.values.filter (·.1 = flag) with
  | [] => none
  | found => some (found.map (·.2))

/-- Takes an option without a value. -/
def takeFlag (collected : Collected) (flag : Flag) : Except Stop Collected :=
  match flag with
  | .help => .error .help
  | .version => .error .version
  | .verbose => if collected.flags.contains .quiet then .error .misuse else .ok (add .verbose)
  | .quiet => if collected.flags.contains .verbose then .error .misuse else .ok (add .quiet)
  | flag => .ok (add flag)
where
  /-- The options with one more. -/
  add (flag : Flag) : Collected := { collected with flags := collected.flags ++ [flag] }

/-- The whole number that a text shows, with blanks around it and underscores between digits. -/
def wholeNumber? (text : String) : Option Int :=
  match (Text.trim text).toList with
  | '-' :: digits => (natural? digits).map fun size => -(size : Int)
  | '+' :: digits => (natural? digits).map Int.ofNat
  | digits => (natural? digits).map Int.ofNat
where
  /-- The number that groups of digits stand for. -/
  natural? (digits : List Char) : Option Nat :=
    let found := Text.ungrouped digits
    if !digits.isEmpty && Text.groups Text.isDigit digits = digits.length &&
        found.length ≤ 4300 then
      some (Text.valueOf 10 found)
    else none

/-- Takes an option with its value. -/
def takeValue (collected : Collected) (flag : Flag) (value : String) : Except Stop Collected :=
  if flag = .workers && (wholeNumber? value).isNone then .error .misuse
  else .ok { collected with values := collected.values ++ [(flag, value)] }

/-- Takes an option that is written together with a value or with other options. -/
def takeAttached (flags : Flags) (collected : Collected) (flag : Flag) (short : Bool)
    (attachment : Attachment) : Except Stop Collected :=
  if flag.hasValue then collected.takeValue flag (String.ofList attachment.value)
  else if !short then .error .misuse
  else do
    let cluster ← readCluster flags attachment.afterEquals attachment.value
    let taken ← (flag :: cluster.flags).foldlM takeFlag collected
    return { taken with hasUnknown := taken.hasUnknown || cluster.hasUnknown }

/-- Notes that something has not been understood. -/
def unknown (collected : Collected) : Collected := { collected with hasUnknown := true }

end Collected

/-- Collects the options and the operand of a command; some commands have no operand. -/
def collect (flags : Flags) (hasOperand : Bool) (collected : Collected) :
    List (String × Argument) → Except Stop Collected
  | [] => .ok collected
  | (_, .option flag _ none) :: rest =>
    if flag.hasValue then
      match rest with
      | (value, .operand) :: rest => do
        collect flags hasOperand (← collected.takeValue flag value) rest
      | _ => .error .misuse
    else do collect flags hasOperand (← collected.takeFlag flag) rest
  | (_, .option flag short (some attachment)) :: rest => do
    collect flags hasOperand (← collected.takeAttached flags flag short attachment) rest
  | (_, .unknown) :: rest => collect flags hasOperand collected.unknown rest
  | (_, .separator) :: (operand, .operand) :: rest =>
    if hasOperand && collected.operand.isNone then
      collect flags hasOperand { collected with operand := some operand } rest
    else collect flags hasOperand collected.unknown rest
  | (_, .separator) :: rest => collect flags hasOperand collected.unknown rest
  | (operand, .operand) :: (mark, .separator) :: rest =>
    if hasOperand && collected.operand.isNone then
      collect flags hasOperand { collected with operand := some operand } rest
    else collect flags hasOperand collected.unknown ((mark, .separator) :: rest)
  | (operand, .operand) :: rest =>
    if hasOperand && collected.operand.isNone then
      collect flags hasOperand { collected with operand := some operand } rest
    else collect flags hasOperand collected.unknown rest
  termination_by arguments => arguments.length

/-- Reads the arguments of a command. -/
def readCommand (flags : Flags) (hasOperand : Bool) (arguments : List String) :
    Except Stop Collected := do
  let collected ← collect flags hasOperand .empty (← readArguments flags arguments)
  if hasOperand && collected.operand.isNone then throw .misuse
  return collected

/-! ## Commands -/

/-- Reads the arguments of a command of a given name. -/
def Request.read (name : String) (arguments : List String) : Except Stop (Request × Bool) :=
  match name with
  | "convert" => do
    let collected ← readCommand convertFlags true arguments
    let request : ConvertRequest := {
      path := Path.ofString (collected.operand.getD "")
      out := (collected.value? .out).map Path.ofString
      recipes := collected.values? .recipe
      workers := (collected.value? .workers).bind Collected.wholeNumber?
      strict := collected.flags.contains .strict
      diff := collected.flags.contains .diff
      jsonTrace := (collected.value? .jsonTrace).map Path.ofString }
    return (.convert request, collected.hasUnknown)
  | "check" => do
    let collected ← readCommand checkFlags true arguments
    return (.check (Path.ofString (collected.operand.getD "")) (collected.values? .recipe),
      collected.hasUnknown)
  | "recipes" => do
    let collected ← readCommand helpFlags false arguments
    return (.listRecipes, collected.hasUnknown)
  | _ => .error .misuse

/-- The messages that are shown: of all levels, of the usual ones, or warnings and errors alone. -/
def levelOf (flags : List Flag) : LogLevel :=
  if flags.contains .quiet then .warning
  else if flags.contains .verbose then .debug
  else .info

/-- Reads the options before the name of a command, and then the command. -/
def readInvocation (collected : Collected) : List (String × Argument) → Except Stop Invocation
  | [] => .error .misuse
  | (_, .option flag short attachment) :: rest => do
    let taken ← match attachment with
      | none => collected.takeFlag flag
      | some attachment => collected.takeAttached mainFlags flag short attachment
    readInvocation taken rest
  | (_, .unknown) :: rest => readInvocation collected.unknown rest
  | (_, .separator) :: _ => .error .misuse
  | (name, .operand) :: rest => do
    let (request, hasUnknown) ← Request.read name (rest.map (·.1))
    if collected.hasUnknown || hasUnknown then throw .misuse
    return ⟨levelOf collected.flags, request⟩

/-- What arguments ask for. -/
def Invocation.read (arguments : List String) : Except Stop Invocation := do
  readInvocation .empty (← readArguments mainFlags arguments)

end JupiterMigration.CommandLine
