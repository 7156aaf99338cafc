import JupiterMigration.Marker
import JupiterMigration.Parameterized.Facts

/-!
# Plans for parameterized classes

A plan says how a class is migrated.  The arguments are handed to an initializer: a constructor
that is turned into a method, or a new method that assigns the fields.  `classPlan` decides from
the facts alone; there is no plan for a class that is rejected, has no factory, or receives nothing.
-/

namespace JupiterMigration

namespace Parameterized

/-- A parameter of the initializer. -/
structure PlannedParameter where
  position : Int
  type : String
  name : String
  /-- The parameter without lead and modifiers. -/
  node : Parameter
  deriving DecidableEq, Repr

/-- How a class is migrated. -/
structure ClassPlan where
  className : String
  factoryName : String
  initializerName : String
  /-- The parameters of the initializer and of every test. -/
  parameters : List PlannedParameter
  /-- The text that names the invocations of a test. -/
  nameTemplate : Option String
  /-- The number of the constructor that becomes the initializer. -/
  constructorId : Option Nat
  /-- The numbers of the fields that the initializer assigns. -/
  fieldIds : List Nat
  /-- The lines of a new initializer; nothing where the constructor becomes the initializer. -/
  newInitializer : Option (List String)
  deriving DecidableEq, Repr

/-- What violates the pattern in a class. -/
inductive PatternViolation where
  /-- Violations found while the facts were recorded. -/
  | recorded (notes : List String)
  /-- A field declaration with another number of variables than one. -/
  | variableCount (name : String) (count : Nat)
  | untypedField (name : String)
  deriving DecidableEq, Repr

/-- The wording of a violation. -/
def PatternViolation.message : PatternViolation → String
  | .recorded notes => "; ".intercalate notes
  | .variableCount name count =>
    "@Parameter field '" ++ name ++ "' declares " ++ toString count ++ " variables"
  | .untypedField name => "@Parameter field '" ++ name ++ "' has no declared type"

/-! ## Bare parameters -/

/-- What follows an argument list that the text begins with, up to the first closing parenthesis. -/
def dropArguments : List Char → List Char
  | '(' :: rest =>
    match rest.dropWhile (· != ')') with
    | _ :: after => after
    | [] => '(' :: rest
  | text => text

/-- What follows a modifier or an annotation that the text begins with. -/
def afterModifier? (text : List Char) : Option (List Char) :=
  match text with
  | '@' :: rest =>
    if (rest.takeWhile AnnotationPattern.isNameChar).isEmpty then none
    else some (dropArguments (rest.dropWhile AnnotationPattern.isNameChar))
  | 'f' :: 'i' :: 'n' :: 'a' :: 'l' :: rest => some rest
  | _ => none

/-- What follows a modifier and the blanks after it, of which there has to be one. -/
def dropModifier? (text : List Char) : Option (List Char) :=
  match afterModifier? text with
  | some (c :: rest) => if Text.isBlank c then some (rest.dropWhile Text.isBlank) else none
  | _ => none

/-- The text without the modifiers it begins with, at most as many as given. -/
def dropModifiers : Nat → List Char → List Char
  | 0, text => text
  | count + 1, text =>
    match dropModifier? text with
    | some rest => dropModifiers count rest
    | none => text

/-- The text of a parameter without the modifiers it begins with. -/
def withoutModifiers (text : String) : String :=
  String.ofList (dropModifiers text.length text.toList)

/-- A parameter that consists of a text alone; without a text, of its type and name. -/
def bareParameter (type name text : String) : Parameter where
  id := 0
  lead := ""
  text := if text.isEmpty then type ++ " " ++ name else text
  type := type
  name := name
  trail := ""
  references := []

/-! ## Planning -/

/-- The parameter of the initializer for a parameter of the constructor. -/
def PlannedParameter.ofParameter (position : Nat) (parameter : Parameter) : PlannedParameter where
  position := position
  type := parameter.type
  name := parameter.name
  node := bareParameter parameter.type parameter.name (withoutModifiers parameter.text)

/-- The parameter of the initializer for a field. -/
def PlannedParameter.ofField (parameter : FieldParameter) :
    Except PatternViolation PlannedParameter :=
  let field := parameter.field
  if field.variableCount ≠ 1 then .error (.variableCount field.name field.variableCount)
  else if field.type.isEmpty then .error (.untypedField field.name)
  else .ok {
    position := parameter.position
    type := field.type
    name := field.name
    node := bareParameter field.type field.name "" }

/-- The statement that assigns a field. -/
def assignment (parameter : PlannedParameter) : String :=
  "this." ++ parameter.name ++ " = " ++ parameter.name ++ ";"

/-- The plan for a class with a factory, before it is settled what becomes the initializer. -/
def basePlan (facts : Facts) (factory : Factory) (parameters : List PlannedParameter) :
    ClassPlan where
  className := facts.className
  factoryName := factory.name
  initializerName := "init" ++ facts.className
  parameters := parameters
  nameTemplate := (factory.mark.element? "name").map (·.text)
  constructorId := none
  fieldIds := []
  newInitializer := none

/-- The plan for a class with a factory and without rejections and recorded violations. -/
def planWith (facts : Facts) (factory : Factory) :
    Except PatternViolation (Option ClassPlan) :=
  match facts.mode with
  | .constructor =>
    let parameters := facts.constructorParameters.mapIdx PlannedParameter.ofParameter
    .ok (some { basePlan facts factory parameters with
      constructorId := facts.constructor.map (·.id) })
  | .field => do
    let parameters ← facts.fields.mapM PlannedParameter.ofField
    return some { basePlan facts factory parameters with
      fieldIds := facts.fields.map (·.field.id)
      newInitializer := some (parameters.map assignment) }
  | .none => .ok none

/-- The plan that the facts about a class lead to, if any. -/
def classPlan (facts : Facts) : Except PatternViolation (Option ClassPlan) :=
  if !facts.rejections.isEmpty then .ok none
  else if !facts.malformed.isEmpty then .error (.recorded facts.malformed)
  else
    match facts.factory with
    | none => .ok none
    | some factory => planWith facts factory

end Parameterized

end JupiterMigration
