import JupiterMigration.ExpectedException.Expectation
import JupiterMigration.Marker
import JupiterMigration.Tree.Usage

/-!
# Plans for classes with a rule for expected exceptions

The body of a method that uses the rule consists of leading statements, one run of expectations, and
the remaining statements; only the run may mention the rule.  A class is planned if it has a single
rule field and every method is of this form or does not mention the rule, and no other member
mentions it.
-/

namespace JupiterMigration

namespace ExpectedException

/-- A use of the rule that is not migrated. -/
inductive UnsupportedUse where
  | beforeExpectations (rule method : String)
  | unknownCall (rule call method : String)
  | repeatedCall (rule call method : String)
  | afterExpectations (rule method : String)
  | outsideMethods (rule : String)
  deriving DecidableEq, Repr

/-- The wording of an unsupported use. -/
def UnsupportedUse.message : UnsupportedUse → String
  | .beforeExpectations rule method =>
    "'" ++ rule ++ "' used before its expectations in '" ++ method ++ "'"
  | .unknownCall rule call method =>
    "unsupported call '" ++ rule ++ "." ++ call ++ "' in '" ++ method ++ "'"
  | .repeatedCall rule call method =>
    "repeated call '" ++ rule ++ "." ++ call ++ "' in '" ++ method ++ "'"
  | .afterExpectations rule method =>
    "'" ++ rule ++ "' used after the throwing statements began in '" ++ method ++ "'"
  | .outsideMethods rule => "'" ++ rule ++ "' referenced outside of test methods"

/-- How a method is migrated. -/
structure MethodPlan where
  /-- The statements before the expectations. -/
  leading : List Statement
  /-- The expectations, ordered by kind. -/
  expectations : List Expectation
  /-- The statements after the expectations. -/
  body : List Statement
  /-- The first statement that calls the rule. -/
  anchor : Statement
  deriving DecidableEq, Repr

namespace MethodPlan

/-- The expectation of a kind, if there is one. -/
def expectation? (kind : ExpectationKind) (plan : MethodPlan) : Option Expectation :=
  plan.expectations.find? (·.kind == kind)

/-- Whether some expectation is checked by a matcher. -/
def usesMatchers (plan : MethodPlan) : Bool :=
  plan.expectations.any (·.kind.isMatcher)

end MethodPlan

/-- How a class is migrated. -/
structure RulePlan where
  /-- The number of the rule field. -/
  fieldId : Nat
  fieldName : String
  /-- The plans of methods by their numbers. -/
  methods : List (Nat × MethodPlan)
  deriving DecidableEq, Repr

/-! ## Methods -/

/-- Whether a statement mentions the rule. -/
def mentions (rule : String) (statement : Statement) : Bool :=
  statement.references.contains rule

/-- The call of the rule that a statement is, if it is one. -/
def ruleCall? (rule : String) (statement : Statement) : Option Call :=
  statement.call.filter fun call =>
    call.target == some rule || call.target == some ("this." ++ rule)

/-- Splits off the statements before the first call of the rule. -/
def scanLeading (rule method : String) :
    List Statement → Except UnsupportedUse (List Statement × List Statement)
  | [] => .ok ([], [])
  | first :: rest =>
    if (ruleCall? rule first).isSome then .ok ([], first :: rest)
    else if mentions rule first then .error (.beforeExpectations rule method)
    else do
      let (leading, others) ← scanLeading rule method rest
      return (first :: leading, others)

/-- Splits off the run of calls of the rule; `called` are the methods called so far. -/
def scanCalls (rule method : String) (called : List String) :
    List Statement → Except UnsupportedUse (List Expectation × List Statement)
  | [] => .ok ([], [])
  | first :: rest =>
    match ruleCall? rule first with
    | none => .ok ([], first :: rest)
    | some call =>
      match classify call with
      | none => .error (.unknownCall rule call.name method)
      | some (kind, argument) =>
        if called.contains call.name then .error (.repeatedCall rule call.name method)
        else do
          let (expectations, others) ← scanCalls rule method (call.name :: called) rest
          return (⟨kind, argument, first⟩ :: expectations, others)

/-- The expectations ordered by kind. -/
def inOrder (expectations : List Expectation) : List Expectation :=
  ExpectationKind.all.filterMap fun kind => expectations.find? (·.kind == kind)

/-- Plans a method; nothing if it does not use the rule. -/
def scanMethod (rule : String) (method : Method) : Except UnsupportedUse (Option MethodPlan) := do
  let statements := (method.body.map (·.statements)).getD []
  let (leading, others) ← scanLeading rule method.name statements
  let (expectations, body) ← scanCalls rule method.name [] others
  if body.any (mentions rule) then
    throw (.afterExpectations rule method.name)
  return expectations.head?.map fun first =>
    { leading, expectations := inOrder expectations, body, anchor := first.statement }

/-! ## Classes -/

/-- Whether a field is marked as a rule for expected exceptions. -/
def isRule (scope : TypeScope) (field : Field) : Bool :=
  scope.mayDenote field.type expectedExceptionType &&
    (Marker.find? [.rule, .classRule] scope field.annotations).isSome

/-- The rule fields of a class. -/
def ruleFields (scope : TypeScope) (members : List Member) : List Field :=
  (members.filterMap Member.field?).filter (isRule scope)

/-- The rule field of a class, if it has only one and that declares a single variable. -/
def ruleField? (scope : TypeScope) (members : List Member) : Option Field :=
  match ruleFields scope members with
  | [field] => if field.variableCount = 1 then some field else none
  | _ => none

/-- Plans the methods among the members of a class, of which no other may mention the rule. -/
def scanMembers (rule : Field) : List Member → Except UnsupportedUse (List (Nat × MethodPlan))
  | [] => .ok []
  | .method decl :: rest => do
    let plan ← scanMethod rule.name decl
    let others ← scanMembers rule rest
    return (plan.toList.map fun plan => (decl.id, plan)) ++ others
  | member :: rest =>
    if member.id ≠ rule.id ∧ member.namesUsed.contains rule.name then
      .error (.outsideMethods rule.name)
    else scanMembers rule rest

/-- Plans a class with a rule field. -/
def scanClass (rule : Field) (members : List Member) : Except UnsupportedUse RulePlan := do
  return { fieldId := rule.id, fieldName := rule.name, methods := ← scanMembers rule members }

end ExpectedException

end JupiterMigration
