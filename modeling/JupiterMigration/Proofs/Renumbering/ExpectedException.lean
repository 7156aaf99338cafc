import JupiterMigration.ExpectedException.Recipe
import JupiterMigration.Proofs.Renumbering.Stages

/-!
# Rules for expected exceptions in two runs

A class with other numbers is planned in the same way, apart from the numbers
(`ExpectedException.scanClass_renumbered`), and the plan with other numbers has the same effect on
it (`ExpectedException.renumbers_migrateClass`).
-/

namespace JupiterMigration

namespace ExpectedException

variable (number : Nat → Nat)

/-! ## Plans -/

/-- The expectation with another number. -/
def Expectation.renumbered (expectation : Expectation) : Expectation :=
  { expectation with statement := expectation.statement.renumbered number }

/-- The plan of a method with other numbers in it. -/
def MethodPlan.renumbered (plan : MethodPlan) : MethodPlan where
  leading := plan.leading.map (Statement.renumbered number)
  expectations := plan.expectations.map (Expectation.renumbered number)
  body := plan.body.map (Statement.renumbered number)
  anchor := plan.anchor.renumbered number

/-- The plan of a class with other numbers in it. -/
def RulePlan.renumbered (plan : RulePlan) : RulePlan :=
  { plan with
    fieldId := number plan.fieldId
    methods := plan.methods.map fun entry => (number entry.1, entry.2.renumbered number) }

theorem scanLeading_renumbered (rule method : String) (statements : List Statement) :
    scanLeading rule method (statements.map (Statement.renumbered number)) =
      (scanLeading rule method statements).map
        (Prod.map (List.map (Statement.renumbered number))
          (List.map (Statement.renumbered number))) := by
  induction statements with
  | nil => rfl
  | cons first rest inductionHypothesis =>
      have call_eq : ruleCall? rule (first.renumbered number) = ruleCall? rule first := rfl
      have mentions_eq : mentions rule (first.renumbered number) = mentions rule first := rfl
      rw [List.map_cons, scanLeading, scanLeading, call_eq, mentions_eq, inductionHypothesis]
      split
      · rfl
      · split
        · rfl
        · cases scanLeading rule method rest with
          | error error => rfl
          | ok found => rfl

theorem scanCalls_renumbered
    (rule method : String)
    (called : List String)
    (statements : List Statement) :
    scanCalls rule method called (statements.map (Statement.renumbered number)) =
      (scanCalls rule method called statements).map
        (Prod.map (List.map (Expectation.renumbered number))
          (List.map (Statement.renumbered number))) := by
  induction statements generalizing called with
  | nil => rfl
  | cons first rest inductionHypothesis =>
      have call_eq : ruleCall? rule (first.renumbered number) = ruleCall? rule first := rfl
      rw [List.map_cons, scanCalls, scanCalls, call_eq]
      cases ruleCall? rule first with
      | none => rfl
      | some call =>
          dsimp only
          cases classify call with
          | none => rfl
          | some classified =>
              obtain ⟨kind, argument⟩ := classified
              dsimp only
              split
              · rfl
              · rw [inductionHypothesis]
                cases scanCalls rule method (call.name :: called) rest with
                | error error => rfl
                | ok found => rfl

theorem inOrder_renumbered (expectations : List Expectation) :
    inOrder (expectations.map (Expectation.renumbered number)) =
      (inOrder expectations).map (Expectation.renumbered number) := by
  unfold inOrder
  rw [List.map_filterMap]
  refine List.filterMap_congr fun kind _ => ?_
  rw [List.find?_map]
  rfl

theorem scanMethod_renumbered (rule : String) (method : Method) :
    scanMethod rule (method.renumbered number) =
      (scanMethod rule method).map (Option.map (MethodPlan.renumbered number)) := by
  have statements_eq : (((method.renumbered number).body.map (·.statements)).getD []) =
      ((method.body.map (·.statements)).getD []).map (Statement.renumbered number) := by
    unfold Method.renumbered
    cases method.body with
    | none => rfl
    | some block => rfl
  have name_eq : (method.renumbered number).name = method.name := rfl
  unfold scanMethod
  dsimp only
  rw [statements_eq, name_eq, scanLeading_renumbered]
  cases scanLeading rule method.name ((method.body.map (·.statements)).getD []) with
  | error error => rfl
  | ok split =>
      obtain ⟨leading, others⟩ := split
      simp only [Except.map, bind, Except.bind, Prod.map]
      rw [scanCalls_renumbered]
      cases scanCalls rule method.name [] others with
      | error error => rfl
      | ok split =>
          obtain ⟨expectations, body⟩ := split
          have mentions_eq : (body.map (Statement.renumbered number)).any (mentions rule) =
              body.any (mentions rule) := List.any_map
          simp only [Except.map, Prod.map, mentions_eq, inOrder_renumbered]
          split
          · rfl
          · cases expectations with
            | nil => rfl
            | cons first rest => rfl

theorem isRule_renumbered (scope : TypeScope) (field : Field) :
    isRule scope (field.renumbered number) = isRule scope field := by
  have found := Marker.find?_renumbered number [.rule, .classRule] scope field.annotations
  unfold isRule Field.renumbered
  rw [found, Option.isSome_map]

theorem ruleFields_renumbered (scope : TypeScope) (members : List Member) :
    ruleFields scope (members.map (Member.renumbered number)) =
      (ruleFields scope members).map (Field.renumbered number) := by
  have fields_eq : (members.map (Member.renumbered number)).filterMap Member.field? =
      (members.filterMap Member.field?).map (Field.renumbered number) := by
    rw [List.filterMap_map, List.map_filterMap]
    exact List.filterMap_congr fun member _ => member.field?_renumbered number
  have marked : isRule scope ∘ Field.renumbered number = isRule scope :=
    funext (isRule_renumbered number scope)
  unfold ruleFields
  rw [fields_eq, List.filter_map, marked]

theorem ruleField?_renumbered (scope : TypeScope) (members : List Member) :
    ruleField? scope (members.map (Member.renumbered number)) =
      (ruleField? scope members).map (Field.renumbered number) := by
  unfold ruleField?
  rw [ruleFields_renumbered]
  rcases ruleFields scope members with _ | ⟨field, _ | ⟨other, rest⟩⟩
  · rfl
  · change (if field.variableCount = 1 then some (field.renumbered number) else none) =
      (if field.variableCount = 1 then some field else none).map (Field.renumbered number)
    split <;> rfl
  · rfl

section Injective

variable {number} (injective : Function.Injective number)
include injective

omit injective in
theorem scanMembers_cons_of_noMethod
    {member : Member}
    (noMethod : member.method? = none)
    (rule : Field)
    (rest : List Member) :
    scanMembers rule (member :: rest) =
      if member.id ≠ rule.id ∧ member.namesUsed.contains rule.name then
        .error (.outsideMethods rule.name)
      else scanMembers rule rest := by
  cases member with
  | method decl => cases noMethod
  | importDecl _ | verbatim _ | field _ | classDecl _ _ => rfl

theorem scanMembers_renumbered (rule : Field) (members : List Member) :
    scanMembers (rule.renumbered number) (members.map (Member.renumbered number)) =
      (scanMembers rule members).map
        (List.map fun entry => (number entry.1, entry.2.renumbered number)) := by
  have name_eq : (rule.renumbered number).name = rule.name := rfl
  induction members with
  | nil => rfl
  | cons first rest inductionHypothesis =>
      have other {member : Member} (noMethod : member.method? = none) :
          scanMembers (rule.renumbered number) ((member :: rest).map (Member.renumbered number)) =
            (scanMembers rule (member :: rest)).map
              (List.map fun entry => (number entry.1, entry.2.renumbered number)) := by
        have stillNone : (member.renumbered number).method? = none := by
          rw [member.method?_renumbered, noMethod, Option.map_none]
        have same : number member.id ≠ (rule.renumbered number).id ↔ member.id ≠ rule.id :=
          injective.ne_iff
        rw [List.map_cons, scanMembers_cons_of_noMethod stillNone,
          scanMembers_cons_of_noMethod noMethod, member.id_renumbered, member.namesUsed_renumbered,
          inductionHypothesis, name_eq]
        simp only [same]
        split <;> rfl
      cases first with
      | method decl =>
          rw [List.map_cons, Member.renumbered, scanMembers, scanMembers, name_eq,
            scanMethod_renumbered]
          cases scanMethod rule.name decl with
          | error error => rfl
          | ok plan =>
              simp only [Except.map, bind, Except.bind]
              rw [inductionHypothesis]
              cases scanMembers rule rest with
              | error error => rfl
              | ok others => cases plan <;> rfl
      | importDecl _ | verbatim _ | field _ | classDecl _ _ => exact other rfl

/-- A class with other numbers is planned in the same way. -/
theorem scanClass_renumbered (rule : Field) (members : List Member) :
    scanClass (rule.renumbered number) (members.map (Member.renumbered number)) =
      (scanClass rule members).map (RulePlan.renumbered number) := by
  unfold scanClass
  rw [scanMembers_renumbered injective]
  cases scanMembers rule members <;> rfl

end Injective

/-! ## Migrating classes -/

namespace MethodPlan

variable (plan : MethodPlan)

theorem expectation?_renumbered (kind : ExpectationKind) :
    (plan.renumbered number).expectation? kind =
      (plan.expectation? kind).map (Expectation.renumbered number) :=
  List.find?_map

theorem usesMatchers_renumbered : (plan.renumbered number).usesMatchers = plan.usesMatchers :=
  List.any_map

theorem exceptionType_renumbered : (plan.renumbered number).exceptionType = plan.exceptionType := by
  unfold exceptionType
  rw [expectation?_renumbered, Option.bind_map]
  rfl

theorem messageArgument_renumbered (indent : String) :
    (plan.renumbered number).messageArgument indent = plan.messageArgument indent := by
  unfold messageArgument
  rw [expectation?_renumbered]
  cases plan.expectation? .message <;> rfl

theorem lead_renumbered : (plan.renumbered number).lead = plan.lead := by
  unfold lead renumbered
  cases plan.leading <;> rfl

theorem moved_renumbered (indent : String) :
    (plan.renumbered number).moved indent =
      (plan.moved indent).map (Statement.renumbered number) := by
  unfold moved renumbered
  cases plan.leading with
  | nil => rfl
  | cons first rest =>
      rw [List.map_cons, List.map_append, List.map_cons]
      rfl

end MethodPlan

theorem takenNames_renumbered (method : Method) :
    takenNames (method.renumbered number) = takenNames method := by
  have names := (Member.method method).namesUsed_renumbered number
  have parameters : (method.renumbered number).parameters.map (·.name) =
      method.parameters.map (·.name) := List.map_map
  unfold takenNames
  rw [parameters]
  exact congrArg (· ++ method.parameters.map (·.name)) names

section Synthesis

variable {number}

theorem renumbers_matcherStatement (binding indent : String) (expectation : Expectation) :
    (Synthesis.renumbering number).Holds (fun node other => other = node.renumbered number)
      (matcherStatement binding indent expectation)
      (matcherStatement binding indent (expectation.renumbered number)) :=
  Template.renumbers_statement _ _ _ _

theorem renumbers_assertions
    (layout : Layout)
    (plan : MethodPlan)
    (method : Method)
    (indent : String) :
    (Synthesis.renumbering number).Holds
      (fun statements others => others = statements.map (Statement.renumbered number))
      (assertions layout plan method indent)
      (assertions layout (plan.renumbered number) (method.renumbered number) indent) := by
  have lambda_eq : layout.lambdaBody ((plan.renumbered number).moved indent) indent =
      layout.lambdaBody (plan.moved indent) indent := by
    rw [plan.moved_renumbered]
    unfold Layout.lambdaBody
    rw [List.map_map]
    rfl
  have matchers_eq : (plan.renumbered number).expectations.filter (·.kind.isMatcher) =
      (plan.expectations.filter (·.kind.isMatcher)).map (Expectation.renumbered number) :=
    List.filter_map
  unfold assertions
  dsimp only
  rw [plan.usesMatchers_renumbered, plan.exceptionType_renumbered, lambda_eq,
    plan.messageArgument_renumbered, plan.lead_renumbered, takenNames_renumbered, matchers_eq]
  split
  · refine (Synthesis.renumbering number).bind
      (Template.renumbers_statement _ _ _ _) fun _ _ throwing => ?_
    refine (Synthesis.renumbering number).bind ((Synthesis.renumbering number).mapM_image
      (renumbers_matcherStatement _ _) _) fun _ _ statements => ?_
    exact (Synthesis.renumbering number).pure (by rw [throwing, statements, List.map_cons])
  · refine (Synthesis.renumbering number).bind
      (Template.renumbers_statement _ _ _ _) fun _ _ throwing => ?_
    exact (Synthesis.renumbering number).pure (by rw [throwing]; rfl)

theorem renumbers_migrateMethod
    (layout : Layout)
    (memberIndent : String)
    (plan : MethodPlan)
    (method : Method) :
    (Synthesis.renumbering number).Holds (fun result other => other = result.renumbered number)
      (migrateMethod layout memberIndent plan method)
      (migrateMethod layout memberIndent (plan.renumbered number) (method.renumbered number)) := by
  unfold migrateMethod
  rw [Layout.statementIndent_renumbered]
  refine (Synthesis.renumbering number).bind
    (renumbers_assertions layout plan method _) fun _ _ statements => ?_
  refine (Synthesis.renumbering number).pure ?_
  rw [statements]
  unfold Method.renumbered
  cases method.body <;> rfl

variable (injective : Function.Injective number)
include injective

theorem renumbers_migrateMember
    (layout : Layout)
    (memberIndent : String)
    (plan : RulePlan)
    (member : Member) :
    (Synthesis.renumbering number).Holds (fun result other => other = result.renumbered number)
      (migrateMember layout memberIndent plan member)
      (migrateMember layout memberIndent (plan.renumbered number) (member.renumbered number)) := by
  cases member with
  | method decl =>
      have found : (plan.renumbered number).methods.lookup (decl.renumbered number).id =
          (plan.methods.lookup decl.id).map (MethodPlan.renumbered number) :=
        lookup_renumbered injective _ _ _
      dsimp only [Member.renumbered, migrateMember]
      rw [found]
      cases plan.methods.lookup decl.id with
      | none => exact (Synthesis.renumbering number).pure rfl
      | some methodPlan =>
          refine (Synthesis.renumbering number).bind
            (renumbers_migrateMethod layout memberIndent methodPlan decl) fun _ _ method => ?_
          exact (Synthesis.renumbering number).pure (by rw [method]; rfl)
  | classDecl head members =>
      rw [Member.renumbered_classDecl]
      exact (Synthesis.renumbering number).pure (Member.renumbered_classDecl number _ _).symm
  | importDecl _ | verbatim _ | field _ => exact (Synthesis.renumbering number).pure rfl

theorem withoutMember_renumbered (id : Nat) (members : List Member) :
    withoutMember (number id) (members.map (Member.renumbered number)) =
      (withoutMember id members).map (Member.renumbered number) := by
  have found : (members.map (Member.renumbered number)).findIdx? (·.id == number id) =
      members.findIdx? (·.id == id) := by
    rw [List.findIdx?_map]
    refine congrArg (fun test => members.findIdx? test) (funext fun member => ?_)
    rw [Function.comp_apply, member.id_renumbered, Bool.eq_iff_iff, beq_iff_eq, beq_iff_eq,
      injective.eq_iff]
  unfold withoutMember
  rw [found]
  cases members.findIdx? (·.id == id) with
  | none => rfl
  | some position => exact Member.removeAt_renumbered number position members

/-- A plan with other numbers has the same effect on a class with other numbers. -/
theorem renumbers_migrateClass
    (layout : Layout)
    (plan : RulePlan)
    (decl : ClassDecl) :
    (Synthesis.renumbering number).Holds (fun result other => other = result.renumbered number)
      (migrateClass layout plan decl)
      (migrateClass layout (plan.renumbered number) (decl.renumbered number)) := by
  have members_eq :
      withoutMember (plan.renumbered number).fieldId (decl.renumbered number).members =
        (withoutMember plan.fieldId decl.members).map (Member.renumbered number) :=
    withoutMember_renumbered injective plan.fieldId decl.members
  unfold migrateClass
  dsimp only
  rw [Layout.memberIndent_renumbered, members_eq]
  refine (Synthesis.renumbering number).bind ((Synthesis.renumbering number).mapM_image
    (renumbers_migrateMember injective layout _ plan) _) fun _ _ members => ?_
  exact (Synthesis.renumbering number).pure (by rw [members]; rfl)

end Synthesis

/-! ## Stages -/

theorem Progress.add_renumbered (name : String) (plan : RulePlan) (progress : Progress) :
    progress.add name (plan.renumbered number) = progress.add name plan := by
  have matchers : (plan.renumbered number).methods.any (·.2.usesMatchers) =
      plan.methods.any (·.2.usesMatchers) := by
    unfold RulePlan.renumbered
    rw [List.any_map]
    exact congrArg (fun test => plan.methods.any test)
      (funext fun entry => entry.2.usesMatchers_renumbered number)
  have none_eq : (plan.renumbered number).methods.isEmpty = plan.methods.isEmpty :=
    List.isEmpty_map
  unfold add
  rw [matchers, none_eq]

section Stages

variable {number} (injective : Function.Injective number)
include injective

theorem Collecting.renumbers_leaveClass
    (scope : TypeScope)
    (head : ClassHead)
    (members : List Member) :
    ((Migration.renumbering number).withState fun plans others =>
        others = plans.map fun entry => (number entry.1, entry.2.renumbered number)).Holds
      (fun _ _ => True) (leaveClass scope head members)
      (leaveClass scope (head.renumbered number) (members.map (Member.renumbered number))) := by
  have name_eq : (head.renumbered number).name = head.name := rfl
  unfold leaveClass
  rw [ruleField?_renumbered, name_eq]
  cases ruleField? scope members with
  | none =>
      refine (Migration.renumbering number).withState_lift ?_
      unfold reportFields
      rw [ruleFields_renumbered, List.length_map]
      dsimp only
      split
      · exact Migration.renumbers_log _ _
      · exact (Migration.renumbering number).pure trivial
  | some rule =>
      dsimp only [Option.map_some]
      rw [scanClass_renumbered injective]
      cases scanClass rule members with
      | error reason =>
          exact (Migration.renumbering number).withState_lift (Migration.renumbers_skip _ _)
      | ok plan =>
          refine PairKind.bind _ ((Migration.renumbering number).withState_lift
            (Migration.renumbers_record _)) fun _ _ _ => ?_
          refine (Migration.renumbering number).withState_modify ?_
          rintro plans _ rfl
          rw [List.map_append]
          rfl

theorem renumbers_collect
    {unit other : SourceUnit}
    (related : unit.IsRenumbered number other) :
    (Migration.renumbering number).Holds
      (fun plans others =>
        others = plans.map fun entry => (number entry.1, entry.2.renumbered number))
      (collect unit) (collect other) := by
  let kind : PairKind Collecting Collecting :=
    (Migration.renumbering number).withState fun plans others =>
      others = plans.map fun entry => (number entry.1, entry.2.renumbered number)
  have visits : kind.Holds (fun _ _ => True)
      ((Collecting.visitor (.ofUnit unit)).visit unit)
      ((Collecting.visitor (.ofUnit unit)).visit other) := by
    refine Visitor.renumbers_visit (leavesMembers_visitor _) ?_ related
    rintro ⟨above, member⟩ ⟨others, _⟩ ⟨rfl, -⟩
    cases member with
    | classDecl head members =>
        dsimp only
        rw [Member.renumbered_classDecl]
        exact Collecting.renumbers_leaveClass injective _ head members
    | importDecl _ | verbatim _ | field _ | method _ => exact kind.pure trivial
  unfold collect
  rw [related.scope_eq]
  refine (Migration.renumbering number).bind (visits [] [] rfl) fun _ _ results => ?_
  exact (Migration.renumbering number).pure results.2

theorem renumbers_migratePlans
    (layout : Layout)
    (plans : List (Nat × RulePlan))
    {unit other : SourceUnit}
    (related : unit.IsRenumbered number other) :
    (Migration.renumbering number).Holds (MigratedUnit.IsRenumbered number)
      (migratePlans layout plans unit)
      (migratePlans layout (plans.map fun entry => (number entry.1, entry.2.renumbered number))
        other) := by
  unfold migratePlans
  rw [migrate_eq, migrate_eq]
  refine (Migration.renumbering number).bind (renumbers_rewriteUnit injective
    (renumbers_migrateClass injective layout) (Progress.add_renumbered number) plans
    related .start) ?_
  rintro ⟨result, progress⟩ ⟨twinResult, _⟩ ⟨units, rfl⟩
  exact (Migration.renumbering number).pure ⟨units, rfl, rfl⟩

end Stages

end ExpectedException

end JupiterMigration
