import JupiterMigration.Proofs.Binding.FreshName
import JupiterMigration.Proofs.Configuration
import JupiterMigration.Proofs.Indentation
import JupiterMigration.Proofs.Scanning.Reading
import JupiterMigration.Proofs.Snippet
import JupiterMigration.Proofs.Synthesis

/-!
# What becomes of the statements of a planned method

The leading and the remaining statements move into the lambda of the new assertion, each of them
once and in order, and only their indentation changes (`normal_lambda`).  The new body
consists of that assertion and of one more for each matcher (`MethodPlan.Asserts`).
-/

namespace JupiterMigration

open Synthesis
open Member (bodyStatements)

/-! ## Statements made from templates -/

/-- A statement is what a text is read as, apart from its number, and stands behind a lead. -/
def Statement.IsReadAs (statement : Statement) (text lead : String) : Prop :=
  ∃ read id, Snippet.readStatement text = .ok read ∧ statement = { read with id, lead }

/-- A statement that is what a text is read as, and has that text. -/
def Statement.IsWrittenAs (statement : Statement) (text lead : String) : Prop :=
  statement.IsReadAs text lead ∧ statement.text = text

/-- A statement that is made is what the rendered and shifted template is read as. -/
theorem Template.isReadAs_of_makes
    {template indent lead text : String}
    {values : List Value}
    {result : JupiterMigration.Statement}
    {earlier later : Session}
    (rendered : render template values = .ok text)
    (makes : (statement template values indent lead).Makes earlier result later) :
    result.IsReadAs (Layout.shift text indent) lead := by
  obtain ⟨unnumbered, read, rfl, -⟩ := makes_numbered.mp makes
  rw [rendered] at read
  cases snippet : Snippet.readStatement (Layout.shift text indent) with
  | error error => simp [bind, Except.bind, snippet] at read
  | ok node =>
      have unnumbered_eq : { node with lead } = unnumbered := by
        simpa [bind, Except.bind, pure, Except.pure, snippet] using read
      exact ⟨node, earlier.nextId, snippet, by rw [← unnumbered_eq]; rfl⟩

namespace ExpectedException

open Layout

/-! ## The lambda -/

namespace MethodPlan

/-- What a plan moves: its statements in order, but not what stands before a leading one. -/
def contents (plan : MethodPlan) : String :=
  match plan.leading with
  | [] => printAll Statement.print plan.body
  | first :: rest => first.text ++ printAll Statement.print (rest ++ plan.body)

/-- The body of the lambda that a plan's statements move into. -/
def lambda (plan : MethodPlan) (layout : Layout) (indent : String) : String :=
  layout.lambdaBody (plan.moved indent) indent

end MethodPlan

/-- A line feed and an indentation before a text do not count if the text begins with neither. -/
theorem normal_onNewLine
    {indent text : String}
    {c : Char}
    {rest : List Char}
    (blank : IsIndentation indent)
    (text_eq : text.toList = c :: rest)
    (noSpace : Text.isSpace c = false) : normal ("\n" ++ indent ++ text) = normal text := by
  have noLineFeed : c ≠ '\n' := by
    rintro rfl
    exact absurd noSpace (by decide)
  have characters : ("\n" ++ indent ++ text).toList = '\n' :: (indent.toList ++ c :: rest) := by
    rw [String.toList_append, String.toList_append, text_eq]
    rfl
  have step : flushOnto (c :: rest) [] = c :: flushOnto rest [] := if_neg noLineFeed
  unfold normal flush
  rw [characters, text_eq, flushOnto_line blank, List.dropWhile_cons_of_pos rfl, step,
    List.dropWhile_cons_of_neg (by simp [isIndent_eq_false noSpace])]

/-- The statements of a plan stand in the lambda in order, apart from their indentation. -/
theorem normal_lambda
    {layout : Layout}
    {indent : String}
    {plan : MethodPlan}
    (unitBlank : IsIndentation layout.unit)
    (indentBlank : IsIndentation indent)
    (starts : ∀ first ∈ plan.leading.head?,
      ∃ c rest, first.text.toList = c :: rest ∧ Text.isSpace c = false) :
    normal (plan.lambda layout indent) = normal plan.contents := by
  rw [MethodPlan.lambda, normal_lambdaBody unitBlank indentBlank]
  unfold MethodPlan.moved MethodPlan.contents
  cases leading_eq : plan.leading with
  | nil => rfl
  | cons first rest =>
      obtain ⟨c, others, first_eq, noSpace⟩ := starts first (by rw [leading_eq]; rfl)
      have printed : printAll Statement.print
          ({ first with lead := "\n" ++ indent } :: rest ++ plan.body) =
          "\n" ++ indent ++ (first.text ++ printAll Statement.print (rest ++ plan.body)) := by
        simp [printAll, Statement.print, String.append_assoc]
      have text_eq : (first.text ++ printAll Statement.print (rest ++ plan.body)).toList =
          c :: (others ++ (printAll Statement.print (rest ++ plan.body)).toList) := by
        rw [String.toList_append, first_eq, List.cons_append]
      dsimp only
      rw [printed, normal_onNewLine indentBlank text_eq noSpace]

/-! ## The assertions -/

/-- The text of the assertion that a lambda throws; a message is given with its comma. -/
def throwsText (type lambda message : String) : String :=
  "assertThrows(" ++ type ++ ".class, () -> \x7b" ++ lambda ++ "\n\x7d" ++ message ++ ");"

/-- What a matcher of a kind is applied to. -/
def matched (binding : String) : ExpectationKind → String
  | .messageMatcher => binding ++ ".getMessage()"
  | .causeMatcher => binding ++ ".getCause()"
  | _ => binding

/-- The text of the assertion that a matcher holds. -/
def matcherText (binding indent : String) (expectation : Expectation) : String :=
  "assertThat(" ++ matched binding expectation.kind ++ ", " ++
    shiftFrom expectation.argument.text indent "" ++ ");"

theorem splitOn_throwsTemplate :
    Text.splitOn throwsTemplate Template.placeholder =
      ["assertThrows(", ".class, () -> \x7b", "\n\x7d", ");"] := by
  decide

theorem render_throws (type lambda message : String) :
    Template.render throwsTemplate [.text type, .text lambda, .text message] =
      .ok (throwsText type lambda message) := by
  have woven : Template.weave ["assertThrows(", ".class, () -> \x7b", "\n\x7d", ");"]
      [type, lambda, message] = throwsText type lambda message := by
    simp only [Template.weave_cons, Template.weave_nil]
    unfold throwsText
    simp only [String.append_assoc]
  rw [← woven]
  exact Template.render_texts [type, lambda, message] splitOn_throwsTemplate rfl

theorem splitOn_boundThrowsTemplate :
    Text.splitOn boundThrowsTemplate Template.placeholder =
      ["", " ", " = assertThrows(", ".class, () -> \x7b", "\n\x7d", ");"] := by
  decide

theorem render_boundThrows (type binding lambda message : String) :
    Template.render boundThrowsTemplate
        [.text type, .text binding, .text type, .text lambda, .text message] =
      .ok (type ++ " " ++ binding ++ " = " ++ throwsText type lambda message) := by
  have woven : Template.weave ["", " ", " = assertThrows(", ".class, () -> \x7b", "\n\x7d", ");"]
      [type, binding, type, lambda, message] =
        type ++ " " ++ binding ++ " = " ++ throwsText type lambda message := by
    have infix_eq : " = assertThrows(" = " = " ++ "assertThrows(" := rfl
    simp only [Template.weave_cons, Template.weave_nil]
    unfold throwsText
    simp only [infix_eq, String.empty_append, String.append_assoc]
  rw [← woven]
  exact Template.render_texts [type, binding, type, lambda, message] splitOn_boundThrowsTemplate rfl

theorem splitOn_matcherTemplate (kind : ExpectationKind) :
    Text.splitOn (matcherTemplate kind) Template.placeholder =
      ["assertThat(", matched "" kind ++ ", ", ");"] := by
  cases kind <;> decide

theorem render_matcher (binding indent : String) (expectation : Expectation) :
    Template.render (matcherTemplate expectation.kind)
        [.text binding, .text (shiftFrom expectation.argument.text indent "")] =
      .ok (matcherText binding indent expectation) := by
  have woven : Template.weave ["assertThat(", matched "" expectation.kind ++ ", ", ");"]
      [binding, shiftFrom expectation.argument.text indent ""] =
        matcherText binding indent expectation := by
    have matched_eq : matched binding expectation.kind =
        binding ++ matched "" expectation.kind := by
      cases expectation.kind <;> simp only [matched, String.empty_append, String.append_empty]
    simp only [Template.weave_cons, Template.weave_nil, matcherText, matched_eq,
      String.append_assoc]
  rw [← woven]
  exact Template.render_texts [binding, _] (splitOn_matcherTemplate _) rfl

namespace MethodPlan

/-- The expected type is that of the expected class, if there is one. -/
def ExpectsType (plan : MethodPlan) (type : String) : Prop :=
  (∃ expectation ∈ plan.expectations, expectation.kind = .type ∧
    expectation.argument.form = .classLiteral type) ∨
  (∀ expectation ∈ plan.expectations, expectation.kind ≠ .type) ∧ type = defaultType

/-- The message is that of the expected message with a comma, if there is one. -/
def GivesMessage (plan : MethodPlan) (indent message : String) : Prop :=
  (∃ expectation ∈ plan.expectations, expectation.kind = .message ∧
    message = ", " ++ shiftFrom expectation.argument.text indent "") ∨
  (∀ expectation ∈ plan.expectations, expectation.kind ≠ .message) ∧ message = ""

/-- The expectations that are checked by matchers. -/
def matchers (plan : MethodPlan) : List Expectation :=
  plan.expectations.filter (·.kind.isMatcher)

end MethodPlan

/-- The kinds of expectations that are checked by matchers, in order. -/
def matcherKinds : List ExpectationKind :=
  [.typeMatcher, .messageMatcher, .causeMatcher]

/--
The statements of a planned method after the migration: an assertion that the lambda throws, and
behind it an assertion for each matcher, for which the thrown exception gets a name.  They are made
from their texts in a certain way.
-/
inductive MethodPlan.Asserts (IsMade : Statement → String → String → Prop) (plan : MethodPlan)
    (layout : Layout) (indent : String) : List Statement → Prop
  | unnamed {type message : String} {throwing : Statement}
      (expects : plan.ExpectsType type)
      (gives : plan.GivesMessage indent message)
      (noMatcher : plan.matchers = [])
      (made : IsMade throwing
        (shift (throwsText type (plan.lambda layout indent) message) indent) plan.lead) :
      plan.Asserts IsMade layout indent [throwing]
  | named {type message binding : String} {throwing : Statement} {checks : List Statement}
      (expects : plan.ExpectsType type)
      (gives : plan.GivesMessage indent message)
      (nonempty : plan.matchers ≠ [])
      (spelled : Java.isWord binding = true)
      (made : IsMade throwing
        (shift (type ++ " " ++ binding ++ " = " ++
          throwsText type (plan.lambda layout indent) message) indent) plan.lead)
      (ordered : (plan.matchers.map (·.kind)).Sublist matcherKinds)
      (checked : List.Forall₂ (fun expectation check =>
        IsMade check (shift (matcherText binding indent expectation) indent) ("\n" ++ indent))
        plan.matchers checks) :
      plan.Asserts IsMade layout indent (throwing :: checks)

section Assertions

variable {plan : MethodPlan} {calls : List Statement}

/-- What a plan holds is expected by one of the calls. -/
theorem MethodPlan.Describes.exists_expects
    {expectation : Expectation}
    (describes : plan.Describes calls)
    (inside : expectation ∈ plan.expectations) : ∃ call ∈ calls, Expects call expectation := by
  obtain ⟨found, expects, permuted⟩ := describes.each
  have isFound := permuted.mem_iff.mp inside
  clear permuted describes
  induction expects with
  | nil => cases isFound
  | cons first _ inductionHypothesis =>
      cases isFound with
      | head => exact ⟨_, List.mem_cons_self, first⟩
      | tail _ later =>
          obtain ⟨call, isCall, expects⟩ := inductionHypothesis later
          exact ⟨call, List.mem_cons_of_mem _ isCall, expects⟩

/-- No two expectations of a plan are of one kind. -/
theorem MethodPlan.Describes.eq_of_kind_eq
    {first second : Expectation}
    (describes : plan.Describes calls)
    (isFirst : first ∈ plan.expectations)
    (isSecond : second ∈ plan.expectations)
    (kind_eq : first.kind = second.kind) : first = second :=
  List.inj_on_of_nodup_map (describes.ordered.nodup (by decide)) isFirst isSecond kind_eq

theorem exists_type_of_kindOf?
    {name : String}
    {form : ExpressionForm}
    (kind_eq : kindOf? name form = some .type) : ∃ type, form = .classLiteral type := by
  obtain rfl : name = "expect" := name_eq_of_kindOf? kind_eq
  cases form with
  | classLiteral type => exact ⟨type, rfl⟩
  | _ => cases kind_eq

theorem expectsType_exceptionType (describes : plan.Describes calls) :
    plan.ExpectsType plan.exceptionType := by
  unfold MethodPlan.exceptionType MethodPlan.expectation?
  cases found : plan.expectations.find? (·.kind == .type) with
  | none =>
      refine .inr ⟨fun expectation inside same => ?_, rfl⟩
      simpa [same] using List.find?_eq_none.mp found expectation inside
  | some expectation =>
      have inside := List.mem_of_find?_eq_some found
      obtain ⟨_, -, -, _, -, -, kind_eq⟩ := describes.exists_expects inside
      rw [kind_of_find? found] at kind_eq
      obtain ⟨type, form_eq⟩ := exists_type_of_kindOf? kind_eq
      refine .inl ⟨expectation, inside, kind_of_find? found, ?_⟩
      simp [Expression.classType?, form_eq]

theorem givesMessage_messageArgument (plan : MethodPlan) (indent : String) :
    plan.GivesMessage indent (plan.messageArgument indent) := by
  unfold MethodPlan.messageArgument MethodPlan.expectation?
  cases found : plan.expectations.find? (·.kind == .message) with
  | none =>
      refine .inr ⟨fun expectation inside same => ?_, rfl⟩
      simpa [same] using List.find?_eq_none.mp found expectation inside
  | some expectation =>
      exact .inl ⟨expectation, List.mem_of_find?_eq_some found, kind_of_find? found, rfl⟩

theorem usesMatchers_eq_false_iff : plan.usesMatchers = false ↔ plan.matchers = [] := by
  simp [MethodPlan.usesMatchers, MethodPlan.matchers, List.filter_eq_nil_iff]

/-- The matchers come in the order of their kinds, at most one of each. -/
theorem sublist_kinds_matchers (describes : plan.Describes calls) :
    (plan.matchers.map (·.kind)).Sublist matcherKinds := by
  have kinds_eq : plan.matchers.map (·.kind) =
      (plan.expectations.map (·.kind)).filter (·.isMatcher) := by
    rw [List.filter_map]
    rfl
  rw [kinds_eq]
  exact describes.ordered.filter _

/-- Where matchers are expected, the thrown exception gets a fresh name and is checked. -/
theorem exists_checks_of_makes
    {layout : Layout}
    {decl : Method}
    {indent : String}
    {statements : List Statement}
    {earlier later : Session}
    (uses : plan.usesMatchers = true)
    (makes : (assertions layout plan decl indent).Makes earlier statements later) :
    let binding := freshName bindingBase (takenNames decl)
    ∃ throwing checks, statements = throwing :: checks ∧
      throwing.IsReadAs (shift (plan.exceptionType ++ " " ++ binding ++ " = " ++
        throwsText plan.exceptionType (plan.lambda layout indent) (plan.messageArgument indent))
        indent) plan.lead ∧
      List.Forall₂ (fun expectation check =>
        check.IsReadAs (shift (matcherText binding indent expectation) indent) ("\n" ++ indent))
        plan.matchers checks := by
  unfold assertions at makes
  dsimp only at makes
  rw [if_pos uses] at makes
  obtain ⟨throwing, _, makesThrowing, makesRest⟩ := makes_bind.mp makes
  obtain ⟨checks, _, makesChecks, makesList⟩ := makes_bind.mp makesRest
  obtain ⟨rfl, -⟩ := makes_pure.mp makesList
  refine ⟨throwing, checks, rfl,
    Template.isReadAs_of_makes (render_boundThrows _ _ _ _) makesThrowing, ?_⟩
  refine (forall₂_of_mapM makesChecks).imp ?_
  rintro expectation check ⟨_, _, makesCheck⟩
  exact Template.isReadAs_of_makes (render_matcher _ _ _) makesCheck

/-- The statements that are made for a planned method assert what is expected. -/
theorem asserts_of_makes
    {layout : Layout}
    {decl : Method}
    {indent : String}
    {statements : List Statement}
    {earlier later : Session}
    (describes : plan.Describes calls)
    (makes : (assertions layout plan decl indent).Makes earlier statements later) :
    plan.Asserts Statement.IsReadAs layout indent statements := by
  have expects := expectsType_exceptionType describes
  have gives := givesMessage_messageArgument plan indent
  cases uses : plan.usesMatchers with
  | true =>
      obtain ⟨throwing, checks, rfl, reads, checked⟩ := exists_checks_of_makes uses makes
      have nonempty : plan.matchers ≠ [] := by
        rw [Ne, ← usesMatchers_eq_false_iff, uses]
        decide
      have spelled := (isFresh_freshName bindingBase (takenNames decl)).isWord (by decide)
      exact .named expects gives nonempty spelled reads (sublist_kinds_matchers describes) checked
  | false =>
      unfold assertions at makes
      dsimp only at makes
      rw [uses, if_neg Bool.false_ne_true] at makes
      obtain ⟨throwing, _, makesThrowing, makesList⟩ := makes_bind.mp makes
      obtain ⟨rfl, -⟩ := makes_pure.mp makesList
      exact .unnamed expects gives (usesMatchers_eq_false_iff.mp uses)
        (Template.isReadAs_of_makes (render_throws _ _ _) makesThrowing)

end Assertions

/-- A method without a body calls no rule, so there is no plan for it. -/
theorem exists_body_of_scanMethod
    {rule : String}
    {decl : Method}
    {plan : MethodPlan}
    (planned : scanMethod rule decl = .ok (some plan)) : ∃ body, decl.body = some body := by
  obtain ⟨calls, statements_eq, describes⟩ := describes_of_scanMethod planned
  cases body_eq : decl.body with
  | some body => exact ⟨body, rfl⟩
  | none =>
      have nothing : bodyStatements decl = [] := by
        unfold bodyStatements
        rw [body_eq]
        rfl
      rw [nothing, List.nil_eq, List.append_eq_nil_iff, List.append_eq_nil_iff] at statements_eq
      have anchored := describes.anchor_eq
      rw [statements_eq.2.1] at anchored
      cases anchored

/-! ## Units of valid configurations -/

/-- The unit of a file is an indentation if the configuration is valid. -/
theorem isIndentation_of_valid
    {configuration : Configuration}
    (valid : configuration.Valid)
    (unit : SourceUnit) : IsIndentation (Layout.ofUnit unit configuration.indent).unit := by
  refine isIndentation_ofUnit (fun text given c inside => ?_) unit
  have isUnit := valid.indent text given
  rw [Configuration.isIndentUnit, Bool.and_eq_true] at isUnit
  exact List.all_eq_true.mp isUnit.2 c inside

end ExpectedException

end JupiterMigration
