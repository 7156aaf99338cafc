import JupiterMigration.Conversion
import JupiterMigration.Proofs.Lambda.Text
import JupiterMigration.Proofs.Revision.Basic
import JupiterMigration.Proofs.TextBlocks.Move

/-!
# Text blocks in planned methods

The statements and arguments of a planned method move line by line: a line that begins with the
indentation of the statements gets another one, and a line that does not stays, before both move
behind that indentation.  So a text block keeps its value if its lines that count all begin with the
indentation, or none of them does (`ExpectedException.keepsValue_of_scanMethod`).  In any other text
block some lines move further than others, and its value can change (`Run.textBlock_changed`).
-/

namespace JupiterMigration

open Synthesis
open Member (bodyStatements)

/-- What begins with no line feed stays where line feeds are joined. -/
theorem Layout.isInfix_joinLineFeeds
    {c : Char}
    {more text : List Char}
    (noLineFeed : c ≠ '\n')
    (inside : c :: more <:+: text) : c :: more <:+: joinLineFeeds text := by
  obtain ⟨front, back, rfl⟩ := inside
  refine ⟨joinLineFeeds front, back, ?_⟩
  rw [List.append_assoc, List.append_assoc]
  exact (joinLineFeeds_append noLineFeed front (more ++ back)).symm

namespace ExpectedException

open Layout

/-- What is expected beside a type is checked by a matcher, or it is a message. -/
theorem ExpectationKind.isMatcher_or_eq_message
    {kind : ExpectationKind}
    (noType : kind ≠ .type) : kind.isMatcher = true ∨ kind = .message := by
  cases kind with
  | type => exact absurd rfl noType
  | message => exact .inr rfl
  | _ => exact .inl rfl

/-- A text block in a statement that a plan moves, or in the argument of a message or matcher. -/
def MethodPlan.Moves (plan : MethodPlan) (block : TextBlock) : Prop :=
  (∃ statement ∈ plan.leading ++ plan.body, block.text <:+: statement.text.toList) ∨
    ∃ expectation ∈ plan.expectations, expectation.kind ≠ .type ∧
      block.text <:+: expectation.argument.text.toList

/-- A text with a text block that has the value of another one. -/
def KeepsValue (block : TextBlock) (text : String) : Prop :=
  ∃ other : TextBlock, other.WellFormed ∧ other.text <:+: text.toList ∧ other.value = block.value

section Assertions

variable
  {IsMade : Statement → String → String → Prop}
  {plan : MethodPlan}
  {layout : Layout}
  {indent : String}
  {statements calls : List Statement}
  {block : TextBlock}

/-- One of the new statements asserts that the lambda throws. -/
theorem MethodPlan.Asserts.exists_throwing
    (asserts : plan.Asserts IsMade layout indent statements) :
    ∃ throwing ∈ statements, ∃ front type message, plan.GivesMessage indent message ∧
      IsMade throwing
        (shift (front ++ throwsText type (plan.lambda layout indent) message) indent)
        plan.lead := by
  cases asserts with
  | unnamed expects gives noMatcher made =>
      exact ⟨_, List.mem_cons_self, "", _, _, gives, by rwa [String.empty_append]⟩
  | named expects gives nonempty spelled made ordered checked =>
      exact ⟨_, List.mem_cons_self, _, _, _, gives, made⟩

/-- Each matcher is asserted by one of the new statements. -/
theorem MethodPlan.Asserts.exists_check
    {expectation : Expectation}
    (asserts : plan.Asserts IsMade layout indent statements)
    (isMatcher : expectation ∈ plan.matchers) :
    ∃ check ∈ statements, ∃ binding,
      IsMade check (shift (matcherText binding indent expectation) indent) ("\n" ++ indent) := by
  cases asserts with
  | unnamed expects gives noMatcher made =>
      rw [noMatcher] at isMatcher
      cases isMatcher
  | named expects gives nonempty spelled made ordered checked =>
      obtain ⟨check, isCheck, madeCheck⟩ := exists_of_forall₂ checked.flip isMatcher
      exact ⟨check, List.mem_cons_of_mem _ isCheck, _, madeCheck⟩

/-- A block in a moved statement stands in the lambda, with the new indentation. -/
theorem isInfix_lambda
    {statement : Statement}
    (indentBlank : IsIndentation indent)
    (wellFormed : block.WellFormed)
    (moved : statement ∈ plan.leading ++ plan.body)
    (inside : block.text <:+: statement.text.toList) :
    (block.realigned indent.toList layout.unit.toList).text <:+:
      (plan.lambda layout indent).toList := by
  obtain ⟨twin, isMoved, text_eq⟩ : ∃ twin ∈ plan.moved indent, twin.text = statement.text := by
    unfold MethodPlan.moved
    cases leading_eq : plan.leading with
    | nil =>
        rw [leading_eq, List.nil_append] at moved
        exact ⟨statement, moved, rfl⟩
    | cons first rest =>
        rw [leading_eq, List.cons_append] at moved
        cases moved with
        | head => exact ⟨_, List.mem_cons_self, rfl⟩
        | tail _ later => exact ⟨statement, List.mem_cons_of_mem _ later, rfl⟩
  have printed : block.text <:+: twin.print.toList := by
    rw [Statement.print, String.toList_append, text_eq]
    exact inside.trans (List.suffix_append _ _).isInfix
  have joined : (block.realigned indent.toList layout.unit.toList).text <:+:
      (String.join ((plan.moved indent).map fun statement =>
        shiftFrom statement.print indent layout.unit)).toList :=
    (TextBlock.isInfix_realigned indentBlank wellFormed printed).trans
      (isInfix_join (List.mem_map_of_mem isMoved))
  obtain ⟨more, begins⟩ : ∃ more,
      (block.realigned indent.toList layout.unit.toList).text = '"' :: more := ⟨_, rfl⟩
  rw [begins] at joined ⊢
  rw [MethodPlan.lambda, lambdaBody, String.toList_ofList]
  exact isInfix_joinLineFeeds (by decide) joined

theorem isInfix_throwsText_lambda (type lambda message : String) :
    lambda.toList <:+: (throwsText type lambda message).toList := by
  have split_eq : throwsText type lambda message =
      ("assertThrows(" ++ type ++ ".class, () -> \x7b") ++ lambda ++
        ("\n\x7d" ++ message ++ ");") := by
    unfold throwsText
    simp only [String.append_assoc]
  rw [split_eq]
  exact isInfix_between _ _ _

theorem isInfix_throwsText_message (type lambda message : String) :
    message.toList <:+: (throwsText type lambda message).toList :=
  isInfix_between _ _ _

/-- A text keeps the value of a block that moves into it if the lines that count agree. -/
theorem keepsValue_shift
    {unit text : String}
    (unitBlank : IsIndentation unit)
    (indentBlank : IsIndentation indent)
    (wellFormed : block.WellFormed)
    (level : block.Level indent.toList)
    (inside : (block.realigned indent.toList unit.toList).text <:+: text.toList) :
    KeepsValue block (shift text indent) := by
  have realigned : (block.realigned indent.toList unit.toList).WellFormed :=
    wellFormed.realigned unitBlank
  exact ⟨_, realigned.shifted indentBlank, TextBlock.isInfix_shifted realigned inside,
    TextBlock.value_moved indentBlank unitBlank level⟩

/-- A moved block keeps its value in what the new statements are made from. -/
theorem exists_keepsValue_of_asserts
    (unitBlank : IsIndentation layout.unit)
    (indentBlank : IsIndentation indent)
    (describes : plan.Describes calls)
    (asserts : plan.Asserts IsMade layout indent statements)
    (wellFormed : block.WellFormed)
    (level : block.Level indent.toList)
    (moves : plan.Moves block) :
    ∃ statement ∈ statements, ∃ text lead, IsMade statement text lead ∧ KeepsValue block text := by
  have noneBlank : IsIndentation "" := fun c inside => by cases inside
  obtain ⟨throwing, isNew, front, type, message, gives, made⟩ := asserts.exists_throwing
  have atEnd {part : List Char} (inThrows : part <:+:
      (throwsText type (plan.lambda layout indent) message).toList) :
      part <:+: (front ++ throwsText type (plan.lambda layout indent) message).toList := by
    rw [String.toList_append]
    exact inThrows.trans (List.suffix_append _ _).isInfix
  rcases moves with ⟨statement, moved, inside⟩ | ⟨expectation, isExpected, noType, inside⟩
  · have inLambda : (block.realigned indent.toList layout.unit.toList).text <:+:
        (plan.lambda layout indent).toList := isInfix_lambda indentBlank wellFormed moved inside
    exact ⟨throwing, isNew, _, _, made, keepsValue_shift unitBlank indentBlank wellFormed level
      (atEnd (inLambda.trans (isInfix_throwsText_lambda _ _ _)))⟩
  have inArgument : (block.realigned indent.toList "".toList).text <:+:
      (shiftFrom expectation.argument.text indent "").toList :=
    TextBlock.isInfix_realigned indentBlank wellFormed inside
  rcases ExpectationKind.isMatcher_or_eq_message noType with isMatcher | isMessage
  · obtain ⟨check, isCheck, binding, madeCheck⟩ :=
      asserts.exists_check (List.mem_filter.mpr ⟨isExpected, isMatcher⟩)
    exact ⟨check, isCheck, _, _, madeCheck, keepsValue_shift noneBlank indentBlank wellFormed level
      (inArgument.trans (isInfix_between _ _ _))⟩
  · rcases gives with ⟨given, isGiven, given_kind, message_eq⟩ | ⟨noMessage, -⟩
    · obtain rfl := describes.eq_of_kind_eq isExpected isGiven (isMessage.trans given_kind.symm)
      have inMessage : (block.realigned indent.toList "".toList).text <:+: message.toList := by
        rw [message_eq, String.toList_append]
        exact inArgument.trans (List.suffix_append _ _).isInfix
      exact ⟨throwing, isNew, _, _, made, keepsValue_shift noneBlank indentBlank wellFormed level
        (atEnd (inMessage.trans (isInfix_throwsText_message _ _ _)))⟩
    · exact absurd isMessage (noMessage expectation isExpected)

end Assertions

/--
Moving code keeps the values of text blocks whose lines that count all begin with the indentation of
the statements, or none of which does: those in statements that move into a lambda and those in
arguments that move into an assertion.  A new statement is read from a text with a block of that
value; in a conversion it has such a block itself if the expected type is written as words joined by
dots.
-/
theorem keepsValue_of_scanMethod
    {configuration : Configuration}
    {rule : String}
    {decl : Method}
    {plan : MethodPlan}
    (valid : configuration.Valid)
    (planned : scanMethod rule decl = .ok (some plan))
    (unit : SourceUnit)
    (classDecl : ClassDecl) :
    let layout := Layout.ofUnit unit configuration.indent
    let memberIndent := layout.memberIndent classDecl
    ∀ block : TextBlock, block.WellFormed →
      block.Level (layout.statementIndent decl memberIndent).toList →
      plan.Moves block →
      ∀ earlier migrated later,
        (migrateMethod layout memberIndent plan decl).Makes earlier migrated later →
        (∃ statement ∈ bodyStatements migrated, ∃ text lead,
          statement.IsReadAs text lead ∧ KeepsValue block text) ∧
        (Conversion.Reaches layout decl → Java.IsPath plan.exceptionType →
          ∃ statement ∈ bodyStatements migrated, KeepsValue block statement.text) := by
  intro layout memberIndent block wellFormed level moves earlier migrated later makes
  have unitBlank : IsIndentation layout.unit := isIndentation_of_valid valid unit
  have indentBlank := isIndentation_statementIndent unitBlank
    (isIndentation_memberIndent unitBlank classDecl) decl
  obtain ⟨calls, split_eq, describes⟩ := describes_of_scanMethod planned
  obtain ⟨body, body_eq⟩ := exists_body_of_scanMethod planned
  obtain ⟨statements, _, made, rest⟩ := makes_bind.mp makes
  obtain ⟨rfl, -⟩ := makes_pure.mp rest
  have statements_eq : bodyStatements { decl with body := decl.body.map fun block =>
      { block with statements } } = statements := by
    rw [body_eq]
    rfl
  rw [statements_eq]
  have asserts := asserts_of_makes describes made
  refine ⟨exists_keepsValue_of_asserts unitBlank indentBlank describes asserts wellFormed level
    moves, fun reaches isPath => ?_⟩
  obtain ⟨statement, isNew, text, lead, ⟨-, text_eq⟩, keeps⟩ := exists_keepsValue_of_asserts
    unitBlank indentBlank describes (asserts.isWrittenAs describes unitBlank indentBlank
      (split_eq ▸ reaches.isMovable unitBlank) isPath) wellFormed level moves
  exact ⟨statement, isNew, text_eq ▸ keeps⟩

/-- A class with a method that prepares something, expects a message and runs two text blocks. -/
def expectedWithTextBlock : String :=
  "class A \x7b\n  void t() \x7b\n    rule.expectMessage(m);\n" ++
    "    run(\"\"\"\n      a\n        b\n    \"\"\");\n  \x7d\n\x7d\n"

theorem keepsValue_of_scanMethod_textBlock :
    ∃ result decl plan classDecl migrated later, Configuration.standard.Valid ∧
      scanMethod "rule" decl = .ok (some plan) ∧
      let layout := Layout.ofUnit result Configuration.standard.indent
      let memberIndent := layout.memberIndent classDecl
      let block : TextBlock := ⟨[], ["      a".toList, "        b".toList], "    ".toList⟩
      block.WellFormed ∧ block.Level (layout.statementIndent decl memberIndent).toList ∧
        plan.Moves block ∧
        (migrateMethod layout memberIndent plan decl).Makes ⟨.empty, 1⟩ migrated later ∧
        Conversion.Reaches layout decl ∧ Java.IsPath plan.exceptionType ∧
        ∃ statement ∈ bodyStatements migrated, KeepsValue block statement.text := by
  let block : TextBlock := ⟨[], ["      a".toList, "        b".toList], "    ".toList⟩
  have valid := Configuration.valid_standard
  have wellFormed : block.WellFormed := ⟨by decide, by decide, by decide⟩
  have level : block.Level "    ".toList := .inl (by decide)
  have migrates : ∃ result ∈ (SourceUnit.parse expectedWithTextBlock none 1).toOption,
      ∃ decl ∈ result.1.methods, ∃ plan ∈ (scanMethod "rule" decl).toOption.join,
      ∃ classDecl ∈ result.1.classes, ∃ statement ∈ plan.body,
      let layout := Layout.ofUnit result.1 Configuration.standard.indent
      let memberIndent := layout.memberIndent classDecl
      layout.statementIndent decl memberIndent = "    " ∧ plan.exceptionType = "Exception" ∧
        block.text <:+: statement.text.toList ∧
        ((migrateMethod layout memberIndent plan decl).run.run
          ⟨.empty, 1⟩).1.toOption.isSome = true := by
    decide +kernel
  obtain ⟨result, isResult, decl, isMethod, plan, isPlan, classDecl, -, statement, isMoved,
    indent_eq, type_eq, inside, migrates⟩ := migrates
  have planned := Except.eq_ok_of_mem_toOption (Option.join_eq_some_iff.mp isPlan)
  have moves : plan.Moves block := .inl ⟨statement, List.mem_append_right _ isMoved, inside⟩
  obtain ⟨migrated, later, makes⟩ := Synthesis.exists_makes migrates
  have reaches : Conversion.Reaches (Layout.ofUnit result.1 Configuration.standard.indent) decl :=
    Conversion.reaches_of_parse _ (Except.eq_ok_of_mem_toOption isResult) isMethod
  have isPath : Java.IsPath plan.exceptionType := type_eq ▸ .word (by decide)
  rw [← indent_eq] at level
  exact ⟨result.1, decl, plan, classDecl, migrated, _, valid, planned, wellFormed, level, moves,
    makes, reaches, isPath, (keepsValue_of_scanMethod valid planned result.1 classDecl block
      wellFormed level moves _ migrated _ makes).2 reaches isPath⟩

end ExpectedException

namespace Run

/-- The texts of the text blocks of a source. -/
def textBlocks (source : String) : List (List Char) :=
  (((Java.Token.scan source).map Prod.fst).getD []).filterMap fun token =>
    if token.kind = .string ∧ TextBlock.quotes <+: token.text.toList then some token.text.toList
    else none

/-- A class in which a text block begins at the left of the statement it stands in. -/
def expectedWithLeftBlock : String :=
  "class A \x7b\n    @org.junit.Rule\n    org.junit.rules.ExpectedException rule;\n\n" ++
    "    void t() \x7b\n        rule.expect(E.class);\n        run(\"\"\"\na\n        b\n" ++
    "        \"\"\");\n    \x7d\n\x7d\n"

/-- The lines of a text block move by different numbers of columns, and its value changes. -/
theorem textBlock_changed :
    let block : TextBlock := ⟨[], ["a".toList, "        b".toList], "        ".toList⟩
    let other : TextBlock :=
      ⟨[], ["        a".toList, "            b".toList], "            ".toList⟩
    textBlocks expectedWithLeftBlock = [block.text] ∧
      (start .standard expectedWithLeftBlock none 1).conversion.success = true ∧
      textBlocks (start .standard expectedWithLeftBlock none 1).conversion.code = [other.text] ∧
      block.value = ["a".toList, "        b".toList, []] ∧
      other.value = ["a".toList, "    b".toList, []] := by
  decide +kernel

end Run

end JupiterMigration
