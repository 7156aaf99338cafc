import JupiterMigration.Proofs.Binding.FreshName
import JupiterMigration.Proofs.Grammar.Words
import JupiterMigration.Proofs.Statements

/-!
# The name of the thrown exception

Where a matcher is expected, the thrown exception is bound to a fresh name.  Every word that begins
like that name is used as a name wherever it stands in a statement that is read, so what a statement
mentions covers all words in it that the name could clash with (`Statement.lasting_namesWords`).
Hence no parameter has the bound name, and it occurs neither in the statements that move into the
lambda nor in what is asserted afterwards, at any point of a conversion
(`Conversion.binds_of_parse`).
-/

namespace JupiterMigration

open Synthesis
open Member (bodyStatements)

namespace Java

/-- No word in a phrase is spelled like the name. -/
def Phrase.Lacks (phrase : Phrase) (name : String) : Prop :=
  ∀ token ∈ phrase.tokens, token.kind = .word → token.text ≠ name

theorem Within.lacks
    {part whole : Phrase}
    {name : String}
    (within : Within part whole)
    (lacks : whole.Lacks name) : part.Lacks name :=
  fun token inside => lacks token (within.tokens.subset inside)

/-- An argument of a call is read from a phrase within that of the call. -/
theorem Call.exists_of_mem_arguments
    {phrase : Phrase}
    {call : JupiterMigration.Call}
    {argument : JupiterMigration.Expression}
    (found : ofStatement? phrase = some call)
    (inside : argument ∈ call.arguments) :
    ∃ part, Within part phrase ∧ argument = Expression.ofPhrase part := by
  unfold ofStatement? at found
  split at found
  · next expression rest =>
      unfold ofExpression? at found
      split at found
      · next links =>
          split at found
          · next parts last_eq =>
              cases found
              dsimp only at inside
              split at inside
              · next list list_eq =>
                  obtain ⟨part, isArgument, rfl⟩ := List.mem_map.mp inside
                  have inList : Within part list :=
                    .of_mem_parts (List.mem_of_mem_filter isArgument)
                  have inCall := inList.trans (.of_mem (List.mem_of_getLast? list_eq) .call)
                  have inChain := inCall.trans (.of_mem (List.mem_of_getLast? last_eq) .primary)
                  have inExpression :=
                    inChain.trans (.of_mem (List.mem_singleton_self _) .expression)
                  exact ⟨part, inExpression.trans (.of_mem List.mem_cons_self _), rfl⟩
              · cases inside
          · cases found
      · cases found
  · cases found

end Java

/-! ## Statements that mention their words -/

namespace Statement

/-- A statement is what a phrase is read as, apart from its number and its lead. -/
structure IsReadFrom (statement : Statement) (phrase : Java.Phrase) : Prop where
  content_eq : statement.content = (Java.Statement.ofPhrase phrase).content
  written : Java.Written phrase
  /-- The tokens of the phrase stand in a row in some source. -/
  isCut : ∃ source tokens tail, Java.Token.scan source = some (tokens, tail) ∧
    phrase.tokens <:+: tokens

/-- A statement that is read from a phrase which uses some words as names wherever they stand. -/
def NamesWords (special : String → Bool) (statement : Statement) : Prop :=
  ∃ phrase, statement.IsReadFrom phrase ∧ Java.NamesWords special phrase

variable {special : String → Bool}

/-- All statements use words as names that are no keywords. -/
theorem lasting_namesWords
    (tableSpares : ∀ category, Java.spares special (Java.Category.rule category) = true) :
    Lasting (fun _ => True) (NamesWords special) where
  isLead _ := trivial
  ofContent := by
    rintro statement other same - ⟨phrase, isRead, names⟩
    exact ⟨phrase, ⟨same.trans isRead.content_eq, isRead.written, isRead.isCut⟩, names⟩
  ofRead := by
    intro source path unit unitRead member isMember decl inMember statement inside
    have isMethod : Node.member (.method decl) ∈ Member.walkAll unit.members :=
      Member.mem_walkAll.mpr ⟨member, isMember, inMember⟩
    have inherited : Java.Inherited fun phrase =>
        Java.Written phrase ∧ Java.NamesWords special phrase :=
      fun both isPart => ⟨Java.written_of_mem_parts both.1 isPart,
        Java.namesWords_of_mem_parts both.2 isPart⟩
    obtain ⟨tokens, tail, phrase, body, scanned, isCut, holds, isStatement, phrase_eq⟩ :=
      SourceUnit.isRead_of_read? inherited (fun readFound phrase isPhrase =>
        ⟨Java.writtenAll_iff.mp (Java.writtenAll_of_readProgram readFound) phrase isPhrase,
          Java.namesWordsAll_iff.mp (Java.namesWordsAll_of_readProgram tableSpares readFound) phrase
            isPhrase⟩) unitRead isMethod inside
    obtain ⟨written, names⟩ := inherited holds isStatement.mem_parts
    refine ⟨phrase, ⟨?_, written, source, tokens, tail, scanned, isStatement.tokens.trans isCut⟩,
      names⟩
    exact congrArg (fun unnumbered : Statement => { unnumbered with lead := "" }) phrase_eq

/-- A word that a statement does not mention does not stand in it. -/
theorem NamesWords.exists_lacks
    {statement : Statement}
    {name : String}
    (names : statement.NamesWords special)
    (isSpecial : special name = true)
    (unmentioned : name ∉ statement.references) :
    ∃ phrase, statement.IsReadFrom phrase ∧ phrase.Lacks name := by
  obtain ⟨phrase, isRead, names⟩ := names
  refine ⟨phrase, isRead, ?_⟩
  rintro token inside isWord rfl
  have references_eq : statement.references = Java.namesIn [phrase] :=
    congrArg (·.references) isRead.content_eq
  rw [references_eq, Java.mem_namesIn_singleton] at unmentioned
  exact unmentioned (names.mem_allNames isWord isSpecial phrase inside)

end Statement

namespace ExpectedException

/-! ## Names that begin like the preferred one -/

/-- Whether a text begins like the preferred name for the thrown exception. -/
def beginsLikeBinding (text : String) : Bool :=
  Text.beginsWith text bindingBase

theorem IsFresh.beginsLikeBinding
    {taken : List String}
    {name : String}
    (fresh : IsFresh bindingBase taken name) : beginsLikeBinding name = true := by
  unfold ExpectedException.beginsLikeBinding Text.beginsWith
  rw [List.isPrefixOf_iff_prefix]
  cases fresh with
  | base _ => exact List.prefix_refl _
  | numbered _ _ _ _ =>
      rw [numberedName, String.toList_append]
      exact List.prefix_append _ _

/-- No keyword begins like the preferred name for the thrown exception. -/
theorem spares_beginsLikeBinding (category : Java.Category) :
    Java.spares beginsLikeBinding (Java.Category.rule category) = true := by
  cases category with
  | expression arrows | operand arrows | primary arrows | selectors arrows | assignable arrows =>
      cases arrows <;> decide
  | _ => decide

/-! ## What the bound name is apart from -/

/--
A name for the thrown exception that is safe in a planned method: it is fresh, no parameter has it,
and it stands neither in a statement that moves into the lambda nor in what is expected.
-/
structure MethodPlan.Spares (plan : MethodPlan) (decl : Method) (binding : String) : Prop where
  fresh : IsFresh bindingBase (takenNames decl) binding
  parameters : ∀ parameter ∈ decl.parameters, parameter.name ≠ binding
  moved : ∀ statement ∈ plan.leading ++ plan.body,
    ∃ phrase, statement.IsReadFrom phrase ∧ phrase.Lacks binding
  arguments : ∀ expectation ∈ plan.expectations, ∃ phrase part,
    expectation.statement.IsReadFrom phrase ∧ Java.Within part phrase ∧
      expectation.argument = Java.Expression.ofPhrase part ∧ part.Lacks binding

/-- A method in which the thrown exception is bound to a name and then checked by matchers. -/
def MethodPlan.Binds
    (plan : MethodPlan)
    (layout : Layout)
    (indent binding : String)
    (statements : List Statement) : Prop :=
  ∃ type message throwing checks, statements = throwing :: checks ∧
    throwing.IsReadAs (Layout.shift (type ++ " " ++ binding ++ " = " ++
      throwsText type (plan.lambda layout indent) message) indent) plan.lead ∧
    List.Forall₂ (fun expectation check =>
      check.IsReadAs (Layout.shift (matcherText binding indent expectation) indent)
        ("\n" ++ indent)) plan.matchers checks

/-- What the statements of a method mention may not be used as a name. -/
theorem mem_takenNames_of_mem_references
    {decl : Method}
    {statement : Statement}
    {name : String}
    (inside : statement ∈ bodyStatements decl)
    (mentioned : name ∈ statement.references) : name ∈ takenNames decl :=
  List.mem_append_left _
    (Member.mem_namesUsed_method.mpr (.inr (.inr (.inr ⟨statement, inside, mentioned⟩))))

/-- The name of the thrown exception is safe if the statements mention the words like it. -/
theorem spares_of_scanMethod
    {rule : String}
    {decl : Method}
    {plan : MethodPlan}
    (names : ∀ statement ∈ bodyStatements decl, statement.NamesWords beginsLikeBinding)
    (planned : scanMethod rule decl = .ok (some plan)) :
    plan.Spares decl (freshName bindingBase (takenNames decl)) := by
  have fresh := isFresh_freshName bindingBase (takenNames decl)
  have lacks : ∀ statement ∈ bodyStatements decl, ∃ phrase, statement.IsReadFrom phrase ∧
      phrase.Lacks (freshName bindingBase (takenNames decl)) := by
    intro statement inside
    refine (names statement inside).exists_lacks fresh.beginsLikeBinding fun mentioned => ?_
    exact fresh.notMem (mem_takenNames_of_mem_references inside mentioned)
  obtain ⟨calls, statements_eq, describes⟩ := describes_of_scanMethod planned
  refine ⟨fresh, fun parameter inside same => ?_, fun statement inside => ?_,
    fun expectation inside => ?_⟩
  · exact fresh.notMem (same ▸ List.mem_append_right _ (List.mem_map_of_mem inside))
  · refine lacks statement ?_
    rw [statements_eq]
    rcases List.mem_append.mp inside with isLeading | isBody
    · exact List.mem_append_left _ isLeading
    · exact List.mem_append_right _ (List.mem_append_right _ isBody)
  · obtain ⟨_, isCall, rfl, call, call_eq, arguments_eq, -⟩ := describes.exists_expects inside
    have isStatement : expectation.statement ∈ bodyStatements decl := by
      rw [statements_eq]
      exact List.mem_append_right _ (List.mem_append_left _ isCall)
    obtain ⟨phrase, isRead, lacksName⟩ := lacks expectation.statement isStatement
    have found : Java.Call.ofStatement? phrase = some call :=
      (congrArg (·.call) isRead.content_eq).symm.trans call_eq
    obtain ⟨part, within, argument_eq⟩ := Java.Call.exists_of_mem_arguments found
      (arguments_eq ▸ List.mem_singleton_self _)
    exact ⟨phrase, part, isRead, within, argument_eq, within.lacks lacksName⟩

/-- Where matchers are expected, the migrated method binds the fresh name. -/
theorem binds_of_makes
    {layout : Layout}
    {memberIndent : String}
    {plan : MethodPlan}
    {decl result : Method}
    {earlier later : Session}
    (uses : plan.usesMatchers = true)
    (makes : (migrateMethod layout memberIndent plan decl).Makes earlier result later) :
    ∃ statements, result = { decl with body := decl.body.map fun block =>
        { block with statements } } ∧
      plan.Binds layout (layout.statementIndent decl memberIndent)
        (freshName bindingBase (takenNames decl)) statements := by
  obtain ⟨statements, middle, made, rest⟩ := makes_bind.mp makes
  obtain ⟨rfl, -⟩ := makes_pure.mp rest
  obtain ⟨throwing, checks, statements_eq, reads, checked⟩ := exists_checks_of_makes uses made
  exact ⟨statements, rfl, _, _, throwing, checks, statements_eq, reads, checked⟩

end ExpectedException

namespace Conversion

open ExpectedException

/--
The name of the thrown exception is fresh.  For every base and all taken names a fresh name is
found.  At any point of a conversion, a planned method with matchers binds such a name, which no
parameter has and which stands neither in what moves into the lambda nor in what is checked.
-/
theorem binds_of_parse :
    (∀ base taken, IsFresh base taken (freshName base taken)) ∧
      ∀ source path next result layout recipes session rule decl plan,
        SourceUnit.parse source path next = .ok result →
        result.2 ≤ session.nextId →
        Node.member (.method decl) ∈ Member.walkAll
          (((applyRecipes layout recipes result.1).run session).1.update.getD result.1).members →
        scanMethod rule decl = .ok (some plan) →
        plan.usesMatchers = true →
        ∃ binding, plan.Spares decl binding ∧
          ∀ memberIndent earlier migrated later,
            (migrateMethod layout memberIndent plan decl).Makes earlier migrated later →
            ∃ statements, migrated = { decl with body := decl.body.map fun block =>
                { block with statements } } ∧
              plan.Binds layout (layout.statementIndent decl memberIndent) binding statements := by
  refine ⟨isFresh_freshName, ?_⟩
  intro source path next result layout recipes session rule decl plan parsed fresh isMethod planned
    uses
  obtain ⟨member, isMember, inMember⟩ := Member.mem_walkAll.mp isMethod
  have names := eachStatement_of_parse
    (Statement.lasting_namesWords spares_beginsLikeBinding) parsed (fun _ _ => trivial) recipes
    fresh member isMember decl inMember
  exact ⟨_, spares_of_scanMethod names planned,
    fun memberIndent earlier migrated later makes => binds_of_makes uses makes⟩

/-- A parameter has the preferred name for the thrown exception, and another name is used, too. -/
def takenByParameter : String :=
  "class A \x7b\n  void t(int exception) \x7b\n    rule.expectCause(a);\n    q(exception1);\n" ++
    "  \x7d\n\x7d\n"

theorem binds_of_parse_takenByParameter :
    ∃ result layout session decl plan, SourceUnit.parse takenByParameter none 1 = .ok result ∧
      result.2 ≤ session.nextId ∧
      Node.member (.method decl) ∈ Member.walkAll (((applyRecipes layout [.parameterized]
        result.1).run session).1.update.getD result.1).members ∧
      scanMethod "rule" decl = .ok (some plan) ∧ plan.usesMatchers = true ∧
      plan.Spares decl "exception2" ∧
      ∃ migrated later statements,
        (migrateMethod layout "  " plan decl).Makes session migrated later ∧
        migrated = { decl with body := decl.body.map fun block => { block with statements } } ∧
        plan.Binds layout (layout.statementIndent decl "  ") "exception2" statements := by
  have migrates : ∃ result ∈ (SourceUnit.parse takenByParameter none 1).toOption,
      let layout := Layout.ofUnit result.1 none
      let session : Session := ⟨.empty, result.2⟩
      ∃ decl ∈ (((applyRecipes layout [.parameterized] result.1).run session).1.update.getD
        result.1).methods,
      ∃ plan ∈ (scanMethod "rule" decl).toOption.join, plan.usesMatchers = true ∧
        freshName bindingBase (takenNames decl) = "exception2" ∧
        ((migrateMethod layout "  " plan decl).run.run session).1.toOption.isSome = true := by
    decide +kernel
  obtain ⟨result, isResult, decl, inside, plan, isPlan, uses, fresh_eq, migrates⟩ := migrates
  have parsed := Except.eq_ok_of_mem_toOption isResult
  have isMethod := SourceUnit.mem_walkAll_of_mem_methods inside
  have planned := Except.eq_ok_of_mem_toOption (Option.join_eq_some_iff.mp isPlan)
  obtain ⟨migrated, later, makes⟩ := Synthesis.exists_makes migrates
  obtain ⟨binding, spares, binds⟩ := binds_of_parse.2 _ _ _ result (Layout.ofUnit result.1 none) _
    ⟨.empty, result.2⟩ _ decl plan parsed (Nat.le_refl _) isMethod planned uses
  obtain rfl : binding = "exception2" :=
    (spares.fresh.eq (isFresh_freshName _ _)).trans fresh_eq
  obtain ⟨statements, migrated_eq, bound⟩ := binds "  " _ migrated _ makes
  exact ⟨result, _, _, decl, plan, parsed, Nat.le_refl _, isMethod, planned, uses, spares, migrated,
    _, statements, makes, migrated_eq, bound⟩

end Conversion

end JupiterMigration
