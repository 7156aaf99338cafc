import JupiterMigration.Proofs.Lambda.Text

/-!
# What a planned method keeps

All statements of a file can be moved (`Statement.lasting_isMovable`), so the leading statements of
a plan may begin the lambda, and the new statements have the texts that were rendered.  At any point
of a conversion, a planned method keeps its statements and all else but the calls of the rule
(`Conversion.keeps_of_parse`).
-/

namespace JupiterMigration

open Synthesis
open Member (bodyStatements)

namespace ExpectedException

open Layout

/--
What the migration of a method with a plan keeps.  All statements but the calls of the rule are in
the plan, and stand in the lambda in order; the new statements assert what the plan expects of the
lambda, and all else in the method stays as it was.  If the expected type is written as words joined
by dots, the new statements have the texts that assert it.
-/
structure Keeps (layout : Layout) (memberIndent : String) (plan : MethodPlan) (decl : Method) :
    Prop where
  all : ∃ calls, bodyStatements decl = plan.leading ++ (calls ++ plan.body) ∧ plan.Describes calls
  moved : normal (plan.lambda layout (layout.statementIndent decl memberIndent)) =
    normal plan.contents
  migrated : ∀ earlier result later,
    (migrateMethod layout memberIndent plan decl).Makes earlier result later →
    ∃ block statements, decl.body = some block ∧
      result = { decl with body := some { block with statements } } ∧
      plan.Asserts Statement.IsReadAs layout (layout.statementIndent decl memberIndent)
        statements ∧
      (Java.IsPath plan.exceptionType → plan.Asserts Statement.IsWrittenAs layout
        (layout.statementIndent decl memberIndent) statements)

/-- A planned method whose statements can be moved keeps them. -/
theorem keeps_of_scanMethod
    {layout : Layout}
    {memberIndent rule : String}
    {decl : Method}
    {plan : MethodPlan}
    (unitBlank : IsIndentation layout.unit)
    (memberBlank : IsIndentation memberIndent)
    (each : ∀ statement ∈ bodyStatements decl, statement.IsMovable)
    (planned : scanMethod rule decl = .ok (some plan)) : Keeps layout memberIndent plan decl := by
  have indentBlank := isIndentation_statementIndent unitBlank memberBlank decl
  obtain ⟨calls, statements_eq, describes⟩ := describes_of_scanMethod planned
  refine ⟨⟨calls, statements_eq, describes⟩, ?_, ?_⟩
  · refine normal_lambda unitBlank indentBlank fun first isFirst => (each first ?_).starts
    rw [statements_eq]
    exact List.mem_append_left _ (List.mem_of_mem_head? isFirst)
  · intro earlier migrated later makes
    obtain ⟨statements, _, made, rest⟩ := makes_bind.mp makes
    obtain ⟨rfl, -⟩ := makes_pure.mp rest
    obtain ⟨block, body_eq⟩ := exists_body_of_scanMethod planned
    have asserts := asserts_of_makes describes made
    refine ⟨block, statements, body_eq, by rw [body_eq]; rfl, asserts, fun isPath => ?_⟩
    exact asserts.isWrittenAs describes unitBlank indentBlank (statements_eq ▸ each) isPath

end ExpectedException

namespace Conversion

open ExpectedException Layout

/--
At any point of a conversion, the methods with plans keep their statements: those that are in the
file already, and those that a recipe has made or moved before.
-/
theorem keeps_of_parse
    {configuration : Configuration}
    {source : String}
    {path : Option String}
    {next : Nat}
    {result : SourceUnit × Nat}
    (valid : configuration.Valid)
    (parsed : SourceUnit.parse source path next = .ok result)
    (recipes : List Recipe)
    {session : Session}
    (fresh : result.2 ≤ session.nextId) :
    let layout := Layout.ofUnit result.1 configuration.indent
    let final := ((applyRecipes layout recipes result.1).run session).1.update.getD result.1
    ∀ decl, Node.member (.method decl) ∈ Member.walkAll final.members →
      ∀ rule plan, scanMethod rule decl = .ok (some plan) →
        ∀ classDecl, Keeps layout (layout.memberIndent classDecl) plan decl := by
  intro layout final decl isMethod rule plan planned classDecl
  have unitBlank : IsIndentation layout.unit := isIndentation_of_valid valid result.1
  have reaches : Reaches layout decl :=
    ⟨source, path, next, result, recipes, session, parsed, fresh, isMethod⟩
  exact keeps_of_scanMethod unitBlank (isIndentation_memberIndent unitBlank classDecl)
    (reaches.isMovable unitBlank) planned

/-- A class with a method that prepares something and then expects a type and a cause. -/
def expectedWithCause : String :=
  "class A \x7b\n  void t() \x7b\n    p();\n    rule.expect(E.class);\n" ++
    "    rule.expectCause(a);\n    q();\n  \x7d\n\x7d\n"

theorem keeps_of_parse_expectedWithCause :
    ∃ result session decl plan classDecl, Configuration.standard.Valid ∧
      SourceUnit.parse expectedWithCause none 1 = .ok result ∧ result.2 ≤ session.nextId ∧
      let layout := Layout.ofUnit result.1 Configuration.standard.indent
      Node.member (.method decl) ∈ Member.walkAll
        (((applyRecipes layout [.parameterized] result.1).run session).1.update.getD
          result.1).members ∧
      scanMethod "rule" decl = .ok (some plan) ∧
      Java.IsPath plan.exceptionType ∧ Keeps layout (layout.memberIndent classDecl) plan decl ∧
      ∃ migrated later,
        (migrateMethod layout (layout.memberIndent classDecl) plan decl).Makes session migrated
          later := by
  have valid := Configuration.valid_standard
  have migrates : ∃ result ∈ (SourceUnit.parse expectedWithCause none 1).toOption,
      let layout := Layout.ofUnit result.1 Configuration.standard.indent
      let session : Session := ⟨.empty, result.2⟩
      ∃ decl ∈ (((applyRecipes layout [.parameterized] result.1).run session).1.update.getD
        result.1).methods,
      ∃ plan ∈ (scanMethod "rule" decl).toOption.join, ∃ classDecl ∈ result.1.classes,
        plan.exceptionType = "E" ∧
        ((migrateMethod layout (layout.memberIndent classDecl) plan decl).run.run
          session).1.toOption.isSome = true := by
    decide +kernel
  obtain ⟨result, isResult, decl, inside, plan, isPlan, classDecl, -, type_eq, migrates⟩ := migrates
  have isPath : Java.IsPath plan.exceptionType := type_eq ▸ .word (by decide)
  have parsed := Except.eq_ok_of_mem_toOption isResult
  have isMethod := SourceUnit.mem_walkAll_of_mem_methods inside
  have planned := Except.eq_ok_of_mem_toOption (Option.join_eq_some_iff.mp isPlan)
  obtain ⟨migrated, later, makes⟩ := Synthesis.exists_makes migrates
  exact ⟨result, ⟨.empty, result.2⟩, decl, plan, classDecl, valid, parsed, Nat.le_refl _, isMethod,
    planned, isPath, keeps_of_parse valid parsed [.parameterized] (Nat.le_refl _) decl isMethod
      "rule" plan planned classDecl, migrated, later, makes⟩

end Conversion

end JupiterMigration
