import JupiterMigration.Conversion
import JupiterMigration.Proofs.Lambda.Keeping

/-!
# Line ends

In some files a carriage return stands before every line feed.  Moving lines sideways changes
nothing about that (`Layout.hasReturns_shiftFrom`), and so the lambda of a plan without leading
statements has them if the statements have.  The templates are written with bare line feeds, though,
so no planned method has them after its migration (`ExpectedException.lineEnds_of_scanMethod`), and
the output of a conversion need not have them either (`Run.bare_lineFeed`).
-/

namespace JupiterMigration

namespace Text

/-- Whether a carriage return stands before every line feed of what follows a character. -/
def returnsAfter : Char → List Char → Bool
  | _, [] => true
  | before, c :: rest => (c != '\n' || before == '\r') && returnsAfter c rest

/-- Whether a carriage return stands before every line feed. -/
def hasReturns (text : String) : Bool :=
  returnsAfter ' ' text.toList

theorem returnsAfter_cons (before c : Char) (rest : List Char) :
    returnsAfter before (c :: rest) = ((c != '\n' || before == '\r') && returnsAfter c rest) := rfl

/-- What stands before a text only matters as far as it is a carriage return. -/
theorem returnsAfter_congr
    {before other : Char}
    (same : (before == '\r') = (other == '\r'))
    (text : List Char) : returnsAfter before text = returnsAfter other text := by
  cases text with
  | nil => rfl
  | cons c rest => rw [returnsAfter_cons, returnsAfter_cons, same]

theorem returnsAfter_append (before : Char) (front back : List Char) :
    returnsAfter before (front ++ back) =
      (returnsAfter before front && returnsAfter (front.getLastD before) back) := by
  induction front generalizing before with
  | nil => rfl
  | cons c rest inductionHypothesis =>
      rw [List.cons_append, returnsAfter_cons, returnsAfter_cons, inductionHypothesis,
        List.getLastD_cons, Bool.and_assoc]

/-- A carriage return stands before each line feed if every one has it. -/
theorem returnsAfter_eq_true_iff {before : Char} {text : List Char} :
    returnsAfter before text = true ↔
      ∀ front back, text = front ++ '\n' :: back → front.getLastD before = '\r' := by
  induction text generalizing before with
  | nil => simp [returnsAfter]
  | cons c rest inductionHypothesis =>
      rw [returnsAfter_cons, Bool.and_eq_true, inductionHypothesis]
      constructor
      · rintro ⟨isReturn, later⟩ front back split_eq
        cases front with
        | nil =>
            cases split_eq
            simpa using isReturn
        | cons first more =>
            obtain ⟨rfl, rest_eq⟩ := List.cons.inj split_eq
            rw [List.getLastD_cons]
            exact later more back rest_eq
      · intro each
        refine ⟨?_, fun front back split_eq => ?_⟩
        · by_cases isLineFeed : c = '\n'
          · subst isLineFeed
            simpa using each [] rest rfl
          · simp [isLineFeed]
        · have ends := each (c :: front) back (congrArg (c :: ·) split_eq)
          rwa [List.getLastD_cons] at ends

/-- A text that has carriage returns before its line feeds begins with no line feed. -/
theorem returnsAfter_of_hasReturns
    {text : String}
    (holds : hasReturns text = true)
    (before : Char) : returnsAfter before text.toList = true := by
  unfold hasReturns at holds
  cases text_eq : text.toList with
  | nil => rfl
  | cons c rest =>
      rw [text_eq, returnsAfter_cons, Bool.and_eq_true] at holds
      have noLineFeed : (c != '\n') = true := by simpa using holds.1
      rw [returnsAfter_cons, noLineFeed, holds.2]
      rfl

theorem hasReturns_append
    {front back : String}
    (ofFront : hasReturns front = true)
    (ofBack : hasReturns back = true) : hasReturns (front ++ back) = true := by
  rw [hasReturns, String.toList_append, returnsAfter_append, returnsAfter_of_hasReturns ofBack,
    Bool.and_true]
  exact ofFront

/-- A text has a bare line feed if a part has one that it does not begin with. -/
theorem hasReturns_of_isInfix
    {part text : String}
    (inside : part.toList <:+: text.toList)
    (begins : part.toList.head? ≠ some '\n')
    (bare : hasReturns part = false) : hasReturns text = false := by
  obtain ⟨front, back, text_eq⟩ := inside
  have partBare (before : Char) : returnsAfter before part.toList = false := by
    unfold hasReturns at bare
    cases part_eq : part.toList with
    | nil =>
        rw [part_eq] at bare
        cases bare
    | cons c rest =>
        rw [part_eq, List.head?_cons] at begins
        have noLineFeed : (c != '\n') = true := by simpa using begins
        rw [part_eq, returnsAfter_cons] at bare
        rw [returnsAfter_cons, ← bare, noLineFeed, Bool.true_or, Bool.true_or]
  rw [hasReturns, ← text_eq, returnsAfter_append, returnsAfter_append, partBare, Bool.and_false,
    Bool.false_and]

/-- A line feed behind anything but a carriage return is bare. -/
theorem hasReturns_lineFeed
    {front : String}
    {c : Char}
    (ends : front.toList.getLast? = some c)
    (bare : c ≠ '\r')
    (back : String) : hasReturns (front ++ "\n" ++ back) = false := by
  rw [Bool.eq_false_iff]
  intro holds
  have split_eq : (front ++ "\n" ++ back).toList = front.toList ++ '\n' :: back.toList := by
    rw [String.toList_append, String.toList_append, List.append_assoc]
    rfl
  have isReturn := returnsAfter_eq_true_iff.mp holds front.toList back.toList split_eq
  rw [List.getLastD_eq_getLast?, ends] at isReturn
  exact bare isReturn

end Text

namespace Layout

open Text

/-- Spaces and tabs that are left out were no carriage returns. -/
theorem returnsAfter_dropWhile
    {before : Char}
    (noReturn : before ≠ '\r')
    (text : List Char) :
    returnsAfter before (text.dropWhile isIndent) = returnsAfter before text := by
  induction text with
  | nil => rfl
  | cons c rest inductionHypothesis =>
      by_cases blank : isIndent c = true
      · have noLineFeed := ne_lineFeed_of_isIndent blank
        have noReturn' : c ≠ '\r' := by
          rintro rfl
          exact absurd blank (by decide)
        have same : (c == '\r') = (before == '\r') := by simp [noReturn, noReturn']
        rw [List.dropWhile_cons_of_pos blank, inductionHypothesis, returnsAfter_cons,
          returnsAfter_congr same]
        simp [noLineFeed]
      · rw [List.dropWhile_cons_of_neg blank]

/-- Carriage returns do not depend on indentation. -/
theorem returnsAfter_flush (before : Char) (text : List Char) :
    returnsAfter before (flush text) = returnsAfter before text := by
  induction text generalizing before with
  | nil => rfl
  | cons c rest inductionHypothesis =>
      by_cases isLineFeed : c = '\n'
      · subst isLineFeed
        rw [flush_line, returnsAfter_cons, returnsAfter_dropWhile (by decide), inductionHypothesis]
        rfl
      · have step : flush (c :: rest) = c :: flush rest := if_neg isLineFeed
        rw [step, returnsAfter_cons, inductionHypothesis]
        rfl

/-- Moving lines sideways leaves their ends as they are. -/
theorem hasReturns_shiftFrom
    {old new : String}
    (oldBlank : IsIndentation old)
    (newBlank : IsIndentation new)
    (text : String) : hasReturns (shiftFrom text old new) = hasReturns text := by
  unfold hasReturns
  rw [← returnsAfter_flush, flush, flushOnto_shiftFrom oldBlank newBlank, ← flush,
    returnsAfter_flush]

theorem hasReturns_shift
    {indent : String}
    (blank : IsIndentation indent)
    (text : String) : hasReturns (shift text indent) = hasReturns text := by
  have fromNone : shiftFrom text "" indent = shift text indent := if_pos rfl
  rw [← fromNone, hasReturns_shiftFrom (fun c inside => by cases inside) blank]

/-- A text that begins with no line feed has none to join. -/
theorem joinLineFeeds_of_hasReturns
    {text : String}
    (holds : hasReturns text = true) : joinLineFeeds text.toList = text.toList := by
  unfold joinLineFeeds
  split
  · next rest text_eq =>
      rw [hasReturns, text_eq] at holds
      cases holds
  · rfl

end Layout

namespace ExpectedException

open Layout Text

/-- Statements that have carriage returns before their line feeds, one after the other. -/
theorem hasReturns_printAll
    {statements : List Statement}
    (each : ∀ statement ∈ statements, hasReturns statement.print = true) :
    hasReturns (printAll Statement.print statements) = true := by
  induction statements with
  | nil => rfl
  | cons first rest inductionHypothesis =>
      obtain ⟨ofFirst, ofRest⟩ := List.forall_mem_cons.mp each
      have whole : printAll Statement.print (first :: rest) =
          first.print ++ printAll Statement.print rest := by
        simp [printAll]
      rw [whole]
      exact hasReturns_append ofFirst (inductionHypothesis ofRest)

/-- The lambda of a plan without leading statements keeps the line ends of its statements. -/
theorem hasReturns_lambda
    {layout : Layout}
    {indent : String}
    {plan : MethodPlan}
    (unitBlank : IsIndentation layout.unit)
    (indentBlank : IsIndentation indent)
    (noLeading : plan.leading = [])
    (each : ∀ statement ∈ plan.body, hasReturns statement.print = true) :
    hasReturns (plan.lambda layout indent) = true := by
  have shifted : hasReturns (String.join (plan.body.map fun statement =>
      shiftFrom statement.print indent layout.unit)) = true := by
    unfold hasReturns
    rw [← returnsAfter_flush, flush_join_shiftFrom indentBlank unitBlank, returnsAfter_flush]
    exact hasReturns_printAll each
  have joined : joinLineFeeds (String.join (plan.body.map fun statement =>
      shiftFrom statement.print indent layout.unit)).toList = _ :=
    joinLineFeeds_of_hasReturns shifted
  rw [MethodPlan.lambda, MethodPlan.moved, noLeading]
  dsimp only
  rw [lambdaBody, joined, String.ofList_toList]
  exact shifted

/-- An assertion about a lambda has a bare line feed. -/
theorem hasReturns_throwsText
    {lambda : String}
    (ends : lambda.toList.getLast? ≠ some '\r')
    (type message : String) : hasReturns (throwsText type lambda message) = false := by
  have split_eq : throwsText type lambda message =
      ("assertThrows(" ++ type ++ ".class, () -> " ++ "\x7b" ++ lambda) ++ "\n" ++
        ("\x7d" ++ message ++ ");") := by
    have opening_eq : ".class, () -> \x7b" = ".class, () -> " ++ "\x7b" := rfl
    have closing_eq : "\n\x7d" = "\n" ++ "\x7d" := rfl
    unfold throwsText
    simp only [opening_eq, closing_eq, String.append_assoc]
  rw [split_eq]
  cases last_eq : lambda.toList.getLast? with
  | none =>
      refine hasReturns_lineFeed (c := '\x7b') ?_ (by decide) _
      rw [String.toList_append, String.toList_append, List.getLast?_append, last_eq,
        List.getLast?_append]
      rfl
  | some c =>
      refine hasReturns_lineFeed (c := c) ?_ (fun isReturn => ends (isReturn ▸ last_eq)) _
      rw [String.toList_append, List.getLast?_append, last_eq]
      rfl

/-- No statement that moves into a lambda ends with a carriage return. -/
theorem getLast?_lambda
    {layout : Layout}
    {indent : String}
    {plan : MethodPlan}
    (unitBlank : IsIndentation layout.unit)
    (blank : IsIndentation indent)
    (each : ∀ statement ∈ plan.leading ++ plan.body, statement.IsMovable) :
    (plan.lambda layout indent).toList.getLast? ≠ some '\r' := by
  obtain ⟨statements, eachMovable, lambda_eq⟩ := plan.exists_lambda_eq unitBlank blank each
  rw [lambda_eq]
  rcases List.eq_nil_or_concat statements with rfl | ⟨front, last, rfl⟩
  · decide
  · rw [List.concat_eq_append] at eachMovable ⊢
    obtain ⟨c, isLast, isEnd⟩ := (eachMovable last (by simp)).ends
    have printed_eq : printAll Statement.print (front ++ [last]) =
        printAll Statement.print front ++ last.lead ++ last.text := by
      simp [printAll, Statement.print, String.append_assoc]
    rw [printed_eq, String.toList_append, List.getLast?_append, isLast, Option.some_or]
    rcases isEnd with rfl | rfl <;> decide

theorem head?_of_endsGap {text : String} (ends : Java.endsGap text = true) :
    text.toList.head? ≠ some '\n' := by
  obtain ⟨c, rest, text_eq, noSpace, -⟩ := Java.endsGap_iff.mp ends
  rw [text_eq, List.head?_cons]
  rintro ⟨⟩
  exact absurd noSpace (by decide)

/-- One of the new statements has a bare line feed. -/
theorem MethodPlan.Asserts.exists_bare
    {layout : Layout}
    {indent : String}
    {plan : MethodPlan}
    {statements calls : List Statement}
    (blank : IsIndentation indent)
    (describes : plan.Describes calls)
    (isPath : Java.IsPath plan.exceptionType)
    (ends : (plan.lambda layout indent).toList.getLast? ≠ some '\r')
    (asserts : plan.Asserts Statement.IsWrittenAs layout indent statements) :
    ∃ statement ∈ statements, Java.endsGap statement.text = true ∧
      hasReturns statement.text = false := by
  cases asserts with
  | @unnamed type message throwing expects gives noMatcher written =>
      refine ⟨throwing, List.mem_cons_self, ?_⟩
      rw [written.2, hasReturns_shift blank]
      exact ⟨endsGap_of_sameLines (sameLines_shift blank _) (endsGap_throwsText _ _ _),
        hasReturns_throwsText ends type message⟩
  | @named type message binding throwing checks expects gives _ _ written ordered checked =>
      obtain rfl := describes.eq_exceptionType expects
      refine ⟨throwing, List.mem_cons_self, ?_⟩
      rw [written.2, hasReturns_shift blank]
      refine ⟨endsGap_of_sameLines (sameLines_shift blank _) ?_, ?_⟩
      · simp only [String.append_assoc]
        exact Java.endsGap_append isPath.endsGap _
      · refine hasReturns_of_isInfix ?_ (head?_of_endsGap (endsGap_throwsText _ _ _))
          (hasReturns_throwsText ends plan.exceptionType message)
        rw [String.toList_append]
        exact (List.suffix_append _ _).isInfix


/-- The statements of a method stand in its text. -/
theorem isInfix_print_of_mem_bodyStatements
    {decl : Method}
    {statement : Statement}
    (inside : statement ∈ Member.bodyStatements decl) :
    statement.text.toList <:+: decl.print.toList := by
  unfold Member.bodyStatements at inside
  cases body_eq : decl.body with
  | none =>
      rw [body_eq] at inside
      cases inside
  | some block =>
      rw [body_eq] at inside
      have inStatement : statement.text.toList <:+: statement.print.toList := by
        rw [Statement.print, String.toList_append]
        exact (List.suffix_append _ _).isInfix
      have inStatements : statement.print.toList <:+:
          (printAll Statement.print block.statements).toList :=
        isInfix_join (List.mem_map_of_mem inside)
      have inBlock : (printAll Statement.print block.statements).toList <:+:
          block.print.toList := by
        have print_eq : block.print = block.lead ++ "\x7b" ++
            printAll Statement.print block.statements ++ (block.closing ++ "\x7d") := by
          simp only [Block.print, Block.text, inBraces, String.append_assoc]
        rw [print_eq]
        exact isInfix_between _ _ _
      have inMethod : block.print.toList <:+: decl.print.toList := by
        unfold Method.print Method.text Method.bodyText
        rw [body_eq, String.toList_append, String.toList_append]
        exact ((List.suffix_append _ _).isInfix).trans (List.suffix_append _ _).isInfix
      exact ((inStatement.trans inStatements).trans inBlock).trans inMethod

/--
The lambda of a plan without leading statements keeps the line ends of its statements, but the
migrated method has a bare line feed: the one before the brace that closes the lambda.
-/
theorem lineEnds_of_scanMethod
    {configuration : Configuration}
    {rule : String}
    {decl : Method}
    {plan : MethodPlan}
    (valid : configuration.Valid)
    (planned : scanMethod rule decl = .ok (some plan))
    (unit : SourceUnit)
    (classDecl : ClassDecl) :
    let layout := Layout.ofUnit unit configuration.indent
    let memberIndent := layout.memberIndent classDecl
    (plan.leading = [] → (∀ statement ∈ plan.body, hasReturns statement.print = true) →
      hasReturns (plan.lambda layout (layout.statementIndent decl memberIndent)) = true) ∧
    ∀ earlier migrated later,
      (migrateMethod layout memberIndent plan decl).Makes earlier migrated later →
      Conversion.Reaches layout decl → Java.IsPath plan.exceptionType →
      hasReturns migrated.print = false := by
  intro layout memberIndent
  have unitBlank : IsIndentation layout.unit := isIndentation_of_valid valid unit
  have memberBlank := isIndentation_memberIndent unitBlank classDecl
  have indentBlank := isIndentation_statementIndent unitBlank memberBlank decl
  refine ⟨hasReturns_lambda unitBlank indentBlank, ?_⟩
  intro earlier migrated later makes reaches isPath
  have each := reaches.isMovable unitBlank
  obtain ⟨calls, split_eq, describes⟩ := describes_of_scanMethod planned
  obtain ⟨block, statements, -, rfl, -, written⟩ :=
    (keeps_of_scanMethod unitBlank memberBlank each planned).migrated earlier migrated later makes
  rw [split_eq] at each
  have ends : (plan.lambda layout (layout.statementIndent decl memberIndent)).toList.getLast? ≠
      some '\r' := by
    refine getLast?_lambda unitBlank indentBlank fun statement inside => each statement ?_
    simp only [List.mem_append] at inside ⊢
    exact inside.imp_right .inr
  obtain ⟨statement, isNew, endsGap, bare⟩ :=
    (written isPath).exists_bare indentBlank describes isPath ends
  exact hasReturns_of_isInfix (isInfix_print_of_mem_bodyStatements isNew)
    (head?_of_endsGap endsGap) bare

/-- A class with carriage returns and a method in which a type is expected. -/
def expectingWithReturns : String :=
  "class A \x7b\r\n  void t() \x7b\r\n    rule.expect(E.class);\r\n    run();\r\n  \x7d\r\n\x7d\r\n"

theorem lineEnds_of_scanMethod_expectingWithReturns :
    ∃ result decl plan classDecl migrated later, Configuration.standard.Valid ∧
      scanMethod "rule" decl = .ok (some plan) ∧
      let layout := Layout.ofUnit result Configuration.standard.indent
      let memberIndent := layout.memberIndent classDecl
      plan.leading = [] ∧ (∀ statement ∈ plan.body, hasReturns statement.print = true) ∧
        hasReturns (plan.lambda layout (layout.statementIndent decl memberIndent)) = true ∧
        (migrateMethod layout memberIndent plan decl).Makes ⟨.empty, 1⟩ migrated later ∧
        Conversion.Reaches layout decl ∧ Java.IsPath plan.exceptionType ∧
        hasReturns migrated.print = false := by
  have valid := Configuration.valid_standard
  have migrates : ∃ result ∈ (SourceUnit.parse expectingWithReturns none 1).toOption,
      ∃ decl ∈ result.1.methods, ∃ plan ∈ (scanMethod "rule" decl).toOption.join,
      ∃ classDecl ∈ result.1.classes,
      let layout := Layout.ofUnit result.1 Configuration.standard.indent
      plan.leading = [] ∧ (∀ statement ∈ plan.body, hasReturns statement.print = true) ∧
        plan.exceptionType = "E" ∧
        ((migrateMethod layout (layout.memberIndent classDecl) plan decl).run.run
          ⟨.empty, 1⟩).1.toOption.isSome = true := by
    decide +kernel
  obtain ⟨result, isResult, decl, isMethod, plan, isPlan, classDecl, -, noLeading, each, type_eq,
    migrates⟩ := migrates
  have planned := Except.eq_ok_of_mem_toOption (Option.join_eq_some_iff.mp isPlan)
  obtain ⟨migrated, later, makes⟩ := Synthesis.exists_makes migrates
  have reaches : Conversion.Reaches (Layout.ofUnit result.1 Configuration.standard.indent) decl :=
    Conversion.reaches_of_parse _ (Except.eq_ok_of_mem_toOption isResult) isMethod
  have isPath : Java.IsPath plan.exceptionType := type_eq ▸ .word (by decide)
  obtain ⟨keeps, loses⟩ := lineEnds_of_scanMethod valid planned result.1 classDecl
  exact ⟨result.1, decl, plan, classDecl, migrated, _, valid, planned, noLeading, each,
    keeps noLeading each, makes, reaches, isPath, loses _ migrated _ makes reaches isPath⟩

end ExpectedException

namespace Run

/-- A class with carriage returns in which a type is expected. -/
def expectedWithReturns : String :=
  "class A \x7b\r\n    @org.junit.Rule\r\n    org.junit.rules.ExpectedException rule;\r\n\r\n" ++
    "    void t() \x7b\r\n        rule.expect(E.class);\r\n        run();\r\n    \x7d\r\n\x7d\r\n"

/-- A line feed without a carriage return gets into a file where every line feed has one. -/
theorem bare_lineFeed :
    Text.hasReturns expectedWithReturns = true ∧
      (start .standard expectedWithReturns none 1).conversion.success = true ∧
      Text.hasReturns (start .standard expectedWithReturns none 1).conversion.code = false := by
  decide +kernel

end Run

end JupiterMigration
