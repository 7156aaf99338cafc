import JupiterMigration.Proofs.Snippet.Statement
import JupiterMigration.Proofs.Statements.Movable

/-!
# The text of the new statements

The statements of a plan can be moved, and so can the arguments of its expectations.  Hence the
lambda is made up of statements that can be moved (`ExpectedException.MethodPlan.exists_lambda_eq`),
and the assertions about it and about the matchers are cut up wherever their lines move to
(`ExpectedException.cutUp_throwsText`, `ExpectedException.cutUp_matcherText`).  A snippet that
closes what it opens is read as a whole, so the new statements have the texts that were rendered
(`ExpectedException.MethodPlan.Asserts.isWrittenAs`).
-/

namespace JupiterMigration

open Java Layout

/-! ## Texts within texts -/

theorem isInfix_between (front part back : String) :
    part.toList <:+: (front ++ part ++ back).toList := by
  rw [String.toList_append, String.toList_append]
  exact List.infix_append _ _ _

theorem isInfix_join
    {item : String}
    {items : List String}
    (inside : item ∈ items) : item.toList <:+: (String.join items).toList := by
  induction items with
  | nil => cases inside
  | cons first rest inductionHypothesis =>
      rw [String.join_cons, String.toList_append]
      cases inside with
      | head => exact (List.prefix_append _ _).isInfix
      | tail _ later => exact (inductionHypothesis later).trans (List.suffix_append _ _).isInfix

/-! ## Gaps -/

theorem Java.gapLength_line (text : List Char) :
    gapLength .outside ('\n' :: text) = (gapLength .outside text).map (1 + ·) := rfl

/-- Line feeds that are left out were part of a gap. -/
theorem Java.gapLength_dropWhile
    {gap rest : List Char}
    (found : gapLength .outside (gap ++ rest) = some gap.length) :
    gapLength .outside (gap.dropWhile (· == '\n') ++ rest) =
      some (gap.dropWhile (· == '\n')).length := by
  induction gap with
  | nil => exact found
  | cons c gap inductionHypothesis =>
      by_cases isLineFeed : c = '\n'
      · subst isLineFeed
        rw [List.cons_append, gapLength_line, List.length_cons, Nat.add_comm] at found
        rw [List.dropWhile_cons_of_pos rfl]
        refine inductionHypothesis ?_
        obtain ⟨length, foundLater, same⟩ := Option.map_eq_some_iff.mp found
        rw [foundLater, Nat.add_left_cancel same]
      · rwa [List.dropWhile_cons_of_neg (by simpa using isLineFeed)]

theorem Java.IsGap.joinLineFeeds {gap : String} (isGap : IsGap gap) :
    IsGap (String.ofList (joinLineFeeds gap.toList)) := by
  intro c rest noSpace noComment
  have found := isGap c rest noSpace noComment
  rw [String.toList_ofList]
  generalize gap.toList = text at found
  cases text with
  | nil => exact found
  | cons first others =>
      by_cases isLineFeed : first = '\n'
      · have dropped := gapLength_dropWhile found
        subst isLineFeed
        rw [List.dropWhile_cons_of_pos rfl] at dropped
        rw [Layout.joinLineFeeds, List.cons_append, gapLength_line, dropped, List.length_cons,
          Option.map_some, Nat.add_comm]
      · rwa [joinLineFeeds_of_ne isLineFeed]

namespace ExpectedException

variable {plan : MethodPlan} {layout : Layout} {indent : String}

/-! ## The lambda -/

/-- The statements that move into the lambda can be moved if those of the plan can. -/
theorem MethodPlan.isMovable_of_mem_moved
    (blank : IsIndentation indent)
    (each : ∀ statement ∈ plan.leading ++ plan.body, statement.IsMovable) :
    ∀ statement ∈ plan.moved indent, statement.IsMovable := by
  intro statement inside
  unfold MethodPlan.moved at inside
  split at inside
  · exact each statement (List.mem_append_right _ inside)
  · next first rest leading_eq =>
    rw [leading_eq] at each
    rw [List.cons_append] at inside each
    obtain ⟨ofFirst, ofRest⟩ := List.forall_mem_cons.mp each
    cases inside with
    | head => exact ofFirst.behind blank.isGap_onNewLine
    | tail _ later => exact ofRest statement later

/-- The lambda is made up of statements that can be moved. -/
theorem MethodPlan.exists_lambda_eq
    (unitBlank : IsIndentation layout.unit)
    (blank : IsIndentation indent)
    (each : ∀ statement ∈ plan.leading ++ plan.body, statement.IsMovable) :
    ∃ statements : List Statement, (∀ statement ∈ statements, statement.IsMovable) ∧
      plan.lambda layout indent = printAll Statement.print statements := by
  have shifted : SameLines (printAll Statement.print (plan.moved indent)).toList
      (String.join ((plan.moved indent).map fun statement =>
        shiftFrom statement.print indent layout.unit)).toList :=
    sameLines_of_flush_eq (flush_join_shiftFrom blank unitBlank _).symm
  obtain ⟨statements, eachMovable, joined_eq⟩ := Statement.exists_movable_of_sameLines
    (plan.isMovable_of_mem_moved blank each) shifted
  unfold MethodPlan.lambda lambdaBody
  dsimp only
  rw [joined_eq]
  cases statements with
  | nil => exact ⟨[], List.forall_mem_nil _, rfl⟩
  | cons first rest =>
      obtain ⟨ofFirst, ofRest⟩ := List.forall_mem_cons.mp eachMovable
      obtain ⟨c, more, text_eq, noSpace⟩ := ofFirst.starts
      have noLineFeed : c ≠ '\n' := by
        rintro rfl
        exact absurd noSpace (by decide)
      refine ⟨{ first with lead := String.ofList (joinLineFeeds first.lead.toList) } :: rest,
        List.forall_mem_cons.mpr ⟨?_, ofRest⟩, ?_⟩
      · exact ofFirst.behind ofFirst.lead.joinLineFeeds
      · rw [printAll_cons, printAll_cons, ← String.toList_inj, String.toList_ofList]
        unfold Statement.print
        simp only [String.toList_append, text_eq, List.append_assoc, List.cons_append,
          joinLineFeeds_append noLineFeed, String.toList_ofList]

/-! ## The assertions -/

variable {stack : List Bracket} {rest : List Char} {gap moved : String}

/-- What may stand behind the lambda: a text whose lines are cut up wherever they move to. -/
def IsEnding (text : String) : Prop :=
  ∀ {stack rest moved}, SameLines text.toList moved.toList → CutUp stack stack rest moved

theorem isEnding_endOfCall : IsEnding ");" := by
  intro stack rest moved lines
  rw [String.toList_inj.mp (lines.eq_of_oneLine (by decide))]
  exact .endOfCall rest

/-- An argument behind a comma, and the end of the call. -/
theorem isEnding_argument
    {argument : String}
    (blank : IsIndentation indent)
    (movable : Movable (fun rest => ∃ more, rest = ')' :: more) argument) :
    IsEnding (", " ++ shiftFrom argument indent "" ++ ");") := by
  intro stack rest moved lines
  have noneBlank : IsIndentation "" := fun c inside => by cases inside
  have spaced : IsGap " " := isGap_of_spaces rfl
  have separator : ", " = "," ++ " " := rfl
  rw [String.append_assoc] at lines
  obtain ⟨later, rfl, linesLater⟩ := lines.exists_string_of_oneLine (by decide)
  obtain ⟨argument', closing, rfl, sameArgument, sameClosing⟩ :=
    linesLater.exists_string_of_append (SameLines.cutsClean_of_cons rfl _ _)
  obtain rfl : closing = ");" := String.toList_inj.mp (sameClosing.eq_of_oneLine (by decide))
  have applied : CutUp stack stack ((");" : String).toList ++ rest) (" " ++ argument') :=
    movable stack ((sameLines_shiftFrom blank noneBlank argument).trans sameArgument) spaced
      ⟨_, rfl⟩
  have whole := (CutUp.comma _).append (applied.append (.endOfCall rest))
  rw [String.append_assoc] at whole
  rwa [separator, String.append_assoc]

/-- The beginning of an assertion about a lambda, up to the brace that opens it. -/
theorem cutUp_throwsOpening
    {type : String}
    (isGap : IsGap gap)
    (isPath : IsPath type)
    (rest : List Char) :
    CutUp stack (.brace :: stack) rest
      (gap ++ ("assertThrows(" ++ (type ++ ".class, () -> \x7b"))) := by
  have noGap : IsGap "" := isGap_of_spaces rfl
  have spaced : IsGap " " := isGap_of_spaces rfl
  have function : CutUp stack stack (("(" ++ (type ++ ".class, () -> \x7b")).toList ++ rest)
      (gap ++ "assertThrows") := .word isGap rfl (CutUp.ends_word rfl rfl _ _)
  have argument : CutUp stack stack ((".class, () -> \x7b" : String).toList ++ rest)
      ("" ++ type) := .path noGap isPath rfl
  have apart : (Token.mk "" "." .symbol).standsApart
      (("class, () -> \x7b" : String).toList ++ rest) = true := rfl
  have point : CutUp stack stack (("class, () -> \x7b" : String).toList ++ rest) ("" ++ ".") :=
    .of_standsApart noGap apart rfl
  have literal : CutUp stack stack ((", () -> \x7b" : String).toList ++ rest) ("" ++ "class") :=
    .word noGap rfl rfl
  have parameters (more : List Char) : CutUp stack stack more (" " ++ "(") :=
    .lone spaced rfl rfl more rfl
  have arrow (more : List Char) : CutUp stack stack more (" " ++ "->") := .arrow spaced more
  have brace : CutUp stack (.brace :: stack) rest (" " ++ "\x7b") :=
    .lone spaced rfl rfl rest rfl
  rw [String.empty_append] at argument point literal
  have lambda := (CutUp.comma _).append ((parameters _).append ((CutUp.closeParenthesis _).append
    ((arrow _).append brace)))
  have whole := function.append ((CutUp.openParenthesis _).append (argument.append (point.append
    (literal.append lambda))))
  rwa [String.append_assoc] at whole

/-- An assertion about a lambda is cut up wherever its lines move to. -/
theorem cutUp_throwsText
    {type message : String}
    {statements : List Statement}
    (isGap : IsGap gap)
    (isPath : IsPath type)
    (each : ∀ statement ∈ statements, statement.IsMovable)
    (ending : IsEnding (message ++ ");"))
    (lines : SameLines (throwsText type (printAll Statement.print statements) message).toList
      moved.toList) :
    CutUp stack stack rest (gap ++ moved) := by
  have split_eq : throwsText type (printAll Statement.print statements) message =
      "assertThrows(" ++ (type ++ ".class, () -> \x7b") ++
        (printAll Statement.print statements ++ ("\n\x7d" ++ (message ++ ");"))) := by
    unfold throwsText
    simp only [String.append_assoc]
  have oneLine : '\n' ∉ ("assertThrows(" ++ (type ++ ".class, () -> \x7b")).toList := by
    rw [String.toList_append, String.toList_append, List.mem_append, List.mem_append]
    exact fun inside =>
      inside.elim (by decide) (·.elim isPath.lineFeed_notMem (by decide))
  have closing_eq : ("\n\x7d" ++ (message ++ ");")).toList =
      '\n' :: ("\x7d" ++ (message ++ ");")).toList := by
    simp
  rw [split_eq] at lines
  obtain ⟨later, rfl, linesLater⟩ := lines.exists_string_of_oneLine oneLine
  obtain ⟨lambda, back, rfl, sameLambda, sameBack⟩ := linesLater.exists_string_of_append (by
    rw [closing_eq]
    exact SameLines.cutsClean_of_cons rfl _ _)
  obtain ⟨others, eachOther, rfl⟩ := Statement.exists_movable_of_sameLines each sameLambda
  rw [closing_eq] at sameBack
  obtain ⟨again, last, rfl, blank, sameLast⟩ :=
    sameBack.exists_string_onNewLine rfl rfl (by decide)
  have closing : CutUp (.brace :: stack) stack (last.toList ++ rest) ("\n" ++ again ++ "\x7d") :=
    .lone blank.isGap_onNewLine rfl rfl _ rfl
  have whole := (cutUp_throwsOpening isGap isPath _).append
    ((Statement.cutUp_printAll eachOther (.brace :: stack) _).append
      (closing.append (ending sameLast)))
  simpa only [String.append_assoc] using whole

/-- So is one that gives a name to what is thrown. -/
theorem cutUp_boundThrowsText
    {type binding message : String}
    {statements : List Statement}
    (isGap : IsGap gap)
    (isPath : IsPath type)
    (spelled : isWord binding = true)
    (each : ∀ statement ∈ statements, statement.IsMovable)
    (ending : IsEnding (message ++ ");"))
    (lines : SameLines (type ++ " " ++ binding ++ " = " ++
      throwsText type (printAll Statement.print statements) message).toList moved.toList) :
    CutUp stack stack rest (gap ++ moved) := by
  have spaced : IsGap " " := isGap_of_spaces rfl
  have equals : " = " = " =" ++ " " := rfl
  have oneLine : '\n' ∉ (type ++ " " ++ binding ++ " = ").toList := by
    simp only [String.toList_append, List.mem_append, not_or]
    exact ⟨⟨⟨isPath.lineFeed_notMem, by decide⟩, lineFeed_notMem_of_isWord spelled⟩, by decide⟩
  obtain ⟨later, rfl, linesLater⟩ := lines.exists_string_of_oneLine oneLine
  have throws : CutUp stack stack rest (" " ++ later) :=
    cutUp_throwsText spaced isPath each ending linesLater
  have apart : (Token.mk " " "=" .symbol).standsApart ((" " ++ later).toList ++ rest) = true := by
    rw [String.toList_append]
    rfl
  have equal : CutUp stack stack ((" " ++ later).toList ++ rest) (" " ++ "=") :=
    .of_standsApart spaced apart rfl
  have name : CutUp stack stack ((" =" ++ (" " ++ later)).toList ++ rest) (" " ++ binding) :=
    .word spaced spelled (CutUp.ends_word rfl rfl _ _)
  have declared : CutUp stack stack
      ((" " ++ binding ++ (" =" ++ (" " ++ later))).toList ++ rest) (gap ++ type) :=
    .path isGap isPath (by rw [String.append_assoc]; exact CutUp.ends_word rfl rfl _ _)
  have whole := declared.append (name.append (equal.append throws))
  simpa only [equals, String.append_assoc] using whole

/-- What a matcher is applied to is cut up before what ends it. -/
theorem cutUp_matched
    {binding : String}
    (isGap : IsGap gap)
    (spelled : isWord binding = true)
    (kind : ExpectationKind)
    (ends : rest.head?.any Text.isNameContinue = false) :
    CutUp stack stack rest (gap ++ matched binding kind) := by
  have called (function : String) (isFunction : isWord function = true) :
      CutUp stack stack rest (gap ++ (binding ++ ("." ++ function) ++ ("(" ++ ")"))) := by
    have path : CutUp stack stack (("(" ++ ")" : String).toList ++ rest)
        (gap ++ (binding ++ ("." ++ function))) :=
      .path isGap (.dotted spelled (.word isFunction)) rfl
    rw [← String.append_assoc]
    exact path.append ((CutUp.openParenthesis _).append (.closeParenthesis rest))
  cases kind with
  | messageMatcher =>
      have whole := called "getMessage" rfl
      rwa [String.append_assoc] at whole
  | causeMatcher =>
      have whole := called "getCause" rfl
      rwa [String.append_assoc] at whole
  | type | typeMatcher | message => exact .word isGap spelled ends

/-- An assertion that a matcher holds is cut up wherever its lines move to. -/
theorem cutUp_matcherText
    {binding : String}
    {expectation : Expectation}
    (blank : IsIndentation indent)
    (isGap : IsGap gap)
    (spelled : isWord binding = true)
    (movable : Movable (fun rest => ∃ more, rest = ')' :: more) expectation.argument.text)
    (lines : SameLines (matcherText binding indent expectation).toList moved.toList) :
    CutUp stack stack rest (gap ++ moved) := by
  have noGap : IsGap "" := isGap_of_spaces rfl
  have split_eq : matcherText binding indent expectation =
      "assertThat(" ++ matched binding expectation.kind ++
        (", " ++ shiftFrom expectation.argument.text indent "" ++ ");") := by
    unfold matcherText
    simp only [String.append_assoc]
  have oneLine : '\n' ∉ ("assertThat(" ++ matched binding expectation.kind).toList := by
    have noLineFeed := lineFeed_notMem_of_isWord spelled
    rw [String.toList_append, List.mem_append, not_or]
    refine ⟨by decide, ?_⟩
    cases expectation.kind <;> simp [matched, noLineFeed]
  rw [split_eq] at lines
  obtain ⟨later, rfl, linesLater⟩ := lines.exists_string_of_oneLine oneLine
  have ending : CutUp stack stack rest later := isEnding_argument blank movable linesLater
  rw [String.append_assoc] at linesLater
  obtain ⟨last, rfl, -⟩ := linesLater.exists_string_of_oneLine (by decide)
  have subject : CutUp stack stack ((", " ++ last).toList ++ rest)
      ("" ++ matched binding expectation.kind) :=
    cutUp_matched noGap spelled expectation.kind (CutUp.ends_word rfl rfl _ _)
  have function : CutUp stack stack
      (("(" ++ (matched binding expectation.kind ++ (", " ++ last))).toList ++ rest)
      (gap ++ "assertThat") := .word isGap rfl (CutUp.ends_word rfl rfl _ _)
  rw [String.empty_append] at subject
  have whole := function.append ((CutUp.openParenthesis _).append (subject.append ending))
  have name_eq : "assertThat(" = "assertThat" ++ "(" := rfl
  simpa only [name_eq, String.append_assoc] using whole

/-! ## Statements with the texts that were rendered -/

theorem endsGap_throwsText (type lambda message : String) :
    endsGap (throwsText type lambda message) = true := by
  unfold throwsText
  simp only [String.append_assoc]
  exact endsGap_append rfl _

theorem endsGap_of_sameLines
    {text : String}
    (lines : SameLines text.toList moved.toList)
    (ends : endsGap text = true) : endsGap moved = true := by
  obtain ⟨c, more, text_eq, noSpace, noComment⟩ := endsGap_iff.mp ends
  rw [text_eq] at lines
  obtain ⟨others, moved_eq, -⟩ := lines.exists_behind_of_cons
  exact endsGap_iff.mpr ⟨c, others, moved_eq, noSpace, noComment⟩

/-- A statement has the text that it is read from if the text closes what it opens. -/
theorem isWrittenAs_of_isReadAs
    {statement : Statement}
    {text lead : String}
    (blank : IsIndentation indent)
    (ends : endsGap text = true)
    (cutUp : ∀ {moved}, SameLines text.toList moved.toList →
      CutUp [] [] afterStatement ("\n" ++ moved))
    (reads : statement.IsReadAs (shift text indent) lead) :
    statement.IsWrittenAs (shift text indent) lead := by
  have lines := sameLines_shift blank text
  refine ⟨reads, ?_⟩
  obtain ⟨read, id, found, rfl⟩ := reads
  have text_eq : read.text = shift text indent :=
    Snippet.text_of_readStatement (cutUp lines) (endsGap_of_sameLines lines ends) found
  exact text_eq

section Plans

variable {calls : List Statement} (describes : plan.Describes calls)
include describes

/-- The only expected type is the one of the plan. -/
theorem MethodPlan.Describes.eq_exceptionType
    {type : String}
    (expects : plan.ExpectsType type) : type = plan.exceptionType := by
  rcases expects, expectsType_exceptionType describes with
    ⟨⟨first, isFirst, isType, first_form⟩ | ⟨noFirst, rfl⟩,
      ⟨second, isSecond, alsoType, second_form⟩ | ⟨noSecond, same⟩⟩
  · obtain rfl := describes.eq_of_kind_eq isFirst isSecond (isType.trans alsoType.symm)
    exact ExpressionForm.classLiteral.inj (first_form.symm.trans second_form)
  · exact absurd isType (noSecond first isFirst)
  · exact absurd alsoType (noFirst second isSecond)
  · exact same.symm

/-- What is expected of the calls of a plan can be moved if the calls can. -/
theorem MethodPlan.Describes.movable_argument
    {expectation : Expectation}
    (each : ∀ statement ∈ calls, statement.IsMovable)
    (inside : expectation ∈ plan.expectations) :
    Movable (fun rest => ∃ more, rest = ')' :: more) expectation.argument.text := by
  obtain ⟨statement, isCall, -, call, call_eq, only, -⟩ := describes.exists_expects inside
  exact (each statement isCall).argument call expectation.argument call_eq only

theorem isEnding_of_givesMessage
    {message : String}
    (blank : IsIndentation indent)
    (each : ∀ statement ∈ calls, statement.IsMovable)
    (gives : plan.GivesMessage indent message) : IsEnding (message ++ ");") := by
  rcases gives with ⟨expectation, inside, -, rfl⟩ | ⟨-, rfl⟩
  · exact isEnding_argument blank (describes.movable_argument each inside)
  · rw [String.empty_append]
    exact isEnding_endOfCall

/--
The new statements have the texts that were rendered if the expected type is a path, and all
statements of the method can be moved.
-/
theorem MethodPlan.Asserts.isWrittenAs
    {statements : List Statement}
    (unitBlank : IsIndentation layout.unit)
    (blank : IsIndentation indent)
    (each : ∀ statement ∈ plan.leading ++ (calls ++ plan.body), statement.IsMovable)
    (isPath : IsPath plan.exceptionType)
    (asserts : plan.Asserts Statement.IsReadAs layout indent statements) :
    plan.Asserts Statement.IsWrittenAs layout indent statements := by
  have eachCall : ∀ statement ∈ calls, statement.IsMovable := fun statement inside =>
    each statement (by simp [inside])
  obtain ⟨moved, eachMoved, lambda_eq⟩ := plan.exists_lambda_eq unitBlank blank
    fun statement inside => each statement (by
      rw [List.mem_append] at inside
      rcases inside with isLeading | isBody
      · simp [isLeading]
      · simp [isBody])
  have onNewLine : IsGap "\n" := isGap_of_spaces rfl
  cases asserts with
  | unnamed expects gives noMatcher reads =>
      obtain rfl := describes.eq_exceptionType expects
      refine .unnamed expects gives noMatcher
        (isWrittenAs_of_isReadAs blank (endsGap_throwsText _ _ _) ?_ reads)
      rw [lambda_eq]
      exact cutUp_throwsText onNewLine isPath eachMoved
        (isEnding_of_givesMessage describes blank eachCall gives)
  | named expects gives nonempty spelled reads ordered checked =>
      obtain rfl := describes.eq_exceptionType expects
      refine .named expects gives nonempty spelled (isWrittenAs_of_isReadAs blank ?_ ?_ reads)
        ordered ?_
      · simp only [String.append_assoc]
        exact endsGap_append isPath.endsGap _
      · rw [lambda_eq]
        exact cutUp_boundThrowsText onNewLine isPath spelled eachMoved
          (isEnding_of_givesMessage describes blank eachCall gives)
      · have inside := (List.forall₂_and_left _ _).mpr ⟨fun _ member => member, checked⟩
        refine inside.imp ?_
        rintro expectation check ⟨inside, readsCheck⟩
        refine isWrittenAs_of_isReadAs blank ?_ (cutUp_matcherText blank onNewLine spelled
          (describes.movable_argument eachCall (List.mem_of_mem_filter inside))) readsCheck
        unfold matcherText
        simp only [String.append_assoc]
        exact endsGap_append rfl _

end Plans

end ExpectedException

end JupiterMigration
