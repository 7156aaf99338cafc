import JupiterMigration.Proofs.Grammar.Filled
import JupiterMigration.Proofs.Statements
import JupiterMigration.Proofs.Tokens.Moved

/-!
# Statements that can be moved

A statement that is read closes what it opens, and so does the only argument of a call that it is.
So they are cut up again wherever their lines move to (`Statement.lasting_isMovable`), at any point
of a conversion (`Conversion.Reaches.isMovable`).  A text with the lines of such statements is that
of such statements, too (`Statement.exists_movable_of_sameLines`).
-/

namespace JupiterMigration

namespace Java

open Text

/-! ## What stands around tokens of a source -/

/-- Tokens that end as statements do end with the character of a symbol. -/
theorem exists_getLast?_textOf
    {tokens : List Token}
    (nonempty : tokens ≠ [])
    (ends : ∀ front last, tokens = front ++ [last] → last.text ∈ statementEnds) :
    ∃ c ∈ (textOf tokens).toList.getLast?, c = ';' ∨ c = '\x7d' := by
  obtain ⟨front, last, rfl⟩ := (List.eq_nil_or_concat tokens).resolve_left nonempty
  have isEnd := ends front last List.concat_eq_append
  obtain ⟨c, text_eq, closes⟩ : ∃ c, last.text.toList = [c] ∧ (c = ';' ∨ c = '\x7d') := by
    simp only [statementEnds, List.mem_cons, List.not_mem_nil, or_false] at isEnd
    rcases isEnd with same | same <;> rw [same] <;> exact ⟨_, rfl, by decide⟩
  refine ⟨c, ?_, closes⟩
  cases front <;> simp [textOf, sourceOf_append, sourceOf_cons, text_eq]

/-- White space and comments begin with a stop. -/
theorem isStop_of_isGap
    {gap : String}
    {c : Char}
    {rest : List Char}
    (isGap : IsGap gap)
    (gap_eq : gap.toList = c :: rest) : isStop c = true := by
  have passed := isGap ';' [] (by decide) (by decide)
  rw [gap_eq] at passed
  cases space : isSpace c with
  | true => rw [isStop, space, Bool.true_or]
  | false =>
      by_cases slash : c = '/'
      · subst slash
        rfl
      · rw [List.cons_append, gapLength_eq_zero _ space slash] at passed
        cases passed

/-- What stands before a token of a source is a gap, unless the token is the first one. -/
theorem isGap_of_scan
    {source tail : String}
    {tokens front others : List Token}
    {before first : Token}
    (scanned : Token.scan source = some (tokens, tail))
    (inside : before :: (front ++ first :: others) <:+: tokens) : IsGap first.gap := by
  obtain ⟨gap, _, _, after, _, scannedLater⟩ := exists_scanFrom_of_infix scanned inside
  have regrouped : { before with gap } :: (front ++ first :: others) ++ after =
      ({ before with gap } :: front) ++ first :: (others ++ after) := by simp
  rw [regrouped] at scannedLater
  exact isGap_of_scanFrom scannedLater

/-! ## Parts of a source that can be moved -/

/-- Nested tokens of a source that end as statements do can be moved. -/
theorem movable_of_ends
    {source tail : String}
    {tokens part : List Token}
    (scanned : Token.scan source = some (tokens, tail))
    (inside : part <:+: tokens)
    (nonempty : part ≠ [])
    (nested : Nested part)
    (ends : ∀ front last, part = front ++ [last] → last.text ∈ statementEnds) :
    Movable (fun _ => True) (textOf part) := by
  intro moved gap rest stack lines isGap _
  have closes := exists_getLast?_textOf nonempty ends
  obtain ⟨first, others, rfl⟩ := List.exists_cons_of_ne_nil nonempty
  obtain ⟨_, _, _, _, _, scannedLater⟩ := exists_scanFrom_of_infix scanned inside
  exact cutUp_of_scanFrom scannedLater (List.cons_ne_nil _ _) nested (.inl closes) isGap lines stack

/-- Nested tokens of a source before a closing parenthesis can be moved before another one. -/
theorem movable_of_parenthesis
    {source tail : String}
    {tokens part : List Token}
    {closing : Token}
    (scanned : Token.scan source = some (tokens, tail))
    (inside : part ++ [closing] <:+: tokens)
    (nonempty : part ≠ [])
    (nested : Nested part)
    (closes : closing.text = ")") :
    Movable (fun rest => ∃ more, rest = ')' :: more) (textOf part) := by
  rintro moved gap rest stack lines isGap ⟨more, rfl⟩
  obtain ⟨first, others, rfl⟩ := List.exists_cons_of_ne_nil nonempty
  rw [List.cons_append] at inside
  obtain ⟨again, _, _, after, later, scannedLater⟩ := exists_scanFrom_of_infix scanned inside
  have isGapBehind : IsGap closing.gap := isGap_of_scan scanned inside
  have regrouped : { first with gap := again } :: (others ++ [closing]) ++ after =
      ({ first with gap := again } :: others) ++ closing :: after := by simp
  rw [regrouped] at scannedLater
  refine cutUp_of_scanFrom scannedLater (List.cons_ne_nil _ _) nested (.inr ?_) isGap lines stack
  have back_eq : (sourceOf (closing :: after) ++ later).toList =
      closing.gap.toList ++ ')' :: (sourceOf after ++ later).toList := by
    rw [sourceOf_cons, closes]
    simp
  rw [back_eq]
  cases gap_eq : closing.gap.toList with
  | nil => exact ⟨_, _, _, _, rfl, rfl, by decide, by decide, fun slash => by cases slash⟩
  | cons c rest =>
      exact ⟨_, _, _, _, rfl, rfl, isStop_of_isGap isGapBehind gap_eq, by decide,
        fun slash => by cases slash⟩

/-- A token stands before the first statement in a body. -/
theorem IsStatementOf.exists_front
    {phrase body : Phrase}
    (isStatement : IsStatementOf phrase body) :
    ∃ opening front, opening :: (front ++ phrase.tokens) <:+: body.tokens := by
  obtain ⟨_, -, _, braced, rfl, found, inside⟩ := isStatement
  obtain ⟨⟨_, _, rfl⟩, -, -⟩ := parts_of_bracketed? found
  obtain ⟨front, back, inner_eq⟩ := List.append_of_mem inside
  refine ⟨braced.opening, Phrase.tokensOfAll front, ?_⟩
  rw [inner_eq]
  refine ⟨[], Phrase.tokensOfAll back ++ [braced.closing], ?_⟩
  simp [Phrase.tokens, Phrase.tokensOfAll, Phrase.tokensOfAll_append]

end Java

open Java

namespace Statement

/-- The text of a statement begins with something other than white space. -/
def Starts (statement : Statement) : Prop :=
  ∃ c rest, statement.text.toList = c :: rest ∧ Text.isSpace c = false

/-- The text of a statement ends with a semicolon or a closing brace. -/
def Ends (statement : Statement) : Prop :=
  ∃ c ∈ statement.text.toList.getLast?, c = ';' ∨ c = '\x7d'

/--
A statement behind a gap that can be moved anywhere, like the only argument of a call that it is
before a closing parenthesis.
-/
structure IsMovable (statement : Statement) : Prop where
  lead : IsGap statement.lead
  starts : statement.Starts
  ends : statement.Ends
  text : Movable (fun _ => True) statement.text
  argument : ∀ call argument, statement.call = some call → call.arguments = [argument] →
    Movable (fun rest => ∃ more, rest = ')' :: more) argument.text

/-- All statements can be moved. -/
theorem lasting_isMovable : Lasting IsGap IsMovable where
  isLead holds := holds.lead
  ofContent := by
    intro statement other same isGap holds
    have text_eq : other.text = statement.text := congrArg (·.text) same
    have call_eq : other.call = statement.call := congrArg (·.call) same
    refine ⟨isGap, ?_, ?_, text_eq ▸ holds.text, call_eq ▸ holds.argument⟩
    · rw [Starts, text_eq]
      exact holds.starts
    · rw [Ends, text_eq]
      exact holds.ends
  ofRead := by
    intro source path unit unitRead member isMember decl inMember statement inside
    have isMethod : Node.member (.method decl) ∈ Member.walkAll unit.members :=
      Member.mem_walkAll.mpr ⟨member, isMember, inMember⟩
    have inherited : Inherited fun phrase => Written phrase ∧ Filled phrase :=
      fun both isPart => ⟨written_of_mem_parts both.1 isPart, filled_of_mem_parts both.2 isPart⟩
    obtain ⟨tokens, tail, phrase, body, scanned, isCut, holds, isStatement, read_eq⟩ :=
      SourceUnit.isRead_of_read? inherited (fun readFound phrase isPhrase =>
        ⟨writtenAll_iff.mp (writtenAll_of_readProgram readFound) phrase isPhrase,
          filledAll_iff.mp (filledAll_of_readProgram readFound) phrase isPhrase⟩) unitRead
        isMethod inside
    have closed := isStatement.closed holds.1
    obtain ⟨written, filled⟩ := inherited holds isStatement.mem_parts
    have inSource := isStatement.tokens.trans isCut
    have nonempty := filled.tokens_ne_nil
    have lead_eq : statement.lead = phrase.gap := congrArg (·.lead) read_eq
    have text_eq : statement.text = textOf phrase.tokens := congrArg (·.text) read_eq
    have call_eq : statement.call = Call.ofStatement? phrase := congrArg (·.call) read_eq
    have tokens_eq : Phrase.tokensOfAll [phrase] = phrase.tokens := by
      rw [Phrase.tokensOfAll, Phrase.tokensOfAll, List.append_nil]
    have ends : ∀ front last, phrase.tokens = front ++ [last] → last.text ∈ statementEnds :=
      fun front last whole => (closed.ends front last (tokens_eq.trans whole)).2
    refine ⟨?_, ?_, ?_, ?_, ?_⟩
    · obtain ⟨opening, front, inBody⟩ := isStatement.exists_front
      obtain ⟨first, others, phrase_eq⟩ := List.exists_cons_of_ne_nil nonempty
      rw [lead_eq, Phrase.gap, phrase_eq]
      rw [phrase_eq] at inBody
      exact isGap_of_scan scanned (inBody.trans isCut)
    · rw [Starts, text_eq]
      exact exists_start_of_scan scanned inSource nonempty
    · rw [Ends, text_eq]
      exact exists_getLast?_textOf nonempty ends
    · rw [text_eq]
      exact movable_of_ends scanned inSource nonempty (tokens_eq ▸ closed.nested) ends
    · intro call argument call_found only
      obtain ⟨part, closing, rfl, closes, inPhrase, argumentNonempty, nested⟩ :=
        Call.exists_of_arguments_eq written (call_eq ▸ call_found) only
      exact movable_of_parenthesis scanned (inPhrase.trans inSource) argumentNonempty nested closes

/-- A statement that can be moved can be put behind any gap. -/
theorem IsMovable.behind
    {statement : Statement}
    {lead : String}
    (isMovable : statement.IsMovable)
    (isGap : IsGap lead) : { statement with lead }.IsMovable :=
  ⟨isGap, isMovable.starts, isMovable.ends, isMovable.text, isMovable.argument⟩

/-! ## Statements in a row -/

section Rows

open Layout

/-- Texts with the same lines begin with the same character unless it is white space. -/
theorem Starts.of_sameLines
    {statement other : Statement}
    (starts : statement.Starts)
    (lines : SameLines statement.text.toList other.text.toList) : other.Starts := by
  obtain ⟨c, rest, text_eq, noSpace⟩ := starts
  rw [text_eq] at lines
  obtain ⟨more, other_eq, -⟩ := lines.exists_behind_of_cons
  exact ⟨c, more, other_eq, noSpace⟩

theorem Ends.of_sameLines
    {statement other : Statement}
    (ends : statement.Ends)
    (lines : SameLines statement.text.toList other.text.toList) : other.Ends := by
  obtain ⟨c, isLast, isEnd⟩ := ends
  have noIndent : isIndent c = false ∧ '\n' ∉ [c] := by rcases isEnd with rfl | rfl <;> decide
  obtain ⟨front, text_eq⟩ := List.getLast?_eq_some_iff.mp isLast
  rw [text_eq] at lines
  obtain ⟨front', back', other_eq, -, same⟩ :=
    lines.exists_of_append (SameLines.cutsClean_of_cons noIndent.1 _ _)
  rw [same.eq_of_oneLine noIndent.2] at other_eq
  exact ⟨c, by rw [other_eq, List.getLast?_concat]; rfl, isEnd⟩

/-- A text with the lines of a statement that can be moved is that of one, too. -/
theorem IsMovable.exists_of_sameLines
    {statement : Statement}
    {moved : String}
    (isMovable : statement.IsMovable)
    (lines : SameLines statement.print.toList moved.toList) :
    ∃ other : Statement, other.IsMovable ∧ moved = other.print := by
  have clean : SameLines.CutsClean statement.lead.toList statement.text.toList := by
    obtain ⟨c, rest, text_eq, noSpace⟩ := isMovable.starts
    rw [text_eq]
    exact SameLines.cutsClean_of_cons (isIndent_eq_false noSpace) _ _
  obtain ⟨lead, text, moved_eq, sameLead, sameText⟩ := lines.exists_string_of_append clean
  refine ⟨{ statement with lead, text, call := none }, ⟨isMovable.lead.of_sameLines sameLead,
    isMovable.starts.of_sameLines sameText, isMovable.ends.of_sameLines sameText, ?_,
    fun _ _ found => by cases found⟩, moved_eq⟩
  exact fun stack again isGap isRest => isMovable.text stack (sameText.trans again) isGap isRest

/-- A text with the lines of statements that can be moved is that of such statements, too. -/
theorem exists_movable_of_sameLines
    {statements : List Statement}
    {moved : String}
    (each : ∀ statement ∈ statements, statement.IsMovable)
    (lines : SameLines (printAll print statements).toList moved.toList) :
    ∃ others : List Statement, (∀ other ∈ others, other.IsMovable) ∧
      moved = printAll print others := by
  induction statements generalizing moved with
  | nil =>
      have nothing : moved.toList = [] := lines.eq_nil
      exact ⟨[], List.forall_mem_nil _, String.toList_inj.mp nothing⟩
  | cons first rest inductionHypothesis =>
      obtain ⟨ofFirst, ofRest⟩ := List.forall_mem_cons.mp each
      have clean : SameLines.CutsClean first.print.toList (printAll print rest).toList := by
        obtain ⟨c, isLast, isEnd⟩ := ofFirst.ends
        refine .inr fun d isLastPrinted => ?_
        rw [print, String.toList_append, List.getLast?_append, isLast, Option.some_or,
          Option.mem_some_iff] at isLastPrinted
        subst isLastPrinted
        rcases isEnd with rfl | rfl <;> decide
      rw [printAll_cons] at lines
      obtain ⟨front, back, rfl, sameFront, sameBack⟩ := lines.exists_string_of_append clean
      obtain ⟨other, isMovable, rfl⟩ := ofFirst.exists_of_sameLines sameFront
      obtain ⟨others, eachOther, rfl⟩ := inductionHypothesis ofRest sameBack
      exact ⟨other :: others, List.forall_mem_cons.mpr ⟨isMovable, eachOther⟩,
        (printAll_cons _ _ _).symm⟩

/-- Statements that can be moved are cut up one after the other. -/
theorem cutUp_printAll
    {statements : List Statement}
    (each : ∀ statement ∈ statements, statement.IsMovable)
    (stack : List Bracket)
    (rest : List Char) : CutUp stack stack rest (printAll print statements) := by
  induction statements with
  | nil => exact .nil stack rest
  | cons first others inductionHypothesis =>
      obtain ⟨ofFirst, ofOthers⟩ := List.forall_mem_cons.mp each
      rw [printAll_cons]
      exact (ofFirst.text stack (SameLines.refl _) ofFirst.lead trivial).append
        (inductionHypothesis ofOthers)

end Rows

end Statement

/-! ## Statements of a conversion -/

open Layout

/-- A line feed and an indentation are a gap. -/
theorem Layout.IsIndentation.isGap_onNewLine {indent : String} (blank : IsIndentation indent) :
    IsGap ("\n" ++ indent) := by
  refine isGap_of_spaces (List.all_eq_true.mpr fun c inside => ?_)
  rw [String.toList_append, List.mem_append] at inside
  cases inside with
  | inl isLineFeed =>
      rw [List.mem_singleton.mp isLineFeed]
      decide
  | inr isBlank => exact isSpace_of_isIndent (blank c isBlank)

theorem Layout.leads_isGap {layout : Layout} (unitBlank : IsIndentation layout.unit) :
    layout.Leads IsGap := fun classDecl decl =>
  IsIndentation.isGap_onNewLine (isIndentation_statementIndent unitBlank
    (isIndentation_memberIndent unitBlank classDecl) decl)

/-- A method of a file at some point of a conversion in a layout. -/
def Conversion.Reaches (layout : Layout) (decl : Method) : Prop :=
  ∃ source path next result recipes session,
    SourceUnit.parse source path next = .ok result ∧ result.2 ≤ session.nextId ∧
    Node.member (.method decl) ∈ Member.walkAll
      (((applyRecipes layout recipes result.1).run session).1.update.getD result.1).members

theorem Conversion.reaches_of_parse
    {source : String}
    {path : Option String}
    {next : Nat}
    {result : SourceUnit × Nat}
    {decl : Method}
    (layout : Layout)
    (parsed : SourceUnit.parse source path next = .ok result)
    (inside : decl ∈ result.1.methods) : Reaches layout decl :=
  ⟨source, path, next, result, [], ⟨.empty, result.2⟩, parsed, Nat.le_refl _,
    SourceUnit.mem_walkAll_of_mem_methods inside⟩

/-- At any point of a conversion, all statements can be moved. -/
theorem Conversion.Reaches.isMovable
    {layout : Layout}
    {decl : Method}
    (unitBlank : IsIndentation layout.unit)
    (reaches : Reaches layout decl) :
    ∀ statement ∈ Member.bodyStatements decl, statement.IsMovable := by
  obtain ⟨source, path, next, result, recipes, session, parsed, fresh, isMethod⟩ := reaches
  obtain ⟨member, isMember, inMember⟩ := Member.mem_walkAll.mp isMethod
  exact eachStatement_of_parse Statement.lasting_isMovable parsed (leads_isGap unitBlank) recipes
    fresh member isMember decl inMember

end JupiterMigration
