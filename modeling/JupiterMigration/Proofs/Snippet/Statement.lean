import JupiterMigration.Proofs.Grammar.Body
import JupiterMigration.Proofs.Snippet
import JupiterMigration.Proofs.Tokens.CutUp

/-!
# Snippets that are statements

If a snippet is a statement, the tokens of the snippet are those of the statement, as long as they
close what they open and nothing else (`Snippet.text_of_readStatement`).  A snippet that closes more
may go on behind what it is read as (`Snippet.goes_on_unnoticed`).
-/

namespace JupiterMigration

namespace Java

/-- The phrase of a method without parameters is read as a method with its statements. -/
theorem Member.ofPhrase_bodyPhrase
    {void name opening closing first last : Token}
    {statements : List Phrase}
    (shaped : Shaped (bodyPhrase void name opening closing
      (.node .block (.leaf false first :: (statements ++ [.leaf false last]))))) :
    ∃ decl, ofPhrase (bodyPhrase void name opening closing
        (.node .block (.leaf false first :: (statements ++ [.leaf false last])))) = .method decl ∧
      decl.body.map (·.statements) = some (statements.map Statement.ofPhrase) := by
  obtain ⟨-, methodShaped, -⟩ := shaped
  obtain ⟨-, -, -, listShaped, bodyShaped, -⟩ := methodShaped
  obtain ⟨bracketed, found, -, parts_eq⟩ := bracketed?_of_enclosed listShaped.1
  have listed : Parameter.ofList bracketed.closing bracketed.inner = some [] := by
    have rest_eq := (List.cons.inj parts_eq).2
    cases inner_eq : bracketed.inner with
    | nil => rfl
    | cons next others => simp [inner_eq] at rest_eq
  obtain ⟨body, bodyFound, -, body_eq⟩ := bracketed?_of_enclosed bodyShaped.1
  have split_eq : (Method.splitBody
      [.node .block (.leaf false first :: (statements ++ [.leaf false last]))]).2 = some body := by
    simp only [Method.splitBody, List.getLast?_singleton, bodyFound]
  obtain ⟨decl, read_eq, -, -, -, decl_body⟩ :=
    ofPhrase_void List.getLast?_singleton found listed
  refine ⟨decl, read_eq, ?_⟩
  rw [decl_body, split_eq, (List.append_inj' (List.cons.inj body_eq).2 rfl).1]
  rfl

/-- The tokens of a body's opening stand apart, whatever follows. -/
theorem apart_bodyOpening (rest : List Char) : Apart rest bodyOpening := by
  have glued : IsGap "" := isGap_of_spaces rfl
  have spaced : IsGap " " := isGap_of_spaces rfl
  have onNewLine : IsGap "\n" := isGap_of_spaces rfl
  exact ⟨glued, rfl, spaced, rfl, spaced, rfl, onNewLine, rfl, spaced, rfl, glued, rfl, glued, rfl,
    spaced, Token.standsApart_lone rfl rfl rest, trivial⟩

/-- The braces that close the method and the class around a snippet. -/
def closingBraces : List Token := [⟨"\n", "\x7d", .symbol⟩, ⟨"\n", "\x7d", .symbol⟩]

/-- What follows a snippet that is a statement. -/
def afterStatement : List Char := textBefore ['\n'] closingBraces

theorem apart_closingBraces : Apart ['\n'] closingBraces := by
  have onNewLine : IsGap "\n" := isGap_of_spaces rfl
  exact ⟨onNewLine, rfl, onNewLine, rfl, trivial⟩

/-- A line feed ends a source. -/
theorem scanFrom_lineFeed : scanFrom [] ['\n'] = some ([], "\n") := by
  have gap_eq : gapLength .outside ['\n'] = some 1 := rfl
  rw [scanFrom, gap_eq]
  rfl

theorem scanFrom_afterStatement : scanFrom [] afterStatement = some (closingBraces, "\n") := by
  have begins := begins_of_apart apart_closingBraces
  unfold Begins at begins
  rw [afterStatement, begins, scanFrom_lineFeed]
  rfl

end Java

namespace Snippet

open Java

variable {text : String} {tokens : List Token}

/-- The tokens of a snippet that is read as a statement. -/
theorem scan_inMethod
    (begins : Begins tokens (("\n" ++ text).toList ++ afterStatement) afterStatement) :
    Token.scan (inClass (inMethod text)) =
      some (bodyOpening ++ (tokens ++ closingBraces), "\n") := by
  have opening := begins_of_apart
    (apart_bodyOpening (("\n" ++ text).toList ++ afterStatement))
  have written_eq : (inClass (inMethod text)).toList =
      textBefore (("\n" ++ text).toList ++ afterStatement) bodyOpening := by
    unfold inClass inMethod
    simp only [String.toList_append, List.append_assoc]
    rfl
  have scan_eq : Token.scan (inClass (inMethod text)) =
      scanFrom [] (inClass (inMethod text)).toList := by
    unfold Token.scan
    rw [written_eq]
    rfl
  have whole := opening.append begins
  unfold Begins at whole
  rw [scan_eq, written_eq, whole, scanFrom_afterStatement]
  simp

/-- No gap stands at the beginning of a snippet but the line feed before it. -/
theorem gapOf_eq_lineFeed
    (source_eq : sourceOf tokens = "\n" ++ text)
    (begins : Begins tokens (("\n" ++ text).toList ++ afterStatement) afterStatement)
    (ends : endsGap text = true) : gapOf tokens = "\n" := by
  obtain ⟨c, rest, text_eq, noSpace, noComment⟩ := endsGap_iff.mp ends
  cases tokens with
  | nil =>
      have characters := congrArg String.toList source_eq
      simp [sourceOf] at characters
  | cons first others =>
      unfold Begins at begins
      rw [scanFrom_afterStatement] at begins
      obtain ⟨gap, _, gap_eq, -, -, first_eq, -⟩ := exists_of_scanFrom_cons begins
      have isGap : IsGap "\n" := isGap_of_spaces rfl
      have lineFeed := isGap c (rest ++ afterStatement) noSpace noComment
      rw [String.toList_append, text_eq, List.append_assoc, List.cons_append, lineFeed] at gap_eq
      cases gap_eq
      rw [gapOf, first_eq]
      simp

/-- A snippet that is a statement, and closes what it opens, has the text of that statement. -/
theorem text_of_readStatement
    {statement : JupiterMigration.Statement}
    (cutUp : CutUp [] [] afterStatement ("\n" ++ text))
    (ends : endsGap text = true)
    (read : readStatement text = .ok statement) : statement.text = text := by
  obtain ⟨tokens, source_eq, begins, nested⟩ := cutUp
  have gap_eq := gapOf_eq_lineFeed source_eq begins ends
  have text_eq : textOf tokens = text := by
    rw [sourceOf_eq_gapOf_append_textOf, gap_eq] at source_eq
    exact (String.append_right_inj _).mp source_eq
  unfold readStatement readClass SourceUnit.read? at read
  cases found : SourceUnit.phrases? (inClass (inMethod text)) with
  | none =>
      rw [found] at read
      cases read
  | some result =>
      obtain ⟨phrases, tail⟩ := result
      have shaped := (SourceUnit.phrases?_sound found).1
      obtain ⟨scannedTokens, scanned, readFound⟩ := SourceUnit.exists_tokens_of_phrases? found
      rw [scan_inMethod begins] at scanned
      cases scanned
      obtain ⟨_, _, _, _, _, _, _, _, _, _, statements, members, others, rfl, closes,
        statementsNested, tokens_eq⟩ := phrases_of_bodyOpening readFound
      obtain ⟨statements_eq, -⟩ := eq_of_nested statementsNested nested closes ⟨rfl, rfl⟩ tokens_eq
      obtain ⟨head, class_eq⟩ := Member.class?_classPhrase shaped.1
      rw [found] at read
      simp only [Option.map_some, List.map_cons, List.filterMap_cons_some class_eq] at read
      have methodShaped : Shaped (bodyPhrase _ _ _ _ _) := shaped.1.2.1.2.2.2.1.2.2.1
      obtain ⟨decl, decl_eq, body_eq⟩ := Member.ofPhrase_bodyPhrase methodShaped
      generalize (others.map Member.ofTopLevel).filterMap Member.class? = otherClasses at read
      cases otherClasses with
      | cons => cases read
      | nil =>
          have read_eq : statementsOf (.method decl) = statements.map Statement.ofPhrase := by
            rw [statementsOf, body_eq]
            rfl
          rw [decl_eq] at read
          simp only [bind, Except.bind, List.head?_cons, Option.map_some, Option.getD_some,
            read_eq] at read
          cases statements with
          | nil => cases read
          | cons phrase rest =>
              cases rest with
              | cons => cases read
              | nil =>
                  cases read
                  rw [← text_eq, ← statements_eq, Phrase.tokensOfAll, Phrase.tokensOfAll,
                    List.append_nil]
                  rfl

/--
Each snippet goes on behind the node that it is read as: with a modifier, with a declaration behind
the class around it, and with a method behind the one around it.
-/
theorem goes_on_unnoticed :
    (Except.toOption <| readAnnotation "@A public").map (·.text) = some "@A" ∧
      (Except.toOption <| readMember "int x; \x7d interface B \x7b").map (·.text) =
        some "int x;" ∧
      (Except.toOption <| readStatement "x(); \x7d void f() \x7b").map (·.text) =
        some "x();" := by
  decide +kernel

end Snippet

end JupiterMigration
