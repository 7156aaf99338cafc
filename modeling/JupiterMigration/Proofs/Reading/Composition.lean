import JupiterMigration.Proofs.Grammar.ImportPhrase
import JupiterMigration.Proofs.Usage

/-!
# Files made up of declarations

Before the types of an ordinary file stand declarations that are cut off and read by themselves
(`Composed`).  One of them can be put in front of others, and an import can be taken away, and what
the file is then made up of is what its text is read as (`phrases?_of_composed`).
-/

namespace JupiterMigration.Java

open Phrase Rule Text

variable {before after : List Embedding} {phrase first : Phrase}
  {phrases front rest back : List Phrase}
  {tokens : List Token} {tail gap : String}

/-- An import, or what is taken for a package declaration. -/
def IsFront (phrase : Phrase) : Prop :=
  phrase.isA .importDeclaration = true ∨ (Member.ofTopLevel phrase).isPackage = true

/--
Declarations that are cut off and read whatever follows them, and behind them a program without
imports and packages up to the end of the file.  Imports leave open what is open.
-/
inductive Composed (tail : String) : List Embedding → List Phrase → Prop
  | types {before : List Embedding} {phrases : List Phrase}
      (noFront : ∀ phrase ∈ phrases, ¬IsFront phrase)
      (closes : Closes before (tokensOfAll phrases) tail)
      (found : outcome program (tokensOfAll phrases) = some (phrases, [])) :
      Composed tail before phrases
  | front {before after : List Embedding} {phrase : Phrase} {rest : List Phrase}
      (alone : StandsAlone phrase)
      (opens : Opens before after phrase.tokens)
      (keeps : phrase.isA .importDeclaration = true → after = before)
      (composed : Composed tail after rest) :
      Composed tail before (phrase :: rest)

@[simp]
theorem isPackage_withLead (lead : String) (member : JupiterMigration.Member) :
    (member.withLead lead).isPackage = member.isPackage := by
  cases member <;> rfl

/-! ## Reading -/

/-- What a file is made up of is what its tokens are read as. -/
theorem Composed.outcome_eq (composed : Composed tail before phrases) :
    outcome program (tokensOfAll phrases) = some (phrases, []) := by
  induction composed with
  | types _ _ found => exact found
  | front alone _ _ _ inductionHypothesis =>
      exact outcome_program_cons.mpr ⟨_, alone _, inductionHypothesis⟩

theorem Composed.filledAll (composed : Composed tail before phrases) : FilledAll phrases :=
  filledAll_of_readProgram (readProgram_eq_some_iff.mpr composed.outcome_eq)

@[simp]
theorem regapTokens_gapOf (tokens : List Token) : regapTokens (gapOf tokens) tokens = tokens := by
  cases tokens <;> rfl

/-- Cutting the text of a file that is made up of declarations gives their tokens. -/
theorem Composed.scanFrom_eq
    (composed : Composed tail before phrases)
    (gaps : ∀ phrase ∈ phrases, IsGap phrase.gap) :
    scanFrom before ((sourceOfAll phrases).toList ++ tail.toList) =
      some (tokensOfAll phrases, tail) := by
  induction composed with
  | @types before phrases _ closes found =>
      have isGap : IsGap (gapOf (tokensOfAll phrases)) := by
        cases phrases with
        | nil => exact isGap_of_spaces rfl
        | cons first rest =>
            have filled := filledAll_of_readProgram (readProgram_eq_some_iff.mpr found)
            rw [tokensOfAll, gapOf_append filled.1.tokens_ne_nil]
            exact gaps first List.mem_cons_self
      have closed := closes _ isGap
      rwa [regapTokens_gapOf] at closed
  | @front before after phrase rest alone opens _ _ inductionHypothesis =>
      rw [List.forall_mem_cons] at gaps
      have opened := opens phrase.gap ((sourceOfAll rest).toList ++ tail.toList) gaps.1
      rw [Phrase.gap, regapTokens_gapOf, inductionHypothesis gaps.2] at opened
      rw [sourceOfAll, tokensOfAll, sourceOf_append, String.toList_append, List.append_assoc]
      exact opened

/-! ## Changes -/

/-- The first declaration may stand after another gap. -/
theorem Composed.regap
    (composed : Composed tail before (first :: rest))
    (gap : String) : Composed tail before (first.regap gap :: rest) := by
  have filled : Filled first := composed.filledAll.1
  have tokens_eq : tokensOfAll (first.regap gap :: rest) =
      regapTokens gap (tokensOfAll (first :: rest)) :=
    tokensOfAll_regapAll gap composed.filledAll
  cases composed with
  | types noFront closes found =>
      rw [List.forall_mem_cons] at noFront
      refine .types (List.forall_mem_cons.mpr ⟨fun isFront => noFront.1 ?_, noFront.2⟩) ?_ ?_
      · unfold IsFront at isFront ⊢
        rw [isA_regap, Member.ofTopLevel_regap gap filled, isPackage_withLead] at isFront
        exact isFront
      · rw [tokens_eq]
        exact closes.regap gap
      · rw [tokens_eq]
        exact outcome_program_regap gap found
  | front alone opens keeps composed =>
      refine .front (alone.regap filled gap) ?_ ?_ composed
      · rw [tokens_regap gap first filled]
        exact opens.regap gap
      · rwa [isA_regap]

/-- The import of a dotted name may be put in front. -/
theorem Composed.insert
    {word : String}
    {words : List String}
    (composed : Composed tail before rest)
    (gap : String)
    (isStatic : Bool)
    (spelled : ∀ text ∈ word :: words, isWord text = true)
    (noKeyword : word ≠ "static") :
    Composed tail before (importPhrase gap isStatic word words :: rest) :=
  .front (standsAlone_importPhrase gap isStatic noKeyword words)
    (opens_importPhrase gap isStatic spelled) (fun _ => rfl) composed

/-- An import at the front may be taken away. -/
theorem Composed.of_import
    (composed : Composed tail before (first :: rest))
    (isImport : first.isA .importDeclaration = true) : Composed tail before rest := by
  cases composed with
  | types noFront _ _ => exact absurd (.inl isImport) (noFront first List.mem_cons_self)
  | front _ _ keeps composed => exact keeps isImport ▸ composed

/-- What stands from some front declaration on may be replaced. -/
theorem Composed.split
    (composed : Composed tail before (front ++ first :: rest))
    (isFront : front = [] ∨ IsFront first) :
    ∃ after, Composed tail after (first :: rest) ∧
      ∀ other, Composed tail after other → Composed tail before (front ++ other) := by
  induction front generalizing before with
  | nil => exact ⟨before, composed, fun _ => id⟩
  | cons phrase front inductionHypothesis =>
      have isFront : IsFront first := isFront.resolve_left (List.cons_ne_nil phrase front)
      rw [List.cons_append] at composed
      cases composed with
      | types noFront _ _ => exact absurd isFront (noFront first (by simp))
      | front alone opens keeps composed =>
          obtain ⟨after, composedRest, replace⟩ := inductionHypothesis composed (.inr isFront)
          exact ⟨after, composedRest, fun other composedOther =>
            .front alone opens keeps (replace other composedOther)⟩

/-- What stands behind some front declaration may be replaced. -/
theorem Composed.split_behind
    (composed : Composed tail before (front ++ first :: rest))
    (isFront : IsFront first) :
    ∃ after, Composed tail after rest ∧
      ∀ other, Composed tail after other → Composed tail before (front ++ first :: other) := by
  obtain ⟨_, composedFirst, replace⟩ := composed.split (.inr isFront)
  cases composedFirst with
  | types noFront _ _ => exact absurd isFront (noFront first List.mem_cons_self)
  | front alone opens keeps composedRest =>
      exact ⟨_, composedRest, fun other composedOther =>
        replace _ (.front alone opens keeps composedOther)⟩

/-! ## Gaps -/

/-- A gap at the beginning of a file: it may begin with a byte order mark. -/
def IsLead (gap : String) : Prop :=
  IsGap gap ∨ ∃ rest, gap = "\ufeff" ++ rest ∧ IsGap rest

/-- Before the first declaration stands a gap that a file may begin with, and gaps before others. -/
def Spaced : List Phrase → Prop
  | [] => True
  | first :: rest => IsLead first.gap ∧ ∀ phrase ∈ rest, IsGap phrase.gap

/-- What stands behind a declaration has gaps before it. -/
theorem Spaced.behind (spaced : Spaced (front ++ first :: rest)) :
    ∀ phrase ∈ rest, IsGap phrase.gap := by
  cases front with
  | nil => exact spaced.2
  | cons _ front => exact fun phrase inside => spaced.2 phrase (by simp [inside])

theorem Spaced.of_append (spaced : Spaced (front ++ rest)) : Spaced front := by
  cases front with
  | nil => trivial
  | cons _ front =>
      exact ⟨spaced.1, fun phrase inside => spaced.2 phrase (List.mem_append_left rest inside)⟩

/-- In place of a declaration another one may stand after the same lead, or after any gap. -/
theorem Spaced.replace
    {other : Phrase}
    (spaced : Spaced (front ++ first :: rest))
    (isGap : other.gap = first.gap ∨ IsGap other.gap)
    (gaps : ∀ phrase ∈ back, IsGap phrase.gap) : Spaced (front ++ other :: back) := by
  cases front with
  | nil => exact ⟨isGap.elim (fun same => same ▸ spaced.1) .inl, gaps⟩
  | cons _ front =>
      have ofFirst : IsGap first.gap := spaced.2 first (by simp)
      have ofOther : IsGap other.gap := isGap.elim (fun same => same ▸ ofFirst) id
      exact ⟨spaced.1, List.forall_mem_append.mpr
        ⟨fun phrase inside => spaced.2 phrase (List.mem_append_left _ inside),
          List.forall_mem_cons.mpr ⟨ofOther, gaps⟩⟩⟩

/-! ## Files -/

/-- No token begins with a byte order mark. -/
theorem scanFrom_byteOrderMark (text : List Char) : scanFrom [] ('\ufeff' :: text) = none := by
  have gap_eq : gapLength .outside ('\ufeff' :: text) = some 0 := rfl
  have length_eq : (Numeral.measure ('\ufeff' :: text)).2 = 0 :=
    Numeral.measure_eq_zero (by decide) fun point => absurd point (by decide)
  have noStart : isNameStart '\ufeff' = false := by
    simp only [isNameStart, inRanges, ← Array.any_toList]
    decide +kernel
  have found_eq : lexeme [] ('\ufeff' :: text) = some ⟨.symbol, 0, []⟩ := by
    rw [lexeme_of_other (by decide) (by decide) fun _ _ brace => absurd brace (by decide),
      if_neg (by simp [noStart]), length_eq]
    rfl
  rw [scanFrom, gap_eq]
  simp [found_eq]

/-- What is cut from the beginning on is cut so as a file. -/
theorem scan_of_scanFrom
    {source : String}
    (scanned : scanFrom [] source.toList = some (tokens, tail)) :
    Token.scan source = some (tokens, tail) := by
  unfold Token.scan
  split
  · next begins =>
      rw [begins, scanFrom_byteOrderMark] at scanned
      cases scanned
  · exact scanned

/-- A byte order mark at the beginning of a file is put in front of the first gap. -/
theorem scan_byteOrderMark (source : String) :
    Token.scan ("\ufeff" ++ source) = (scanFrom [] source.toList).map (pushGap "\ufeff") := by
  have begins : ("\ufeff" ++ source).toList = '\ufeff' :: source.toList := by
    rw [String.toList_append]
    rfl
  unfold Token.scan
  rw [begins]
  rfl

theorem phrases?_of_scan
    {source : String}
    (scanned : Token.scan source = some (tokensOfAll phrases, tail))
    (found : outcome program (tokensOfAll phrases) = some (phrases, [])) :
    SourceUnit.phrases? source = some (phrases, tail) := by
  unfold SourceUnit.phrases?
  rw [scanned]
  dsimp only
  rw [readProgram_eq_some_iff.mpr found]

/-- The text of a file that is made up of declarations is read as these. -/
theorem phrases?_of_composed
    (composed : Composed tail [] phrases)
    (spaced : Spaced phrases) :
    SourceUnit.phrases? (sourceOfAll phrases ++ tail) = some (phrases, tail) := by
  refine phrases?_of_scan ?_ composed.outcome_eq
  cases phrases with
  | nil =>
      refine scan_of_scanFrom ?_
      rw [String.toList_append]
      exact composed.scanFrom_eq (List.forall_mem_nil _)
  | cons first rest =>
      obtain ⟨isGap | ⟨gap, gap_eq, isGap⟩, gaps⟩ := spaced
      · refine scan_of_scanFrom ?_
        rw [String.toList_append]
        exact composed.scanFrom_eq (List.forall_mem_cons.mpr ⟨isGap, gaps⟩)
      · -- Behind the byte order mark the first declaration stands after the rest of its gap.
        have filled : Filled first := composed.filledAll.1
        have scanned := (composed.regap gap).scanFrom_eq
          (List.forall_mem_cons.mpr ⟨by rwa [gap_regap gap filled], gaps⟩)
        rw [sourceOfAll, ← regapAll, tokensOfAll_regapAll gap composed.filledAll,
          ← String.toList_append] at scanned
        obtain ⟨token, others, tokens_eq⟩ := List.exists_cons_of_ne_nil filled.tokens_ne_nil
        have tokenGap : token.gap = "\ufeff" ++ gap := by
          rw [← gap_eq, Phrase.gap, tokens_eq]
          rfl
        have source_eq : sourceOfAll (first :: rest) ++ tail = "\ufeff" ++
            (sourceOf (regapTokens gap (tokensOfAll (first :: rest))) ++ tail) := by
          simp [sourceOfAll, tokensOfAll, tokens_eq, regapTokens, tokenGap, String.append_assoc]
        rw [source_eq, scan_byteOrderMark, scanned, tokensOfAll, tokens_eq]
        simp [regapTokens, pushGap, ← tokenGap]

/-- Behind a byte order mark, if there is one, the tokens of a file are cut off. -/
theorem exists_scanFrom_of_scan
    {source : String}
    {token : Token}
    {others : List Token}
    (scanned : Token.scan source = some (token :: others, tail)) :
    ∃ gap text, scanFrom [] text = some (regapTokens gap (token :: others), tail) ∧
      (token.gap = gap ∨ token.gap = "\ufeff" ++ gap) := by
  unfold Token.scan at scanned
  split at scanned
  · next text _ =>
      obtain ⟨⟨tokens, rest⟩, found, pushed⟩ := Option.map_eq_some_iff.mp scanned
      cases tokens with
      | nil => cases pushed
      | cons first more =>
          cases pushed
          exact ⟨first.gap, text, found, .inr rfl⟩
  · exact ⟨token.gap, _, scanned, .inl rfl⟩

/-! ## Ordinary files -/

/-- What is taken for a package declaration begins like one. -/
theorem beginsWith_of_isPackage (isPackage : (Member.ofTopLevel phrase).isPackage = true) :
    beginsWith phrase.text "package" = true := by
  have ofVerbatim (found : (JupiterMigration.Member.verbatim
      (Verbatim.ofPhrase phrase)).isPackage = true) : beginsWith phrase.text "package" = true := by
    unfold JupiterMigration.Member.isPackage SourceUnit.packageOf at found
    dsimp only at found
    split at found
    · next begins => exact begins
    · cases found
  unfold Member.ofTopLevel at isPackage
  split at isPackage
  · cases isPackage
  · split at isPackage
    · next parts _ =>
        unfold ClassDecl.ofParts? at isPackage
        cases view_eq : parts.getLast?.bind ClassDecl.view? with
        | none =>
            rw [view_eq] at isPackage
            exact ofVerbatim isPackage
        | some view =>
            rw [view_eq] at isPackage
            cases isPackage
    · exact ofVerbatim isPackage

/-- Of two texts neither of which begins with the other, no text begins with both. -/
theorem beginsWith_eq_false
    {text other part : String}
    (apart : (beginsWith text part || beginsWith part text) = false)
    (begins : beginsWith other text = true) : beginsWith other part = false := by
  rw [Bool.or_eq_false_iff] at apart
  rw [Bool.eq_false_iff]
  intro both
  unfold beginsWith at *
  rw [List.isPrefixOf_iff_prefix] at begins both
  rcases List.prefix_or_prefix_of_prefix begins both with isPrefix | isPrefix
  · rw [List.isPrefixOf_iff_prefix.mpr isPrefix] at apart
    cases apart.2
  · rw [List.isPrefixOf_iff_prefix.mpr isPrefix] at apart
    cases apart.1

/-- No type is an import or taken for a package declaration. -/
theorem not_isFront_of_type (derived : Derives Category.rule typeOrSemicolon [phrase]) :
    ¬IsFront phrase := by
  rintro (isImport | isPackage)
  · rcases derived.of_either with isType | isSemicolon
    · obtain ⟨parts, same, -⟩ := isType.of_node
      cases same
      cases isImport
    · obtain ⟨parts, same, -⟩ := isSemicolon.of_node
      cases same
      cases isImport
  · have filled := (filledAll_of_derives fills_rule derived (by decide)).1
    obtain ⟨token, others, tokens_eq⟩ := List.exists_cons_of_ne_nil filled.tokens_ne_nil
    have isText : token.text ∈ typeTexts :=
      opensWith_of_type derived token others (by rw [tokensOfAll, tokensOfAll, tokens_eq]; simp)
    have begins : beginsWith phrase.text token.text = true := by
      rw [Phrase.text, tokens_eq, textOf, beginsWith, String.toList_append]
      exact List.isPrefixOf_iff_prefix.mpr (List.prefix_append _ _)
    have apart : ∀ text ∈ typeTexts,
        (beginsWith text "package" || beginsWith "package" text) = false := by decide
    have noPackage := beginsWith_eq_false (apart _ isText) begins
    rw [beginsWith_of_isPackage isPackage] at noPackage
    cases noPackage

theorem head?_regapTokens (gap : String) (tokens : List Token) :
    (regapTokens gap tokens).head? = tokens.head?.map fun token => { token with gap } := by
  cases tokens <;> rfl

/-- What ends the gap before it does so before another gap. -/
theorem endsGap_regapTokens
    (ends : ∀ first ∈ tokens.head?, endsGap first.text = true)
    (gap : String) : ∀ first ∈ (regapTokens gap tokens).head?, endsGap first.text = true := by
  intro first isFirst
  rw [head?_regapTokens] at isFirst
  obtain ⟨old, isOld, rfl⟩ := Option.map_eq_some_iff.mp isFirst
  exact ends old isOld

/-- Tokens up to a semicolon are tokens up to a semicolon after another gap. -/
theorem exists_regapTokens_eq
    {stop : Token}
    (isEnd : IsEnd stop)
    (gap : String)
    (front : List Token) :
    ∃ others last, regapTokens gap (front ++ [stop]) = others ++ [last] ∧ IsEnd last ∧
      ((∀ token ∈ front, token.IsPlain) → ∀ token ∈ others, token.IsPlain) := by
  cases front with
  | nil => exact ⟨[], { stop with gap }, rfl, isEnd, fun _ => List.forall_mem_nil _⟩
  | cons first rest =>
      refine ⟨{ first with gap } :: rest, stop, rfl, isEnd, fun plain => ?_⟩
      rw [List.forall_mem_cons] at plain ⊢
      exact plain

/-- The types of an ordinary file, cut off up to its end. -/
theorem composed_types
    {text : List Char}
    (types : ∀ phrase ∈ phrases, Derives Category.rule typeOrSemicolon [phrase])
    (found : outcome program (tokensOfAll phrases) = some (phrases, []))
    (scanned : scanFrom before text = some (regapTokens gap (tokensOfAll phrases), tail)) :
    Composed tail before phrases := by
  have ends : ∀ first ∈ (tokensOfAll phrases).head?, endsGap first.text = true := by
    cases phrases with
    | nil => simp [tokensOfAll]
    | cons first rest =>
        have filled := filledAll_of_readProgram (readProgram_eq_some_iff.mpr found)
        have firstEnds := (opensWith_of_type (types first List.mem_cons_self)).endsGap
          (by decide)
        obtain ⟨token, others, tokens_eq⟩ := List.exists_cons_of_ne_nil filled.1.tokens_ne_nil
        rw [tokens_eq] at firstEnds
        rw [tokensOfAll, tokens_eq]
        exact firstEnds
  have closes := (closes_of_scanFrom (endsGap_regapTokens ends gap) scanned).regap
    (gapOf (tokensOfAll phrases))
  rw [regapTokens_regapTokens, regapTokens_gapOf] at closes
  exact .types (fun phrase inside => not_isFront_of_type (types phrase inside)) closes found

/-- What stands before the types is a package declaration, or an import of plain tokens. -/
theorem front_cases
    (derived : Derives Category.rule (.either packageDeclaration importDeclaration) [phrase]) :
    EndsInSemicolon phrase ∧
      (phrase.isA .declaration = true ∧ phrase.isA .importDeclaration = false ∨
        phrase.isA .importDeclaration = true ∧ ∀ token ∈ phrase.tokens, token.IsPlain) := by
  cases derived.of_either with
  | inl isPackage =>
      refine ⟨endsInSemicolon_of_package isPackage, ?_⟩
      obtain ⟨parts, same, -⟩ := isPackage.of_node
      cases same
      exact .inl ⟨rfl, rfl⟩
  | inr isImport =>
      refine ⟨endsInSemicolon_of_import isImport, .inr ⟨?_, isPlain_of_import isImport⟩⟩
      obtain ⟨parts, same, -⟩ := isImport.of_node
      cases same
      rfl

/-- An ordinary file, cut off up to its end, is made up of its declarations. -/
theorem composed_of_scanFrom
    {text : List Char}
    (fronts : ∀ phrase ∈ front,
      Derives Category.rule (.either packageDeclaration importDeclaration) [phrase])
    (types : ∀ phrase ∈ back, Derives Category.rule typeOrSemicolon [phrase])
    (alone : ∀ phrase ∈ front, StandsAlone phrase)
    (found : outcome program (tokensOfAll back) = some (back, []))
    (scanned : scanFrom before text = some (regapTokens gap (tokensOfAll (front ++ back)), tail)) :
    Composed tail before (front ++ back) := by
  induction front generalizing before text gap with
  | nil => exact composed_types types found scanned
  | cons phrase front inductionHypothesis =>
      rw [List.forall_mem_cons] at fronts alone
      obtain ⟨⟨inner, stop, tokens_eq, isEnd⟩, isPlain⟩ := front_cases fronts.1
      have ends := (opensWith_of_front fronts.1).endsGap (by decide)
      obtain ⟨others, last, regapped, isLast, plain⟩ := exists_regapTokens_eq isEnd gap inner
      have parts : regapTokens gap (tokensOfAll (phrase :: front ++ back)) =
          others ++ last :: tokensOfAll (front ++ back) := by
        rw [List.cons_append, tokensOfAll, tokens_eq, regapTokens_append gap (by simp), regapped]
        simp
      have endsRegapped := endsGap_regapTokens ends gap
      rw [tokens_eq, regapped] at endsRegapped
      rw [parts] at scanned
      obtain ⟨after, more, scannedMore, opens, keeps⟩ :=
        exists_opens_of_scanFrom isLast endsRegapped scanned
      rw [← regapTokens_gapOf (tokensOfAll (front ++ back))] at scannedMore
      refine .front alone.1 ?_ (fun isImport => keeps (plain ?_))
        (inductionHypothesis fronts.2 alone.2 scannedMore)
      · have opensAgain := opens.regap (gapOf phrase.tokens)
        rwa [← regapped, ← tokens_eq, regapTokens_regapTokens, regapTokens_gapOf] at opensAgain
      · rcases isPlain with ⟨-, noImport⟩ | ⟨-, plainTokens⟩
        · rw [noImport] at isImport
          cases isImport
        · rw [tokens_eq, List.forall_mem_append] at plainTokens
          exact plainTokens.1

/-- Every token is cut off behind a gap. -/
theorem isGap_of_mem
    {text : List Char}
    (scanned : scanFrom before text = some (tokens, tail)) :
    ∀ token ∈ tokens, IsGap token.gap := by
  intro token inside
  obtain ⟨front, others, rfl⟩ := List.append_of_mem inside
  exact isGap_of_scanFrom scanned

/-- The declarations of a file stand behind gaps. -/
theorem spaced_of_scanFrom
    {text : List Char}
    (filled : FilledAll (first :: rest))
    (scanned : scanFrom before text =
      some (regapTokens gap (tokensOfAll (first :: rest)), tail))
    (isLead : first.gap = gap ∨ first.gap = "\ufeff" ++ gap) : Spaced (first :: rest) := by
  obtain ⟨token, others, tokens_eq⟩ := List.exists_cons_of_ne_nil filled.1.tokens_ne_nil
  have gaps := isGap_of_mem scanned
  rw [tokensOfAll, tokens_eq, List.cons_append, regapTokens, List.forall_mem_cons,
    List.forall_mem_append] at gaps
  obtain ⟨isGap, -, gapsRest⟩ := gaps
  refine ⟨?_, fun phrase inside => ?_⟩
  · rcases isLead with gap_eq | gap_eq
    · exact .inl (gap_eq ▸ isGap)
    · exact .inr ⟨gap, gap_eq, isGap⟩
  · have phraseFilled := filledAll_iff.mp filled.2 phrase inside
    obtain ⟨own, more, own_eq⟩ := List.exists_cons_of_ne_nil phraseFilled.tokens_ne_nil
    rw [Phrase.gap, own_eq]
    refine gapsRest own ?_
    obtain ⟨front, back, rfl⟩ := List.append_of_mem inside
    simp [tokensOfAll_append, tokensOfAll, own_eq]

/-- An ordinary file is made up of its declarations, which stand behind gaps. -/
theorem composed_of_phrases?
    {source : String}
    (found : SourceUnit.phrases? source = some (phrases, tail))
    (ordinary : IsOrdinary phrases) : Composed tail [] phrases ∧ Spaced phrases := by
  obtain ⟨some, derived⟩ := ordinary
  obtain ⟨tokens, scanned, readFound⟩ := SourceUnit.exists_tokens_of_phrases? found
  obtain rfl : tokensOfAll phrases = tokens := readProgram_lossless readFound
  have filled := filledAll_of_readProgram readFound
  obtain ⟨front, back, rfl, fronts, types⟩ := exists_of_compilationUnit derived
  obtain ⟨alone, backFound⟩ := standsAlone_of_program (readProgram_eq_some_iff.mp readFound)
    fun phrase inside => by
      obtain ⟨ends, isPackage | isImport⟩ := front_cases (fronts phrase inside)
      · exact ⟨ends, .inl isPackage.1⟩
      · exact ⟨ends, .inr isImport.1⟩
  generalize phrases_eq : front ++ back = phrases at *
  cases phrases with
  | nil => exact absurd rfl some
  | cons first rest =>
      obtain ⟨token, others, tokens_eq⟩ := List.exists_cons_of_ne_nil filled.1.tokens_ne_nil
      rw [tokensOfAll, tokens_eq, List.cons_append] at scanned
      obtain ⟨gap, text, scannedText, gap_eq⟩ := exists_scanFrom_of_scan scanned
      rw [← List.cons_append, ← tokens_eq, ← tokensOfAll] at scannedText
      refine ⟨?_, spaced_of_scanFrom filled scannedText ?_⟩
      · rw [← phrases_eq] at scannedText ⊢
        exact composed_of_scanFrom fronts types alone backFound scannedText
      · rwa [Phrase.gap, tokens_eq]

end JupiterMigration.Java
