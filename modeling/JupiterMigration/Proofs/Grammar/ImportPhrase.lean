import JupiterMigration.Imports
import JupiterMigration.Proofs.Grammar.CompilationUnit
import JupiterMigration.Proofs.Grammar.Lookahead
import JupiterMigration.Proofs.Reading.FirstGap

/-!
# Imports that are written

The import of a dotted name is read back as such, whatever stands before it and follows it
(`standsAlone_importPhrase`), and its text is cut up into its tokens again
(`opens_importPhrase`).
-/

namespace JupiterMigration.Java

open Rule Phrase Text

/-! ## Guards that the first tokens decide -/

/-- A rule with the guards decided that sketched tokens decide. -/
def chosen (sketch : List Sketch) : Nat → Rule Category → Rule Category
  | 0, rule => rule
  | depth + 1, .call category => chosen sketch depth (Category.rule category)
  | depth + 1, .guarded guard yes no =>
    match preview Category.rule callDepth guard sketch with
    | .accepted _ => chosen sketch depth yes
    | .refused => chosen sketch depth no
    | .unsettled => .guarded guard yes no
  | _, rule => rule

/-- After known tokens the rule that they choose is read. -/
theorem outcome_chosen
    {sketch : List Sketch}
    {known : List Token}
    (fits : List.Forall₂ Sketch.Fits sketch known)
    (depth : Nat)
    {rule : Rule Category}
    (grounded : isGrounded Category.rule rule = true)
    (more : List Token) :
    outcome rule (known ++ more) = outcome (chosen sketch depth rule) (known ++ more) := by
  induction depth generalizing rule with
  | zero => rfl
  | succ depth inductionHypothesis =>
      cases rule with
      | call category =>
          rw [outcome_call grounded, chosen]
          exact inductionHypothesis (isGrounded_rule category)
      | guarded guard yes no =>
          have parts := grounded
          simp only [isGrounded, Bool.and_eq_true] at parts
          obtain ⟨count, steps_eq⟩ : ∃ count, steps (known ++ more) = count + callDepth := by
            refine ⟨steps (known ++ more) - callDepth, ?_⟩
            unfold steps callDepth
            omega
          rw [chosen, outcome_guarded grounded]
          cases foreseen : preview Category.rule callDepth guard sketch with
          | accepted length =>
              obtain ⟨phrases, found⟩ := exists_read_of_accepted fits more foreseen count
              rw [outcome, steps_eq, found]
              exact inductionHypothesis parts.2.1.2
          | refused =>
              rw [outcome, steps_eq, read_eq_none_of_refused fits foreseen count]
              exact inductionHypothesis parts.2.2
          | unsettled => rw [outcome_guarded grounded]
      | _ => rfl

theorem chosen_topLevel :
    chosen [.exact ⟨"", "import", .word⟩] callDepth (.call .topLevel) = importDeclaration := by
  rfl

/-! ## The phrase of an import -/

/-- The words after the first one of a dotted name, each with its dot. -/
def selections : List String → List Phrase
  | [] => []
  | next :: rest =>
    .leaf false ⟨"", ".", .symbol⟩ :: .leaf true ⟨"", next, .word⟩ :: selections rest

/-- The word `static`, if it is written. -/
def staticLeaf (isStatic : Bool) : List Phrase :=
  if isStatic then [.leaf false ⟨" ", "static", .word⟩] else []

/-- A dotted name after a space. -/
def namePhrase (first : String) (rest : List String) : Phrase :=
  .node .qualifiedName (.leaf true ⟨" ", first, .word⟩ :: selections rest)

/-- The import of a dotted name. -/
def importPhrase (gap : String) (isStatic : Bool) (first : String) (rest : List String) : Phrase :=
  .node .importDeclaration (.leaf false ⟨gap, "import", .word⟩ :: (staticLeaf isStatic ++
    [namePhrase first rest, .leaf false ⟨"", ";", .symbol⟩]))

/-! ## Reading it -/

section Reading

variable {text gap first : String} {token : Token} {tokens : List Token}

theorem outcome_word (gap text : String) (tokens : List Token) :
    outcome (.word text) (⟨gap, text, .word⟩ :: tokens) =
      some ([.leaf false ⟨gap, text, .word⟩], tokens) := by
  obtain ⟨count, steps_eq⟩ := exists_steps_eq (⟨gap, text, .word⟩ :: tokens)
  rw [outcome, steps_eq, Rule.read, take]
  simp

theorem outcome_word_eq_none
    (differs : (token.kind == .word && token.text == text) = false)
    (tokens : List Token) : outcome (.word text) (token :: tokens) = none := by
  obtain ⟨count, steps_eq⟩ := exists_steps_eq (token :: tokens)
  rw [outcome, steps_eq, Rule.read, take, differs]
  rfl

theorem outcome_symbol (gap text : String) (tokens : List Token) :
    outcome (.symbol text) (⟨gap, text, .symbol⟩ :: tokens) =
      some ([.leaf false ⟨gap, text, .symbol⟩], tokens) := by
  obtain ⟨count, steps_eq⟩ := exists_steps_eq (⟨gap, text, .symbol⟩ :: tokens)
  rw [outcome, steps_eq, Rule.read, take]
  simp

theorem outcome_symbol_eq_none
    (differs : (token.kind == .symbol && token.text == text) = false)
    (tokens : List Token) : outcome (.symbol text) (token :: tokens) = none := by
  obtain ⟨count, steps_eq⟩ := exists_steps_eq (token :: tokens)
  rw [outcome, steps_eq, Rule.read, take, differs]
  rfl

theorem outcome_anyName (gap text : String) (tokens : List Token) :
    outcome (.name []) (⟨gap, text, .word⟩ :: tokens) =
      some ([.leaf true ⟨gap, text, .word⟩], tokens) := by
  obtain ⟨count, steps_eq⟩ := exists_steps_eq (⟨gap, text, .word⟩ :: tokens)
  rw [outcome, steps_eq, Rule.read, take]
  simp

theorem outcome_done (tokens : List Token) : outcome .done tokens = some ([], tokens) := by
  obtain ⟨count, steps_eq⟩ := exists_steps_eq tokens
  rw [outcome, steps_eq]
  rfl

/-- The rule for a word that is selected from what stands before it. -/
def selection : Rule Category := .seq (.symbol ".") (.name [])

theorem outcome_selection (next : String) (tokens : List Token) :
    outcome selection (⟨"", ".", .symbol⟩ :: ⟨"", next, .word⟩ :: tokens) =
      some ([.leaf false ⟨"", ".", .symbol⟩, .leaf true ⟨"", next, .word⟩], tokens) := by
  rw [selection, outcome_seq (by decide), outcome_symbol, Option.bind_some,
    outcome_anyName]
  rfl

theorem outcome_selection_eq_none
    (noDot : (token.kind == .symbol && token.text == ".") = false)
    (tokens : List Token) : outcome selection (token :: tokens) = none := by
  rw [selection, outcome_seq (by decide), outcome_symbol_eq_none noDot, Option.bind_none]

/-- The words after the first one of a dotted name are read up to a token that is no dot. -/
theorem outcome_selections
    (rest : List String)
    (noDot : (token.kind == .symbol && token.text == ".") = false)
    (tokens : List Token) :
    outcome (.many selection) (tokensOfAll (selections rest) ++ token :: tokens) =
      some (selections rest, token :: tokens) := by
  have grounded : isGrounded Category.rule (.many selection) = true := by decide
  induction rest with
  | nil =>
      rw [selections, tokensOfAll.eq_def, List.nil_append, outcome_many grounded,
        outcome_selection_eq_none noDot]
  | cons next rest inductionHypothesis =>
      have first_read : outcome selection
          (tokensOfAll (selections (next :: rest)) ++ token :: tokens) =
            some ([.leaf false ⟨"", ".", .symbol⟩, .leaf true ⟨"", next, .word⟩],
              tokensOfAll (selections rest) ++ token :: tokens) :=
        outcome_selection next _
      rw [outcome_many grounded, first_read]
      dsimp only
      rw [inductionHypothesis]
      rfl

theorem outcome_namePhrase
    (first : String)
    (rest : List String)
    (noDot : (token.kind == .symbol && token.text == ".") = false)
    (tokens : List Token) :
    outcome (.call .qualifiedName) ((namePhrase first rest).tokens ++ token :: tokens) =
      some ([namePhrase first rest], token :: tokens) := by
  have rule_eq : Category.rule .qualifiedName =
      .node .qualifiedName (.seq (.name []) (.many selection)) := rfl
  have first_read : outcome (.name []) ((namePhrase first rest).tokens ++ token :: tokens) =
      some ([.leaf true ⟨" ", first, .word⟩], tokensOfAll (selections rest) ++ token :: tokens) :=
    outcome_anyName _ _ _
  rw [outcome_call (by decide), rule_eq, outcome_node (by decide),
    outcome_seq (by decide), first_read, Option.bind_some,
    outcome_selections rest noDot tokens]
  rfl

/-- The word `static` is read as a keyword where it stands. -/
theorem outcome_staticLeaf
    (isStatic : Bool)
    {first : String}
    (noKeyword : first ≠ "static")
    (rest : List String)
    (tokens : List Token) :
    outcome (optional (.word "static"))
        (tokensOfAll (staticLeaf isStatic) ++ ((namePhrase first rest).tokens ++ tokens)) =
      some (staticLeaf isStatic, (namePhrase first rest).tokens ++ tokens) := by
  have grounded : isGrounded Category.rule (.either (.word "static") .done) = true := by
    decide
  unfold Rule.optional
  rw [outcome_either grounded]
  cases isStatic with
  | true =>
      have found : outcome (.word "static")
          (tokensOfAll (staticLeaf true) ++ ((namePhrase first rest).tokens ++ tokens)) =
            some (staticLeaf true, (namePhrase first rest).tokens ++ tokens) := outcome_word _ _ _
      rw [found]
      rfl
  | false =>
      have notFound : outcome (.word "static")
          (tokensOfAll (staticLeaf false) ++ ((namePhrase first rest).tokens ++ tokens)) =
            none := by
        refine outcome_word_eq_none ?_ _
        simp [noKeyword]
      rw [notFound, outcome_done]
      rfl

/-- The end of an import that is not on demand. -/
theorem outcome_semicolon (tokens : List Token) :
    outcome (.seq (optional (.seq (.symbol ".") (.symbol "*"))) (.symbol ";"))
        (⟨"", ";", .symbol⟩ :: tokens) =
      some ([.leaf false ⟨"", ";", .symbol⟩], tokens) := by
  have notFound : outcome (.seq (.symbol ".") (.symbol "*")) (⟨"", ";", .symbol⟩ :: tokens) =
      none := by
    rw [outcome_seq (by decide), outcome_symbol_eq_none (by simp), Option.bind_none]
  unfold Rule.optional
  rw [outcome_seq (by decide), outcome_either (by decide), notFound, outcome_done,
    Option.none_or, Option.bind_some, outcome_symbol]
  rfl

theorem outcome_importDeclaration
    (isStatic : Bool)
    {first : String}
    (noKeyword : first ≠ "static")
    (rest : List String)
    (tokens : List Token) :
    outcome importDeclaration ((importPhrase "" isStatic first rest).tokens ++ tokens) =
      some ([importPhrase "" isStatic first rest], tokens) := by
  have tokens_eq : (importPhrase "" isStatic first rest).tokens ++ tokens =
      ⟨"", "import", .word⟩ :: (tokensOfAll (staticLeaf isStatic) ++
        ((namePhrase first rest).tokens ++ ⟨"", ";", .symbol⟩ :: tokens)) := by
    simp [importPhrase, Phrase.tokens, tokensOfAll, tokensOfAll_append]
  have rule_eq : importDeclaration = .node .importDeclaration
      (.seq (.word "import") (.seq (optional (.word "static")) (.seq (.call .qualifiedName)
        (.seq (optional (.seq (.symbol ".") (.symbol "*"))) (.symbol ";"))))) := rfl
  rw [tokens_eq, rule_eq, outcome_node (by decide), outcome_seq (by decide),
    outcome_word, Option.bind_some, outcome_seq (by decide),
    outcome_staticLeaf isStatic noKeyword, Option.bind_some, outcome_seq (by decide),
    outcome_namePhrase first rest rfl, Option.bind_some, outcome_semicolon]
  simp [importPhrase]

theorem filledAll_selections (rest : List String) : FilledAll (selections rest) := by
  induction rest with
  | nil => trivial
  | cons next rest inductionHypothesis => exact ⟨trivial, trivial, inductionHypothesis⟩

theorem filled_importPhrase (gap : String) (isStatic : Bool) (first : String) (rest : List String) :
    Filled (importPhrase gap isStatic first rest) := by
  have name : Filled (namePhrase first rest) :=
    ⟨List.cons_ne_nil _ _, trivial, filledAll_selections rest⟩
  refine ⟨List.cons_ne_nil _ _, trivial, filledAll_append.mpr ⟨?_, name, trivial, trivial⟩⟩
  cases isStatic with
  | true => exact ⟨trivial, trivial⟩
  | false => trivial

/-- The import of a dotted name is read as such, whatever stands before it and follows it. -/
theorem standsAlone_importPhrase
    (gap : String)
    (isStatic : Bool)
    {first : String}
    (noKeyword : first ≠ "static")
    (rest : List String) : StandsAlone (importPhrase gap isStatic first rest) := by
  have alone : StandsAlone (importPhrase "" isStatic first rest) := by
    intro tokens
    have fits : List.Forall₂ Sketch.Fits [.exact ⟨"", "import", .word⟩] [⟨"", "import", .word⟩] :=
      .cons rfl .nil
    have found := outcome_chosen fits callDepth isGrounded_topLevel
      ((importPhrase "" isStatic first rest).tokens.tail ++ tokens)
    rw [chosen_topLevel] at found
    exact found.trans (outcome_importDeclaration isStatic noKeyword rest tokens)
  exact alone.regap (filled_importPhrase "" isStatic first rest) gap

end Reading

/-! ## Cutting up its text -/

section Cutting

variable {first : String} {rest : List String} {before : List Embedding}

theorem exists_textBefore_selections (rest : List String) (back : List Char) :
    ∃ c more, textBefore back (tokensOfAll (selections rest) ++ [⟨"", ";", .symbol⟩]) = c :: more ∧
      (c = '.' ∨ c = ';') := by
  cases rest with
  | nil => exact ⟨';', back, rfl, .inr rfl⟩
  | cons next rest => exact ⟨'.', _, rfl, .inl rfl⟩

theorem standsApart_word
    {text gap : String}
    (spelled : isWord text = true)
    (rest : List String)
    (back : List Char) :
    (Token.mk gap text .word).standsApart
      (textBefore back (tokensOfAll (selections rest) ++ [⟨"", ";", .symbol⟩])) = true := by
  obtain ⟨c, more, text_eq, isMark⟩ := exists_textBefore_selections rest back
  refine Token.standsApart_word spelled ?_
  rw [text_eq, List.head?_cons, Option.any_some]
  rcases isMark with rfl | rfl <;> decide

theorem apart_selections
    (spelled : ∀ text ∈ rest, isWord text = true)
    (back : List Char) :
    Apart back (tokensOfAll (selections rest) ++ [⟨"", ";", .symbol⟩]) := by
  have noGap : IsGap "" := isGap_of_spaces rfl
  induction rest with
  | nil => exact ⟨noGap, Token.standsApart_lone rfl rfl back, trivial⟩
  | cons next rest inductionHypothesis =>
      rw [List.forall_mem_cons] at spelled
      refine ⟨noGap, ?_, noGap, standsApart_word spelled.1 rest back,
        inductionHypothesis spelled.2⟩
      obtain ⟨c, word, text_eq, starts, -⟩ := isWord_iff.mp spelled.1
      have noPoint : c ≠ '.' := by
        rintro rfl
        exact absurd starts (by decide)
      have begins : textBefore back (⟨"", next, .word⟩ :: (tokensOfAll (selections rest) ++
          [⟨"", ";", .symbol⟩])) = c :: (word ++ textBefore back (tokensOfAll (selections rest) ++
            [⟨"", ";", .symbol⟩])) := by
        change "".toList ++ (next.toList ++ textBefore back _) = _
        rw [text_eq]
        rfl
      change (Token.mk "" "." .symbol).standsApart (textBefore back (⟨"", next, .word⟩ ::
        (tokensOfAll (selections rest) ++ [⟨"", ";", .symbol⟩]))) = true
      rw [begins]
      have text_eq : (".".toList) = ['.'] := rfl
      simp [Token.standsApart, text_eq, briefSymbols, mayFollow, noPoint,
        isDigit_of_isNameStart starts]

theorem tokens_importPhrase (gap : String) (isStatic : Bool) (first : String) (rest : List String) :
    (importPhrase gap isStatic first rest).tokens =
      ⟨gap, "import", .word⟩ :: (tokensOfAll (staticLeaf isStatic) ++
        ⟨" ", first, .word⟩ :: (tokensOfAll (selections rest) ++ [⟨"", ";", .symbol⟩])) := by
  simp [importPhrase, namePhrase, Phrase.tokens, tokensOfAll, tokensOfAll_append]

/-- The words and symbols of an import stand apart, whatever follows the import. -/
theorem apart_importPhrase
    (gap : String)
    (isGap : IsGap gap)
    (isStatic : Bool)
    (spelled : ∀ text ∈ first :: rest, isWord text = true)
    (back : List Char) : Apart back (importPhrase gap isStatic first rest).tokens := by
  rw [List.forall_mem_cons] at spelled
  have isSpaceGap : IsGap " " := isGap_of_spaces rfl
  have name : Apart back (⟨" ", first, .word⟩ :: (tokensOfAll (selections rest) ++
      [⟨"", ";", .symbol⟩])) :=
    ⟨isSpaceGap, standsApart_word spelled.1 rest back, apart_selections spelled.2 back⟩
  have noSpace : isNameContinue ' ' = false := by decide
  have keyword {gap text : String} (isKeyword : isWord text = true) (others : List Token) :
      (Token.mk gap text .word).standsApart (textBefore back (⟨" ", first, .word⟩ :: others)) =
        true := by
    have begins : textBefore back (⟨" ", first, .word⟩ :: others) =
        ' ' :: (first.toList ++ textBefore back others) := by
      change " ".toList ++ (first.toList ++ textBefore back others) = _
      rfl
    rw [begins]
    exact Token.standsApart_word isKeyword noSpace
  rw [tokens_importPhrase]
  cases isStatic with
  | true =>
      exact ⟨isGap, Token.standsApart_word (by decide) noSpace, isSpaceGap,
        keyword (by decide) _, name⟩
  | false => exact ⟨isGap, keyword (by decide) _, name⟩

theorem isPlain_selections (rest : List String) :
    ∀ token ∈ tokensOfAll (selections rest), token.IsPlain := by
  induction rest with
  | nil =>
      intro token inside
      cases inside
  | cons next rest inductionHypothesis =>
      intro token inside
      rcases List.mem_cons.mp inside with rfl | inside
      · exact .inr ⟨rfl, by decide, by decide⟩
      · rcases List.mem_cons.mp inside with rfl | later
        · exact .inl rfl
        · exact inductionHypothesis token later

theorem isPlain_importPhrase (gap : String) (isStatic : Bool) (first : String)
    (rest : List String) :
    ∀ token ∈ (importPhrase gap isStatic first rest).tokens, token.IsPlain := by
  have static : ∀ token ∈ tokensOfAll (staticLeaf isStatic), token.IsPlain := by
    cases isStatic with
    | true => simp [staticLeaf, tokensOfAll, Phrase.tokens, Token.IsPlain]
    | false => simp [staticLeaf]
  have stop : Token.IsPlain ⟨"", ";", .symbol⟩ := .inr ⟨rfl, by decide, by decide⟩
  rw [tokens_importPhrase, List.forall_mem_cons, List.forall_mem_append, List.forall_mem_cons,
    List.forall_mem_append, List.forall_mem_singleton]
  exact ⟨.inl rfl, static, .inl rfl, isPlain_selections rest, stop⟩

/-- The import of a dotted name is cut off whatever stands before it and follows it. -/
theorem opens_importPhrase
    (gap : String)
    (isStatic : Bool)
    (spelled : ∀ text ∈ first :: rest, isWord text = true) :
    Opens before before (importPhrase gap isStatic first rest).tokens :=
  opens_of_apart (fun other back isGap => apart_importPhrase other isGap isStatic spelled back)
    (isPlain_importPhrase gap isStatic first rest)

end Cutting

/-! ## What it imports -/

theorem isBlank_of_isNameContinue {c : Char} (continues : isNameContinue c = true) :
    isBlank c = false := by
  have disjoint : blankCodes.all (fun code => !isNameContinue (Char.ofNat code)) = true := by
    simp only [isNameContinue, isNameStart, inRanges, ← Array.any_toList]
    decide +kernel
  exact isBlank_eq_false disjoint continues

theorem append_sourceOf_selections (first : String) (rest : List String) :
    first ++ sourceOf (tokensOfAll (selections rest)) = ".".intercalate (first :: rest) := by
  induction rest generalizing first with
  | nil => exact String.append_empty
  | cons next rest inductionHypothesis =>
      rw [String.intercalate_cons_cons, ← inductionHypothesis next]
      simp [selections, tokensOfAll, Phrase.tokens, String.append_assoc]

theorem text_namePhrase (first : String) (rest : List String) :
    (namePhrase first rest).text = ".".intercalate (first :: rest) :=
  append_sourceOf_selections first rest

theorem isBlank_of_mem_dotted
    {words : List String}
    (spelled : ∀ text ∈ words, isWord text = true) :
    ∀ c ∈ (".".intercalate words).toList, isBlank c = false := by
  have inWord {text : String} (isSpelled : isWord text = true) :
      ∀ c ∈ text.toList, isBlank c = false := fun c inside =>
    isBlank_of_isNameContinue (List.all_eq_true.mp (isNamePart_of_isWord isSpelled) c inside)
  induction words with
  | nil => simp
  | cons first rest inductionHypothesis =>
      rw [List.forall_mem_cons] at spelled
      cases rest with
      | nil =>
          rw [String.intercalate_singleton]
          exact inWord spelled.1
      | cons next rest =>
          have noBlank : ∀ c ∈ ['.'], isBlank c = false := List.forall_mem_singleton.mpr rfl
          rw [String.intercalate_cons_cons, String.toList_append, String.toList_append,
            List.forall_mem_append, List.forall_mem_append]
          exact ⟨⟨inWord spelled.1, noBlank⟩, inductionHypothesis spelled.2⟩

/-- A dotted name has no blanks. -/
theorem deleteBlanks_dotted
    {words : List String}
    (spelled : ∀ text ∈ words, isWord text = true) :
    deleteBlanks (".".intercalate words) = ".".intercalate words := by
  have unchanged : (".".intercalate words).toList.filter (fun c => !isBlank c) =
      (".".intercalate words).toList :=
    List.filter_eq_self.mpr fun c inside => by rw [isBlank_of_mem_dotted spelled c inside]; rfl
  rw [deleteBlanks, unchanged, String.ofList_toList]

theorem text_importPhrase (gap : String) (isStatic : Bool) (first : String) (rest : List String) :
    (importPhrase gap isStatic first rest).text =
      "import " ++ Happening.staticWord isStatic ++ ".".intercalate (first :: rest) ++ ";" := by
  rw [Phrase.text, tokens_importPhrase, ← append_sourceOf_selections, textOf, sourceOf_append,
    sourceOf_cons, sourceOf_append]
  cases isStatic <;>
    simp [staticLeaf, tokensOfAll, Phrase.tokens, Happening.staticWord, ← String.append_assoc]

/-- The import that the phrase of a dotted name declares. -/
theorem ofTopLevel_importPhrase
    {first : String}
    {rest : List String}
    (gap : String)
    (isStatic : Bool)
    (spelled : ∀ text ∈ first :: rest, isWord text = true) :
    Member.ofTopLevel (importPhrase gap isStatic first rest) =
      .importDecl (.declare 0 (".".intercalate (first :: rest)) isStatic gap) := by
  have text_eq := text_importPhrase gap isStatic first rest
  have name_eq : nameText (namePhrase first rest) = ".".intercalate (first :: rest) := by
    rw [nameText, text_namePhrase, deleteBlanks_dotted spelled]
  have leaf_text (isName : Bool) (token : Token) : (Phrase.leaf isName token).text = token.text :=
    String.append_empty
  have leaf_label (isName : Bool) (token : Token) : (Phrase.leaf isName token).label? = none := rfl
  have name_label : (namePhrase first rest).label? = some .qualifiedName := rfl
  have gap_eq : (importPhrase gap isStatic first rest).gap = gap := rfl
  unfold importPhrase at text_eq gap_eq
  unfold importPhrase Member.ofTopLevel Import.ofPhrase? Import.declare
  dsimp only
  rw [text_eq, gap_eq]
  cases isStatic <;>
    simp [staticLeaf, Phrase.isA, leaf_label, leaf_text, name_label, name_eq]

end JupiterMigration.Java
