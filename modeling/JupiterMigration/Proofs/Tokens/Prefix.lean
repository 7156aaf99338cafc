import JupiterMigration.Proofs.Grammar.Enclosure
import JupiterMigration.Proofs.Grammar.FirstGap
import JupiterMigration.Proofs.Tokens.Locality

/-!
# Tokens at the beginning of a text

Tokens up to a semicolon are cut off from the beginning of a text whatever follows them, and
whatever gap stands before them (`Opens`).  What is open for embedded expressions then is as before,
if the tokens are words and symbols only (`exists_opens_of_scanFrom`).
-/

namespace JupiterMigration.Java

open Text

variable {embeddings before after : List Embedding} {tokens : List Token} {gap other : String}

/-! ## Gaps before a token -/

/-- What is cut off, with another gap before the first token. -/
def regapScan (gap : String) (scanned : List Token × String) : List Token × String :=
  (regapTokens gap scanned.1, scanned.2)

/-- Where there is another gap, the same tokens are cut off behind it. -/
theorem scanFrom_regap
    (embeddings : List Embedding)
    {c : Char}
    (isGap : IsGap gap)
    (isOther : IsGap other)
    (noSpace : isSpace c = false)
    (noComment : c ≠ '/')
    (more : List Char) :
    scanFrom embeddings (other.toList ++ c :: more) =
      (scanFrom embeddings (gap.toList ++ c :: more)).map (regapScan other) := by
  rw [scanFrom, scanFrom, isGap c more noSpace noComment, isOther c more noSpace noComment]
  dsimp only
  rw [List.drop_left, List.drop_left, dif_neg (List.cons_ne_nil _ _),
    dif_neg (List.cons_ne_nil _ _)]
  cases lexeme embeddings (c :: more) with
  | none => rfl
  | some found =>
      dsimp only
      by_cases nonempty : 0 < found.length
      · rw [dif_pos nonempty, dif_pos nonempty, List.take_left, List.take_left,
          String.ofList_toList, String.ofList_toList]
        cases scanFrom found.opened ((c :: more).drop found.length) <;> rfl
      · rw [dif_neg nonempty, dif_neg nonempty]
        rfl

/-! ## Words and plain symbols -/

/-- A word, or a symbol that is no brace. -/
def Token.IsPlain (token : Token) : Prop :=
  token.kind = .word ∨ token.kind = .symbol ∧ token.text ≠ "\x7b" ∧ token.text ≠ "\x7d"

theorem countBrace_of_isPlain
    {c : Char}
    {rest : List Char}
    {gap : String}
    (plain : Token.IsPlain
      ⟨gap, String.ofList ((c :: rest).take (symbolLength (c :: rest))), .symbol⟩) :
    countBrace c embeddings = embeddings := by
  obtain isWord | ⟨-, noOpening, noClosing⟩ := plain
  · cases isWord
  · refine countBrace_of_ne ?_ ?_ embeddings
    · rintro rfl
      exact noOpening rfl
    · rintro rfl
      exact noClosing rfl

/-- Words and plain symbols leave open what is open. -/
theorem opened_of_isPlain
    {text : List Char}
    {found : Lexeme}
    (gap : String)
    (found_eq : lexeme embeddings text = some found)
    (plain : Token.IsPlain ⟨gap, String.ofList (text.take found.length), found.kind⟩) :
    found.opened = embeddings := by
  have kind_eq : found.kind = .word ∨ found.kind = .symbol := plain.imp_right And.left
  have noString {opening : Nat} {block : Bool} {whole embedded : TokenKind}
      {outer : List Embedding} {rest : List Char}
      (isString : stringLexeme opening block whole embedded outer rest = some found)
      (noWhole : whole ≠ .word ∧ whole ≠ .symbol)
      (noEmbedded : embedded ≠ .word ∧ embedded ≠ .symbol) : found.opened = embeddings := by
    rcases kind_of_stringLexeme isString with same | same <;> rw [same] at kind_eq
    · exact absurd kind_eq (not_or.mpr noWhole)
    · exact absurd kind_eq (not_or.mpr noEmbedded)
  unfold lexeme at found_eq
  split at found_eq
  · cases found_eq
  · exact noString found_eq (by simp) (by simp)
  · exact noString found_eq (by simp) (by simp)
  · dsimp only at found_eq
    split at found_eq
    · cases found_eq
    · cases found_eq
      rfl
  · split at found_eq
    · exact noString found_eq (by simp) (by simp)
    · next c rest _ _ =>
      split at found_eq
      · cases found_eq
        rfl
      · dsimp only at found_eq
        split at found_eq
        · cases found_eq
          rfl
        · cases found_eq
          exact countBrace_of_isPlain plain

/-! ## Tokens up to a semicolon -/

/-- What stands up to a semicolon ends with it. -/
theorem exists_sourceOf_eq
    {stop : Token}
    (isEnd : Rule.IsEnd stop)
    (front : List Token) :
    ∃ inner, (sourceOf (front ++ [stop])).toList = inner ++ [';'] := by
  refine ⟨(sourceOf front ++ stop.gap).toList, ?_⟩
  rw [sourceOf_append, sourceOf_cons, isEnd.2, sourceOf_nil]
  simp

/-- A token before a semicolon is cut off in the same way whatever follows the semicolon. -/
theorem scanFrom_append
    {opened : List Embedding}
    {gap text : String}
    {inner back : List Char}
    {kind : TokenKind}
    (gap_eq : gapLength .outside (gap.toList ++ (text.toList ++ (inner ++ ';' :: back))) =
      some gap.toList.length)
    (found_eq : lexeme before (text.toList ++ (inner ++ ';' :: back)) =
      some ⟨kind, text.toList.length, opened⟩)
    (nonempty : text.toList ≠ [])
    (other : List Char) :
    scanFrom before (gap.toList ++ (text.toList ++ (inner ++ ';' :: other))) =
      (scanFrom opened (inner ++ ';' :: other)).map (precede [⟨gap, text, kind⟩]) := by
  have none := gapLength_drop gap_eq
  rw [List.drop_left, ← List.append_assoc] at none
  have gapAgain := gapLength_take gap_eq (by simp)
    (gapLength_eq_zero_append none (by simp [nonempty]) other)
  rw [List.take_left] at gapAgain
  rw [← List.append_assoc] at found_eq
  have foundAgain := lexeme_append found_eq (List.length_pos_iff.mpr nonempty) (by simp)
    (by decide) (by decide : isStop ';' = true) other
  simp only [List.append_assoc] at gapAgain foundAgain
  exact scanFrom_cons gapAgain foundAgain nonempty

/-- Tokens up to a semicolon are cut off whatever follows them. -/
theorem exists_scanFrom_append
    {text : List Char}
    {front more : List Token}
    {stop : Token}
    {tail : String}
    (isEnd : Rule.IsEnd stop)
    (scanned : scanFrom before text = some (front ++ stop :: more, tail)) :
    ∃ after rest, scanFrom after rest = some (more, tail) ∧
      text = (sourceOf (front ++ [stop])).toList ++ rest ∧
      ((∀ token ∈ front, token.IsPlain) → after = before) ∧
      ∀ other, scanFrom before ((sourceOf (front ++ [stop])).toList ++ other) =
        (scanFrom after other).map (precede (front ++ [stop])) := by
  induction front generalizing before text with
  | nil =>
      obtain ⟨gap, found, gap_eq, found_eq, -, rfl, scannedMore⟩ := exists_of_scanFrom_cons scanned
      obtain ⟨rest, rest_eq⟩ : ∃ rest, text.drop gap = ';' :: rest := by
        have spelled := congrArg String.toList isEnd.2
        rw [String.toList_ofList] at spelled
        rcases text_eq : text.drop gap with _ | ⟨c, rest⟩
        · rw [text_eq] at spelled
          simp at spelled
        · rw [text_eq] at spelled
          rcases length_eq : found.length with _ | length <;> rw [length_eq] at spelled <;>
            simp at spelled
          exact ⟨rest, by rw [spelled.1]⟩
      rw [rest_eq, lexeme_of_semicolon] at found_eq
      cases found_eq
      have text_eq : text = text.take gap ++ ';' :: rest := by
        rw [← rest_eq, List.take_append_drop]
      have isGap : IsGap (String.ofList (text.take gap)) := isGap_of_scanFrom scanned
      rw [rest_eq] at scannedMore ⊢
      refine ⟨before, rest, scannedMore, ?_, fun _ => rfl, fun other => ?_⟩
      · rw [List.nil_append, sourceOf_cons, sourceOf_nil]
        simpa using text_eq
      · have source_eq : (sourceOf ([] ++ [(⟨String.ofList (text.take gap),
            String.ofList ((';' :: rest).take 1), .symbol⟩ : Token)])).toList ++ other =
            (String.ofList (text.take gap)).toList ++ ((";" : String).toList ++ other) := by
          simp
        rw [source_eq]
        exact scanFrom_cons (isGap ';' other (by decide) (by decide))
          (lexeme_of_semicolon before other) (by decide)
  | cons first front inductionHypothesis =>
      obtain ⟨spaces, word, remaining, ⟨kind, _, opened⟩, rfl, rfl, nonempty, gap_eq, found_eq,
        rfl, scannedOthers⟩ := exists_split_of_scanFrom scanned
      obtain ⟨after, rest, scannedMore, rfl, plainAfter, scan_eq⟩ :=
        inductionHypothesis scannedOthers
      obtain ⟨inner, inner_eq⟩ := exists_sourceOf_eq isEnd front
      rw [inner_eq, List.append_assoc, List.singleton_append] at gap_eq found_eq
      have plainOpened := opened_of_isPlain (String.ofList spaces) found_eq
      rw [List.take_left] at plainOpened
      refine ⟨after, rest, scannedMore, ?_, fun plain => ?_, fun other => ?_⟩
      · rw [List.cons_append, sourceOf_cons]
        simp [inner_eq]
      · rw [plainAfter fun token inside => plain token (List.mem_cons_of_mem _ inside)]
        exact plainOpened (plain _ List.mem_cons_self)
      · have source_eq : (sourceOf (⟨String.ofList spaces, String.ofList word, kind⟩ :: front ++
            [stop])).toList ++ other = (String.ofList spaces).toList ++
              ((String.ofList word).toList ++ (inner ++ ';' :: other)) := by
          rw [List.cons_append, sourceOf_cons]
          simp [inner_eq]
        have later := scan_eq other
        rw [inner_eq, List.append_assoc, List.singleton_append] at later
        rw [source_eq, scanFrom_append (by simpa using gap_eq) (by simpa using found_eq)
          (by simpa using nonempty), later, Option.map_map]
        rfl

/-! ## Any gap before the tokens -/

@[simp]
theorem regapTokens_regapTokens (gap other : String) (tokens : List Token) :
    regapTokens gap (regapTokens other tokens) = regapTokens gap tokens := by
  cases tokens <;> rfl

/-- Tokens are cut off in the same way when there is another gap before the first one. -/
theorem scanFrom_regapTokens
    {first : Token}
    {rest : List Token}
    (isGap : IsGap first.gap)
    (isOther : IsGap other)
    (ends : endsGap first.text = true)
    (more : List Char) :
    scanFrom embeddings ((sourceOf (regapTokens other (first :: rest))).toList ++ more) =
      (scanFrom embeddings ((sourceOf (first :: rest)).toList ++ more)).map (regapScan other) := by
  obtain ⟨c, word, text_eq, noSpace, noComment⟩ := endsGap_iff.mp ends
  have scanned := scanFrom_regap embeddings isGap isOther noSpace noComment
    (word ++ ((sourceOf rest).toList ++ more))
  simpa [regapTokens, text_eq] using scanned

/-- Cutting a text gives some tokens first, whatever gap stands before them and what follows. -/
def Opens (before after : List Embedding) (tokens : List Token) : Prop :=
  ∀ gap rest, IsGap gap →
    scanFrom before ((sourceOf (regapTokens gap tokens)).toList ++ rest) =
      (scanFrom after rest).map (precede (regapTokens gap tokens))

theorem Opens.regap (opens : Opens before after tokens) (gap : String) :
    Opens before after (regapTokens gap tokens) := by
  intro other rest isGap
  rw [regapTokens_regapTokens]
  exact opens other rest isGap

/--
Tokens up to a semicolon open the text that they are cut off from.  Words and plain symbols leave
open what is open.
-/
theorem exists_opens_of_scanFrom
    {text : List Char}
    {front more : List Token}
    {stop : Token}
    {tail : String}
    (isEnd : Rule.IsEnd stop)
    (ends : ∀ first ∈ (front ++ [stop]).head?, endsGap first.text = true)
    (scanned : scanFrom before text = some (front ++ stop :: more, tail)) :
    ∃ after rest, scanFrom after rest = some (more, tail) ∧ Opens before after (front ++ [stop]) ∧
      ((∀ token ∈ front, token.IsPlain) → after = before) := by
  obtain ⟨after, rest, scannedMore, -, plainAfter, scan_eq⟩ := exists_scanFrom_append isEnd scanned
  refine ⟨after, rest, scannedMore, fun gap other isGap => ?_, plainAfter⟩
  obtain ⟨first, others, tokens_eq⟩ : ∃ first others, front ++ [stop] = first :: others := by
    cases front <;> exact ⟨_, _, rfl⟩
  have isOld : IsGap first.gap := by
    have regrouped : front ++ stop :: more = [] ++ first :: (others ++ more) := by
      rw [List.nil_append, ← List.cons_append, ← tokens_eq, List.append_assoc]
      rfl
    rw [regrouped] at scanned
    exact isGap_of_scanFrom scanned
  rw [tokens_eq] at ends scan_eq ⊢
  rw [scanFrom_regapTokens isOld isGap (ends first rfl), scan_eq, Option.map_map]
  rfl

/-- A plain token that stands apart begins with no quote and no brace. -/
theorem start_of_isPlain
    {token : Token}
    {rest word : List Char}
    {c : Char}
    (apart : token.standsApart rest = true)
    (plain : token.IsPlain)
    (text_eq : token.text.toList = c :: word) : c ∉ ['"', '\'', '\x7b', '\x7d'] := by
  unfold Token.standsApart at apart
  split at apart
  · rw [Bool.and_eq_true] at apart
    obtain ⟨d, _, same, starts, -⟩ := isWord_iff.mp apart.1
    obtain ⟨rfl, -⟩ := List.cons.inj (text_eq.symm.trans same)
    have noStart : ∀ d ∈ ['"', '\'', '\x7b', '\x7d'], isNameStart d = false := by
      simp only [List.forall_mem_cons, List.not_mem_nil, false_implies, implies_true, and_true]
      exact ⟨rfl, rfl, rfl, rfl⟩
    intro inside
    rw [noStart _ inside] at starts
    cases starts
  · next symbol isKind same =>
      rw [Bool.and_eq_true, List.contains_iff_mem] at apart
      obtain ⟨rfl, -⟩ := List.cons.inj (text_eq.symm.trans same)
      obtain isWord | ⟨-, noOpening, noClosing⟩ := plain
      · rw [isKind] at isWord
        cases isWord
      · have spelled : token.text = String.ofList [c] := by
          rw [← same, String.ofList_toList]
        intro inside
        simp only [List.mem_cons, List.not_mem_nil, or_false] at inside
        rcases inside with rfl | rfl | rfl | rfl
        · exact absurd apart.1 (by decide)
        · exact absurd apart.1 (by decide)
        · exact noOpening spelled
        · exact noClosing spelled
  · cases apart

/-- A plain token that stands apart is cut off wherever it stands. -/
theorem lexeme_of_isPlain
    {token : Token}
    {rest : List Char}
    (apart : token.standsApart rest = true)
    (plain : token.IsPlain)
    (embeddings : List Embedding) :
    lexeme embeddings (token.text.toList ++ rest) =
      some ⟨token.kind, token.text.toList.length, embeddings⟩ := by
  obtain ⟨found_eq, c, word, text_eq, -, -⟩ := lexeme_of_standsApart apart
  have starts := start_of_isPlain apart plain text_eq
  simp only [List.mem_cons, List.not_mem_nil, or_false, not_or] at starts
  obtain ⟨noString, noCharacter, noOpening, noClosing⟩ := starts
  have noEnd (embeddings : List Embedding) (block : Bool) (outer : List Embedding)
      (brace : c = '\x7d') : embeddings ≠ ⟨block, 0⟩ :: outer := absurd brace noClosing
  rw [text_eq, List.cons_append] at found_eq ⊢
  rw [lexeme_of_other noString noCharacter (noEnd [])] at found_eq
  rw [lexeme_of_other noString noCharacter (noEnd embeddings)]
  rw [countBrace_of_ne noOpening noClosing] at found_eq ⊢
  have reopens {kind : TokenKind} {length : Nat}
      (same : some (⟨kind, length, []⟩ : Lexeme) =
        some ⟨token.kind, (c :: word).length, []⟩) :
      some (⟨kind, length, embeddings⟩ : Lexeme) =
        some ⟨token.kind, (c :: word).length, embeddings⟩ := by
    obtain ⟨rfl, rfl, -⟩ := Lexeme.mk.inj (Option.some.inj same)
    rfl
  split at found_eq
  · next starts =>
      rw [if_pos starts]
      exact reopens found_eq
  · next noStart =>
      rw [if_neg noStart]
      split at found_eq
      · next number =>
          rw [if_pos number]
          exact reopens found_eq
      · next noNumber =>
          rw [if_neg noNumber]
          exact reopens found_eq

/-- Tokens that all stand apart from what follows them are cut off, if they are plain. -/
theorem scanFrom_of_apart
    {rest : List Char}
    (apart : Apart rest tokens)
    (plain : ∀ token ∈ tokens, token.IsPlain) :
    scanFrom before ((sourceOf tokens).toList ++ rest) =
      (scanFrom before rest).map (precede tokens) := by
  induction tokens with
  | nil =>
      rw [sourceOf_nil, String.toList_empty, List.nil_append]
      cases scanFrom before rest <;> rfl
  | cons first others inductionHypothesis =>
      obtain ⟨isGap, stands, apartOthers⟩ := apart
      have later := inductionHypothesis apartOthers
        fun token inside => plain token (List.mem_cons_of_mem _ inside)
      obtain ⟨-, c, word, text_eq, noSpace, noComment⟩ := lexeme_of_standsApart stands
      have found_eq := lexeme_of_isPlain stands (plain first List.mem_cons_self) before
      rw [textBefore_eq] at found_eq
      have gap_eq := isGap c (word ++ ((sourceOf others).toList ++ rest)) noSpace noComment
      rw [← List.cons_append, ← text_eq] at gap_eq
      have source_eq : (sourceOf (first :: others)).toList ++ rest =
          first.gap.toList ++ (first.text.toList ++ ((sourceOf others).toList ++ rest)) := by
        simp
      rw [source_eq, scanFrom_cons gap_eq found_eq (by simp [text_eq]), later, Option.map_map]
      rfl

/--
Plain tokens that stand apart whatever follows them open any text and leave open what is open.
-/
theorem opens_of_apart
    (apart : ∀ gap rest, IsGap gap → Apart rest (regapTokens gap tokens))
    (plain : ∀ token ∈ tokens, token.IsPlain) : Opens before before tokens := by
  intro gap rest isGap
  refine scanFrom_of_apart (apart gap rest isGap) fun token inside => ?_
  cases tokens with
  | nil => cases inside
  | cons first others =>
      cases inside with
      | head => exact plain first List.mem_cons_self
      | tail _ later => exact plain token (List.mem_cons_of_mem _ later)

/-- Cutting gives some tokens and the gap at the end, whatever gap stands before the tokens. -/
def Closes (before : List Embedding) (tokens : List Token) (tail : String) : Prop :=
  ∀ gap, IsGap gap →
    scanFrom before ((sourceOf (regapTokens gap tokens)).toList ++ tail.toList) =
      some (regapTokens gap tokens, tail)

theorem Closes.regap {tail : String} (closes : Closes before tokens tail) (gap : String) :
    Closes before (regapTokens gap tokens) tail := by
  intro other isGap
  rw [regapTokens_regapTokens]
  exact closes other isGap

theorem closes_of_scanFrom
    {text : List Char}
    {tail : String}
    (ends : ∀ first ∈ tokens.head?, endsGap first.text = true)
    (scanned : scanFrom before text = some (tokens, tail)) : Closes before tokens tail := by
  have lossless := congrArg String.toList (scanFrom_lossless scanned)
  rw [String.toList_append, String.toList_ofList] at lossless
  intro gap isGap
  cases tokens with
  | nil =>
      change scanFrom before ((sourceOf []).toList ++ tail.toList) = some ([], tail)
      rw [lossless, scanned]
  | cons first rest =>
      have begins : scanFrom before text = some ([] ++ first :: rest, tail) := scanned
      have isOld : IsGap first.gap := isGap_of_scanFrom begins
      rw [scanFrom_regapTokens isOld isGap (ends first rfl), lossless, scanned]
      rfl

end JupiterMigration.Java
