import JupiterMigration.Proofs.Tokens.Moved.Ends
import JupiterMigration.Proofs.Tokens.Nesting

/-!
# Lexemes in texts with the same lines

The lexeme that a text begins with is cut off alike from every text with the same lines: it is of
the same kind, nests in the same way, and is followed by the same lines
(`lexemeAlike_of_sameLines`).
-/

namespace JupiterMigration.Java

open Text Layout

variable
  {block : Bool}
  {front front' back other : List Char}
  {embeddings before after base base' : List Embedding}
  {stack stack' : List Bracket}
  {found : Lexeme}
  {c : Char}
  {rest : List Char}

/-! ## Words, numbers and symbols -/

/-- A semicolon and a brace are lexemes, whatever follows. -/
theorem plainLexeme_of_closes
    (closes : c = ';' ∨ c = '\x7d')
    (rest : List Char) : plainLexeme embeddings c rest = ⟨.symbol, 1, countBrace c embeddings⟩ := by
  have noNumber : (Numeral.measure (c :: rest)).2 = 0 := by
    rcases closes with rfl | rfl <;>
      exact Numeral.measure_eq_zero (by decide) fun point => absurd point (by decide)
  have noStart : isNameStart c = false := by rcases closes with rfl | rfl <;> decide
  have single : symbolLength (c :: rest) = 1 := by rcases closes with rfl | rfl <;> rfl
  rw [plainLexeme, if_neg (by simp [noStart]), if_neg (by omega), single]

/-- What is cut off does not depend on what is open. -/
theorem plainLexeme_eq (embeddings other : List Embedding) (c : Char) (rest : List Char) :
    (plainLexeme other c rest).kind = (plainLexeme embeddings c rest).kind ∧
      (plainLexeme other c rest).length = (plainLexeme embeddings c rest).length := by
  unfold plainLexeme
  split
  · exact ⟨rfl, rfl⟩
  · split <;> exact ⟨rfl, rfl⟩

/-- Braces are counted alike. -/
theorem openAlike_countBrace
    {gap : String}
    (alike : OpenAlike base base' stack before after)
    (positive : 0 < symbolLength (c :: rest))
    (nests : Token.nest stack ⟨gap, String.ofList ((c :: rest).take (symbolLength (c :: rest))),
      .symbol⟩ = some stack') :
    OpenAlike base base' stack' (countBrace c before) (countBrace c after) := by
  obtain ⟨length, length_eq⟩ := Nat.exists_eq_add_of_lt positive
  rw [Nat.zero_add] at length_eq
  rw [length_eq, List.take_succ_cons] at nests
  unfold Token.nest at nests
  dsimp only at nests
  split at nests
  · next opens =>
      cases nests
      obtain ⟨rfl, -⟩ := List.cons.inj (String.ofList_inj.mp opens)
      exact alike.brace
  · next noOpening =>
      split at nests
      · next closes =>
          obtain ⟨rfl, -⟩ := List.cons.inj (String.ofList_inj.mp closes)
          obtain rfl := Bracket.close_eq_some_iff.mp nests
          cases alike with
          | brace alike =>
              rw [countBrace_closing, countBrace_closing]
              exact alike
      · next noClosing =>
          cases nests
          have alone (isBrace : c = '\x7b' ∨ c = '\x7d') : rest.take length = [] := by
            have single : symbolLength (c :: rest) = 1 := by rcases isBrace with rfl | rfl <;> rfl
            obtain rfl : length = 0 := by omega
            rfl
          have isNoOpening : c ≠ '\x7b' := by
            rintro rfl
            exact noOpening (by rw [alone (.inl rfl)])
          have isNoClosing : c ≠ '\x7d' := by
            rintro rfl
            exact noClosing (by rw [alone (.inr rfl)])
          rw [countBrace_of_ne isNoOpening isNoClosing, countBrace_of_ne isNoOpening isNoClosing]
          exact alike

/-- What is open remains alike behind a word, a number or a symbol. -/
theorem openAlike_plainLexeme
    {gap : String}
    (alike : OpenAlike base base' stack before after)
    (positive : 0 < (plainLexeme before c rest).length)
    (nests : Token.nest stack ⟨gap,
      String.ofList ((c :: rest).take (plainLexeme before c rest).length),
      (plainLexeme before c rest).kind⟩ = some stack') :
    OpenAlike base base' stack' (plainLexeme before c rest).opened
      (plainLexeme after c rest).opened := by
  unfold plainLexeme at positive nests ⊢
  split at nests
  · next starts =>
      cases nests
      rw [if_pos starts, if_pos starts]
      exact alike
  · next noStart =>
    rw [if_neg noStart] at positive
    rw [if_neg noStart, if_neg noStart]
    split at nests
    · next isNumber =>
        have same : some stack = some stack' := by
          rw [← nests]
          rcases Numeral.kind_measure (c :: rest) with ⟨radix, kind_eq⟩ | kind_eq <;>
            simp [Token.nest, kind_eq]
        cases same
        rw [if_pos isNumber, if_pos isNumber]
        exact alike
    · next noNumber =>
        rw [if_neg noNumber] at positive
        rw [if_neg noNumber, if_neg noNumber]
        exact openAlike_countBrace alike positive nests

/-! ## Lexemes -/

/--
What is cut off another text as well: a lexeme that nests as the one of the text does, and is
followed by the same lines.
-/
def LexemeAlike
    (base base' : List Embedding)
    (stack stack' : List Bracket)
    (after : List Embedding)
    (front front' other : List Char)
    (found : Lexeme) : Prop :=
  ∃ found', lexeme after (front' ++ other) = some found' ∧ 0 < found'.length ∧
    CutAlike front front' found.length found'.length ∧
    (∀ gap, Token.nest stack ⟨gap, String.ofList (front'.take found'.length), found'.kind⟩ =
      some stack') ∧
    OpenAlike base base' stack' found.opened found'.opened

/-- Strings go on alike behind the characters that they go on from. -/
theorem lexemeAlike_of_stringLexeme
    (part : List Char)
    {gap text : String}
    {whole embedded : TokenKind}
    {outer outer' : List Embedding}
    (found_eq : stringLexeme part.length block whole embedded outer (front ++ back) = some found)
    (inside : found.length ≤ part.length + front.length)
    (lines : SameLines front front')
    (cut : lexeme after (part ++ (front' ++ other)) =
      stringLexeme part.length block whole embedded outer' (front' ++ other))
    (noSymbol : whole ≠ .symbol ∧ embedded ≠ .symbol)
    (nests : Token.nest stack ⟨gap, text, found.kind⟩ = some stack')
    (opens : Token.nest stack ⟨gap, text, whole⟩ = some stack' →
      OpenAlike base base' stack' outer outer')
    (opensEmbedded : Token.nest stack ⟨gap, text, embedded⟩ = some stack' →
      OpenAlike base base' stack' (⟨block, 0⟩ :: outer) (⟨block, 0⟩ :: outer')) :
    LexemeAlike base base' stack stack' after (part ++ front) (part ++ front') other found := by
  rw [LexemeAlike, List.append_assoc, cut]
  unfold stringLexeme at found_eq
  split at found_eq
  · next length ending_eq =>
      cases found_eq
      obtain ⟨length', ending_eq', cutAlike⟩ := stringAlike_of_sameLines other ending_eq rfl
        (Nat.le_of_add_le_add_left inside) lines.behind
      have positive : 0 < length' := (length_of_stringEnd ending_eq').1
      refine ⟨⟨whole, part.length + length', outer'⟩, ?_, Nat.add_pos_right _ positive,
        cutAlike.after part part, fun gap => ?_, opens nests⟩
      · rw [stringLexeme, ending_eq']
        rfl
      · rw [← nests]
        exact Token.nest_congr noSymbol.1 ..
  · next length ending_eq =>
      cases found_eq
      obtain ⟨length', ending_eq', cutAlike⟩ := stringAlike_of_sameLines other ending_eq rfl
        (Nat.le_of_add_le_add_left inside) lines.behind
      have positive : 0 < length' := (length_of_stringEnd ending_eq').1
      refine ⟨⟨embedded, part.length + length', ⟨block, 0⟩ :: outer'⟩, ?_,
        Nat.add_pos_right _ positive, cutAlike.after part part, fun gap => ?_,
        opensEmbedded nests⟩
      · rw [stringLexeme, ending_eq']
        rfl
      · rw [← nests]
        exact Token.nest_congr noSymbol.2 ..
  · cases found_eq

/-- Texts are the same up to a stop, and the lexeme they begin with does not go on behind it. -/
theorem exists_plainLexeme_eq
    {more more' : List Char}
    (ends : EndsAlike (c :: more) back other)
    (lines : SameLines more more') :
    ∃ word rest rest', more = word ++ rest ∧ more' = word ++ rest' ∧ SameLines rest rest' ∧
      ∀ embeddings,
        plainLexeme embeddings c (more ++ back) = plainLexeme embeddings c word ∧
          plainLexeme embeddings c (more' ++ other) = plainLexeme embeddings c word := by
  have unstopped : ∀ d ∈ more.takeWhile (!isStop ·), isStop d = false := fun d inside => by
    simpa using List.all_eq_true.mp List.all_takeWhile d inside
  have first (d : Char) (isFirst : d ∈ (more.dropWhile (!isStop ·)).head?) : isStop d = true := by
    have stops := List.head?_dropWhile_not (!isStop ·) more
    rw [isFirst] at stops
    simpa using stops
  have more_eq := (List.takeWhile_append_dropWhile (p := (!isStop ·)) (l := more)).symm
  generalize more.takeWhile (!isStop ·) = word at *
  generalize more.dropWhile (!isStop ·) = rest at *
  subst more_eq
  have oneLine : '\n' ∉ word := fun inside => absurd (unstopped '\n' inside) (by decide)
  obtain ⟨rest', rfl, later⟩ := lines.exists_of_oneLine oneLine
  refine ⟨word, rest, rest', rfl, rfl, later, fun embeddings => ?_⟩
  rw [List.append_assoc, List.append_assoc]
  cases rest with
  | cons d rest =>
      have stops := first d rfl
      obtain ⟨_, rfl, -⟩ := later.exists_behind_of_cons
      exact ⟨plainLexeme_append stops _ _ _, plainLexeme_append stops _ _ _⟩
  | nil =>
      obtain rfl := later.eq_nil
      rcases ends with ⟨d, isLast, closes⟩ | ⟨d, _, e, _, rfl, rfl, stops, stops', -⟩
      · rcases List.eq_nil_or_concat word with rfl | ⟨inner, last, rfl⟩
        · obtain rfl : c = d := Option.some.inj isLast
          simp only [plainLexeme_of_closes closes, and_self]
        · have isSame : last = d := by simpa [List.getLast?_cons] using isLast
          have noStop := unstopped last (by simp)
          rcases closes with rfl | rfl <;> subst isSame <;> exact absurd noStop (by decide)
      · exact ⟨plainLexeme_append stops _ _ _, plainLexeme_append stops' _ _ _⟩

/-- Words, numbers and symbols are cut off alike. -/
theorem lexemeAlike_of_plain
    {gap : String}
    {more more' : List Char}
    (ends : EndsAlike (c :: more) back other)
    (lines : SameLines more more')
    (alike : OpenAlike base base' stack before after)
    (found_eq : plainLexeme before c (more ++ back) = found)
    (cut : lexeme after (c :: (more' ++ other)) = some (plainLexeme after c (more' ++ other)))
    (positive : 0 < found.length)
    (nests : Token.nest stack ⟨gap, String.ofList ((c :: more).take found.length), found.kind⟩ =
      some stack') :
    LexemeAlike base base' stack stack' after (c :: more) (c :: more') other found := by
  obtain ⟨word, rest, rest', rfl, rfl, later, same⟩ := exists_plainLexeme_eq ends lines
  rw [(same before).1] at found_eq
  subst found_eq
  rw [(same after).2] at cut
  obtain ⟨kind_eq, length_eq⟩ := plainLexeme_eq before after c word
  have bounded := length_plainLexeme_le before c word
  have taken (rest : List Char) : (c :: (word ++ rest)).take (plainLexeme before c word).length =
      (c :: word).take (plainLexeme before c word).length := by
    rw [← List.cons_append, List.take_append_of_le_length]
    rw [List.length_cons]
    omega
  have dropped (rest : List Char) : (c :: (word ++ rest)).drop (plainLexeme before c word).length =
      (c :: word).drop (plainLexeme before c word).length ++ rest := by
    rw [← List.cons_append, List.drop_append_of_le_length]
    rw [List.length_cons]
    omega
  refine ⟨plainLexeme after c word, cut, length_eq ▸ positive, ?_, fun gap' => ?_, ?_⟩
  · rw [length_eq]
    refine ⟨?_, ?_, ?_⟩
    · simp only [List.length_cons, List.length_append]
      omega
    · simp only [List.length_cons, List.length_append]
      omega
    · rw [dropped, dropped]
      exact (SameLines.refl _).append later
  · rw [length_eq, kind_eq, taken]
    rw [taken] at nests
    exact nests
  · rw [taken] at nests
    exact openAlike_plainLexeme alike positive nests

/-- What follows a quote, or a quote behind it, does not make them open a text block. -/
theorem not_opens_block
    {more more' : List Char}
    (ends : EndsAlike ('"' :: more) back other)
    (lines : SameLines more more')
    (noBlock : ∀ rest, more ≠ '"' :: '"' :: rest) :
    (∀ rest, more ++ back = '"' :: '"' :: rest → False) ∧
      ∀ rest, more' ++ other = '"' :: '"' :: rest → False := by
  have follows (areQuotes : ∀ c ∈ more, c = '"') : back.head? ≠ some '"' ∧
      other.head? ≠ some '"' := by
    rcases ends with ⟨c, isEnd, closes⟩ | ⟨c, _, d, _, rfl, rfl, stops, stops', -⟩
    · obtain rfl : c = '"' := (List.mem_cons.mp (List.mem_of_getLast? isEnd)).elim id (areQuotes c)
      exact absurd closes (by decide)
    · have noStop : isStop '"' = false := by decide
      simp [ne_of_isStop stops noStop, ne_of_isStop stops' noStop]
  have never {more follow rest : List Char}
      (noBlock : ∀ rest, more ≠ '"' :: '"' :: rest)
      (noQuote : (∀ c ∈ more, c = '"') → follow.head? ≠ some '"')
      (same : more ++ follow = '"' :: '"' :: rest) : False := by
    rcases more with _ | ⟨c, _ | ⟨d, more⟩⟩
    · exact noQuote (by simp) (congrArg List.head? same)
    · obtain ⟨rfl, follow_eq⟩ := List.cons.inj same
      exact noQuote (by simp) (congrArg List.head? follow_eq)
    · cases same
      exact noBlock more rfl
  refine ⟨fun _ => never noBlock fun areQuotes => (follows areQuotes).1, fun _ => never ?_ ?_⟩
  · rintro rest rfl
    obtain ⟨_, rfl, second⟩ := lines.symm.exists_of_cons (by decide)
    obtain ⟨_, rfl, -⟩ := second.exists_of_cons (by decide)
    exact noBlock _ rfl
  · intro areQuotes
    have oneLine : '\n' ∉ more' := fun inside => absurd (areQuotes '\n' inside) (by decide)
    exact (follows (lines.symm.eq_of_oneLine oneLine ▸ areQuotes)).2

/-- Strings are cut off alike. -/
theorem lexemeAlike_of_quote
    {gap text : String}
    {more more' : List Char}
    (ends : EndsAlike ('"' :: more) back other)
    (lines : SameLines more more')
    (alike : OpenAlike base base' stack before after)
    (found_eq : lexeme before ('"' :: (more ++ back)) = some found)
    (inside : found.length ≤ 1 + more.length)
    (nests : Token.nest stack ⟨gap, text, found.kind⟩ = some stack') :
    LexemeAlike base base' stack stack' after ('"' :: more) ('"' :: more') other found := by
  have opens (nestsWhole : Token.nest stack ⟨gap, text, .string⟩ = some stack') :
      OpenAlike base base' stack' before after := by
    cases nestsWhole
    exact alike
  have opensHead (block : Bool)
      (nestsHead : Token.nest stack ⟨gap, text, .stringHead⟩ = some stack') :
      OpenAlike base base' stack' (⟨block, 0⟩ :: before) (⟨block, 0⟩ :: after) := by
    cases nestsHead
    exact alike.string block
  have noSymbol : TokenKind.string ≠ .symbol ∧ TokenKind.stringHead ≠ .symbol := by decide
  by_cases isBlock : ∃ rest, more = '"' :: '"' :: rest
  · obtain ⟨rest, rfl⟩ := isBlock
    obtain ⟨_, rfl, second⟩ := lines.exists_of_cons (by decide)
    obtain ⟨rest', rfl, third⟩ := second.exists_of_cons (by decide)
    refine lexemeAlike_of_stringLexeme ['"', '"', '"'] found_eq ?_ third rfl noSymbol
      nests opens (opensHead true)
    simp only [List.length_cons, List.length_nil] at inside ⊢
    omega
  · obtain ⟨noBlock, noBlock'⟩ :=
      not_opens_block ends lines fun rest same => isBlock ⟨rest, same⟩
    rw [lexeme] at found_eq
    · refine lexemeAlike_of_stringLexeme ['"'] found_eq inside lines ?_ noSymbol nests
        opens (opensHead false)
      rw [List.singleton_append, lexeme]
      · rfl
      · exact noBlock'
    · exact noBlock

theorem eq_quote_of_characterEnd (one : characterEnd (c :: rest) = 1) : c = '\'' := by
  unfold characterEnd at one
  split at one <;> simp_all <;> split at one <;> omega

/-- Character literals are cut off alike. -/
theorem lexemeAlike_of_character
    {gap text : String}
    {more more' : List Char}
    (lines : SameLines more more')
    (alike : OpenAlike base base' stack before after)
    (found_eq : lexeme before ('\'' :: (more ++ back)) = some found)
    (inside : found.length ≤ 1 + more.length)
    (nests : Token.nest stack ⟨gap, text, found.kind⟩ = some stack') :
    LexemeAlike base base' stack stack' after ('\'' :: more) ('\'' :: more') other found := by
  rw [lexeme] at found_eq
  split at found_eq
  · cases found_eq
  · next long =>
      cases found_eq
      cases nests
      dsimp only at inside
      obtain ⟨closed, cut⟩ := characterAlike_of_sameLines other
        (by omega : characterEnd (more ++ back) ≠ 0) rfl (by omega) lines.behind
      have long' : ¬characterEnd (more' ++ other) < 2 := by
        intro short
        rcases more with _ | ⟨d, more⟩
        · rw [List.length_nil] at inside
          omega
        · obtain ⟨more', rfl, -⟩ := lines.exists_behind_of_cons
          have one : characterEnd (d :: (more' ++ other)) = 1 := by
            rw [List.cons_append] at short closed
            omega
          obtain rfl := eq_quote_of_characterEnd one
          exact long (by rw [List.cons_append, characterEnd]; decide)
      refine ⟨⟨.character, 1 + characterEnd (more' ++ other), after⟩, ?_, by dsimp only; omega,
        cut.after ['\''] ['\''], fun _ => rfl, alike⟩
      rw [List.cons_append, lexeme]
      exact if_neg long'

/-- The ends of strings behind embedded expressions are cut off alike. -/
theorem lexemeAlike_of_tail
    {gap text : String}
    {outer : List Embedding}
    {more more' : List Char}
    (lines : SameLines more more')
    (alike : OpenAlike base base' stack (⟨block, 0⟩ :: outer) after)
    (found_eq : lexeme (⟨block, 0⟩ :: outer) ('\x7d' :: (more ++ back)) = some found)
    (inside : found.length ≤ 1 + more.length)
    (nests : Token.nest stack ⟨gap, text, found.kind⟩ = some stack') :
    LexemeAlike base base' stack stack' after ('\x7d' :: more) ('\x7d' :: more') other found := by
  generalize before_eq : ⟨block, 0⟩ :: outer = before at alike
  cases alike with
  | nil =>
      rcases kind_of_stringLexeme found_eq with kind_eq | kind_eq <;> rw [kind_eq] at nests <;>
        cases nests
  | brace => exact absurd before_eq.symm (countBrace_opening_ne _ _ _)
  | @string stack _ outer' alike =>
      cases before_eq
      refine lexemeAlike_of_stringLexeme ['\x7d'] found_eq inside lines rfl (by decide)
        nests (fun nestsTail => ?_) fun nestsMiddle => ?_
      · cases nestsTail
        exact alike
      · cases nestsMiddle
        exact alike.string block

/-- What is cut off a text is cut off alike from a text with the same lines. -/
theorem lexemeAlike_of_sameLines
    {gap : String}
    (ends : EndsAlike front back other)
    (lines : SameLines front front')
    (alike : OpenAlike base base' stack before after)
    (noSpace : ∀ c ∈ front.head?, isSpace c = false)
    (found_eq : lexeme before (front ++ back) = some found)
    (positive : 0 < found.length)
    (inside : found.length ≤ front.length)
    (nests : Token.nest stack ⟨gap, String.ofList (front.take found.length), found.kind⟩ =
      some stack') :
    LexemeAlike base base' stack stack' after front front' other found := by
  obtain ⟨c, more, rfl⟩ := List.exists_cons_of_length_pos (Nat.lt_of_lt_of_le positive inside)
  have noLineFeed : c ≠ '\n' := by
    rintro rfl
    exact absurd (noSpace '\n' rfl) (by decide)
  obtain ⟨more', rfl, later⟩ := lines.exists_of_cons noLineFeed
  rw [List.length_cons, Nat.add_comm] at inside
  rw [List.cons_append] at found_eq
  by_cases isString : c = '"'
  · subst isString
    exact lexemeAlike_of_quote ends later alike found_eq inside nests
  by_cases isCharacter : c = '\''
  · subst isCharacter
    exact lexemeAlike_of_character later alike found_eq inside nests
  by_cases isEnd : c = '\x7d' ∧ ∃ block outer, before = ⟨block, 0⟩ :: outer
  · obtain ⟨rfl, block, outer, rfl⟩ := isEnd
    exact lexemeAlike_of_tail later alike found_eq inside nests
  · have noEnd (block : Bool) (outer : List Embedding) (same : c = '\x7d') :
        before ≠ ⟨block, 0⟩ :: outer :=
      fun embeddings_eq => isEnd ⟨same, block, outer, embeddings_eq⟩
    have plain := lexeme_eq_plainLexeme isString isCharacter noEnd (more ++ back)
    rw [plain] at found_eq
    have found_eq := Option.some.inj found_eq
    refine lexemeAlike_of_plain ends later alike found_eq ?_ positive nests
    refine lexeme_eq_plainLexeme isString isCharacter (fun block outer same after_eq => ?_) _
    cases alike with
    | nil =>
        rw [plainLexeme_of_closes (.inr same)] at found_eq
        subst found_eq same
        cases nests
    | brace => exact absurd after_eq (countBrace_opening_ne _ _ _)
    | string => exact noEnd _ _ same rfl

end JupiterMigration.Java
