import JupiterMigration.Proofs.Tokens.Measures
import JupiterMigration.Proofs.Tokens.Words
import Mathlib.Data.List.Find

/-!
# Cutting up to a stop

A string or a character literal is settled by its own characters, and no other lexeme goes on across
a stop.  So what is cut off before a stop is cut off before any other one (`lexeme_append`), and a
gap is passed over before any text that begins with none (`IsGap.gapLength_append`).
-/

namespace JupiterMigration.Java

open Text

/-! ## Strings and character literals -/

/-- The length up to where a string ends or an embedded expression begins. -/
def StringEnd.length : StringEnd → Nat
  | .closed length | .embedded length => length

theorem StringEnd.length_shift (count : Nat) (ending : StringEnd) :
    (ending.shift count).length = count + ending.length := by
  cases ending <;> rfl

/-- It takes a character to end a string, and two to end a text block. -/
theorem length_of_stringEnd
    {block : Bool}
    {text : List Char}
    {ending : StringEnd}
    (found : stringEnd block text = some ending) :
    0 < ending.length ∧ (block = true → 2 ≤ ending.length) := by
  fun_induction stringEnd block text generalizing ending with
  | case1 => cases found
  | case2 | case4 =>
      cases found
      simp [StringEnd.length]
  | case3 _ _ _ inductionHypothesis =>
      obtain ⟨inner, innerFound, rfl⟩ := Option.map_eq_some_iff.mp found
      rw [StringEnd.length_shift]
      exact ⟨by omega, fun _ => by omega⟩
  | case5 _ _ _ inductionHypothesis | case7 _ _ _ _ _ inductionHypothesis =>
      obtain ⟨inner, innerFound, rfl⟩ := Option.map_eq_some_iff.mp found
      have positive := (inductionHypothesis innerFound).1
      rw [StringEnd.length_shift]
      exact ⟨by omega, fun _ => by omega⟩
  | case6 _ noBlock =>
      cases found
      exact ⟨Nat.one_pos, fun isBlock => absurd isBlock noBlock⟩

/-- A string ends where it ends, whatever follows. -/
theorem stringEnd_take_append
    {block : Bool}
    {text : List Char}
    {ending : StringEnd}
    (found : stringEnd block text = some ending)
    (more : List Char) : stringEnd block (text.take ending.length ++ more) = some ending := by
  fun_induction stringEnd block text generalizing ending with
  | case1 => cases found
  | case2 =>
      cases found
      rfl
  | case3 c rest noBrace inductionHypothesis =>
      obtain ⟨inner, innerFound, rfl⟩ := Option.map_eq_some_iff.mp found
      rw [StringEnd.length_shift, Nat.add_comm, List.take_succ_cons, List.take_succ_cons,
        List.cons_append, List.cons_append, stringEnd, inductionHypothesis innerFound]
      · rfl
      · exact noBrace
  | case4 isBlock =>
      cases found
      subst isBlock
      rfl
  | case5 rest isBlock notClosed inductionHypothesis =>
      obtain ⟨inner, innerFound, rfl⟩ := Option.map_eq_some_iff.mp found
      -- What settles the block behind the quote are two characters, which are no quotes both.
      have notClosedAgain (others : List Char) :
          rest.take inner.length ++ more ≠ '"' :: '"' :: others := by
        obtain ⟨further, length_eq⟩ :=
          Nat.exists_eq_add_of_le ((length_of_stringEnd innerFound).2 isBlock)
        rw [length_eq, Nat.add_comm]
        rcases rest with _ | ⟨c, _ | ⟨d, rest⟩⟩
        · cases innerFound
        · intro same
          cases same
          subst isBlock
          cases innerFound
        · intro same
          cases same
          exact notClosed rest rfl
      rw [StringEnd.length_shift, Nat.add_comm, List.take_succ_cons, List.cons_append, stringEnd,
        if_pos isBlock, inductionHypothesis innerFound]
      · rfl
      · exact notClosedAgain
  | case6 rest noBlock =>
      cases found
      rw [Bool.not_eq_true] at noBlock
      subst noBlock
      rfl
  | case7 c rest _ noEscape noQuote inductionHypothesis =>
      obtain ⟨inner, innerFound, rfl⟩ := Option.map_eq_some_iff.mp found
      have noBackslash : c ≠ '\\' := by
        rintro rfl
        cases rest with
        | nil => cases innerFound
        | cons next others => exact noEscape next others rfl rfl
      rw [StringEnd.length_shift, Nat.add_comm, List.take_succ_cons, List.cons_append, stringEnd,
        inductionHypothesis innerFound]
      · rfl
      · exact fun _ same _ => noBackslash same
      · exact fun _ _ same _ => noBackslash same
      · exact noQuote

/-- A character literal ends where it ends, whatever follows. -/
theorem characterEnd_take_append
    {text : List Char}
    (closed : characterEnd text ≠ 0)
    (more : List Char) :
    characterEnd (text.take (characterEnd text) ++ more) = characterEnd text := by
  fun_induction characterEnd text with
  | case1 | case4 | case5 | case6 | case8 => exact absurd rfl closed
  | case2 c rest length open_ inductionHypothesis =>
      rw [Nat.add_comm, List.take_succ_cons, List.take_succ_cons, List.cons_append,
        List.cons_append, characterEnd, inductionHypothesis open_, if_neg open_, Nat.add_comm]
  | case3 rest => rfl
  | case7 c rest noEscape noQuote noLineFeed _ length open_ inductionHypothesis =>
      have noBackslash : c ≠ '\\' := by
        rintro rfl
        cases rest with
        | nil => exact open_ rfl
        | cons next others => exact noEscape next others rfl rfl
      rw [Nat.add_comm, List.take_succ_cons, List.cons_append, characterEnd,
        inductionHypothesis open_, if_neg open_, Nat.add_comm]
      · exact fun _ _ same _ => noBackslash same
      · exact noQuote
      · exact noLineFeed
      · exact fun same _ => noBackslash same

theorem length_stringEnd_le
    {block : Bool}
    {text : List Char}
    {ending : StringEnd}
    (found : stringEnd block text = some ending) : ending.length ≤ text.length := by
  fun_induction stringEnd block text generalizing ending with
  | case1 => cases found
  | case2 | case4 | case6 =>
      cases found
      simp [StringEnd.length]
  | case3 _ _ _ inductionHypothesis | case5 _ _ _ inductionHypothesis
  | case7 _ _ _ _ _ inductionHypothesis =>
      obtain ⟨inner, innerFound, rfl⟩ := Option.map_eq_some_iff.mp found
      have bounded := inductionHypothesis innerFound
      rw [StringEnd.length_shift]
      simp only [List.length_cons]
      omega

theorem characterEnd_le (text : List Char) : characterEnd text ≤ text.length := by
  fun_induction characterEnd text with
  | case2 | case7 => simp only [List.length_cons]; omega
  | _ => simp

/-! ## Lexemes before a stop -/

variable {embeddings : List Embedding} {front back : List Char} {found : Lexeme} {stop : Char}

theorem isPrefixOf_append
    {symbol : List Char}
    (noStop : stop ∉ symbol)
    (front back : List Char) :
    symbol.isPrefixOf (front ++ stop :: back) = symbol.isPrefixOf front := by
  induction symbol generalizing front with
  | nil => rfl
  | cons c rest inductionHypothesis =>
      rw [List.mem_cons, not_or] at noStop
      cases front with
      | nil => simp [List.isPrefixOf, Ne.symm noStop.1]
      | cons d others =>
          rw [List.cons_append, List.isPrefixOf, List.isPrefixOf, inductionHypothesis noStop.2]

theorem symbolLength_append (stops : isStop stop = true) (c : Char) (front back : List Char) :
    symbolLength (c :: front ++ stop :: back) = symbolLength (c :: front) := by
  -- A long symbol may begin with a stop, as a division with an assignment does.
  have unstopped : ∀ symbol ∈ longSymbols, ∀ d ∈ symbol.toList.tail, isStop d = false := by
    simp [longSymbols, isStop, isSpace]
  have same : longSymbols.find? (fun symbol =>
        symbol.toList.isPrefixOf (c :: front ++ stop :: back)) =
      longSymbols.find? fun symbol => symbol.toList.isPrefixOf (c :: front) := by
    refine List.find?_congr fun symbol inside => ?_
    have noStop := unstopped symbol inside
    generalize symbol.toList = spelled at noStop
    cases spelled with
    | nil => rfl
    | cons first rest =>
        have isPrefix : rest.isPrefixOf (front ++ stop :: back) = rest.isPrefixOf front :=
          isPrefixOf_append (fun isLater => ne_of_isStop stops (noStop stop isLater) rfl) _ _
        rw [List.cons_append, List.isPrefixOf, List.isPrefixOf, isPrefix]
  unfold symbolLength
  rw [same]
  rfl

theorem takeWhile_append (stops : isStop stop = true) (front back : List Char) :
    (front ++ stop :: back).takeWhile isNameContinue = front.takeWhile isNameContinue := by
  induction front with
  | nil =>
      rw [List.nil_append,
        List.takeWhile_cons_of_neg (by rw [isUnstopped_isNameContinue stop stops]; decide)]
      rfl
  | cons c rest inductionHypothesis =>
      rw [List.cons_append, List.takeWhile_cons, List.takeWhile_cons, inductionHypothesis]

theorem take_append_drop_append {count : Nat} (inside : count ≤ front.length)
    (back more : List Char) :
    (front ++ back).take count ++ (front.drop count ++ more) = front ++ more := by
  rw [List.take_append_of_le_length inside, ← List.append_assoc, List.take_append_drop]

theorem stringLexeme_append
    {opening : Nat}
    {block : Bool}
    {whole embedded : TokenKind}
    {outer : List Embedding}
    (found_eq : stringLexeme opening block whole embedded outer (front ++ back) = some found)
    (inside : found.length ≤ opening + front.length)
    (other : List Char) :
    stringLexeme opening block whole embedded outer (front ++ other) = some found := by
  unfold stringLexeme at found_eq
  have again {ending : StringEnd} (ending_eq : stringEnd block (front ++ back) = some ending)
      (fits : ending.length ≤ front.length) :
      stringEnd block (front ++ other) = some ending := by
    have same := stringEnd_take_append ending_eq (front.drop ending.length ++ other)
    rwa [take_append_drop_append fits] at same
  split at found_eq
  · next length ending_eq =>
      cases found_eq
      rw [stringLexeme, again ending_eq (Nat.le_of_add_le_add_left inside)]
  · next length ending_eq =>
      cases found_eq
      rw [stringLexeme, again ending_eq (Nat.le_of_add_le_add_left inside)]
  · cases found_eq

/-- The lexeme of a text that begins with no quote and ends no embedded expression. -/
theorem lexeme_of_other
    {c : Char}
    (noString : c ≠ '"')
    (noCharacter : c ≠ '\'')
    (noEnd : ∀ block outer, c = '\x7d' → embeddings ≠ ⟨block, 0⟩ :: outer)
    (rest : List Char) :
    lexeme embeddings (c :: rest) =
      if isNameStart c then
        some ⟨.word, 1 + (rest.takeWhile isNameContinue).length, embeddings⟩
      else if 0 < (Numeral.measure (c :: rest)).2 then
        some ⟨(Numeral.measure (c :: rest)).1, (Numeral.measure (c :: rest)).2, embeddings⟩
      else some ⟨.symbol, symbolLength (c :: rest), countBrace c embeddings⟩ := by
  rw [lexeme]
  · exact fun _ quote _ => noString quote
  · exact fun quote => noString quote
  · exact fun quote => noCharacter quote
  · exact fun block outer brace same => noEnd block outer brace same

/-- The lexeme of a word, a number or a symbol. -/
def plainLexeme (embeddings : List Embedding) (c : Char) (rest : List Char) : Lexeme :=
  if isNameStart c then ⟨.word, 1 + (rest.takeWhile isNameContinue).length, embeddings⟩
  else if 0 < (Numeral.measure (c :: rest)).2 then
    ⟨(Numeral.measure (c :: rest)).1, (Numeral.measure (c :: rest)).2, embeddings⟩
  else ⟨.symbol, symbolLength (c :: rest), countBrace c embeddings⟩

theorem lexeme_eq_plainLexeme
    {c : Char}
    (noString : c ≠ '"')
    (noCharacter : c ≠ '\'')
    (noEnd : ∀ block outer, c = '\x7d' → embeddings ≠ ⟨block, 0⟩ :: outer)
    (rest : List Char) : lexeme embeddings (c :: rest) = some (plainLexeme embeddings c rest) := by
  rw [lexeme_of_other noString noCharacter noEnd, plainLexeme]
  split
  · rfl
  · split <;> rfl

theorem plainLexeme_append (stops : isStop stop = true) (c : Char) (front back : List Char) :
    plainLexeme embeddings c (front ++ stop :: back) = plainLexeme embeddings c front := by
  rw [plainLexeme, plainLexeme, ← List.cons_append, Numeral.measure_append stops,
    symbolLength_append stops, takeWhile_append stops]

/-- What is cut off before a stop is cut off before any stop. -/
theorem lexeme_append
    {later : Char}
    (found_eq : lexeme embeddings (front ++ stop :: back) = some found)
    (nonempty : 0 < found.length)
    (inside : found.length ≤ front.length)
    (stops : isStop stop = true)
    (stopsLater : isStop later = true)
    (other : List Char) : lexeme embeddings (front ++ later :: other) = some found := by
  rcases front with _ | ⟨c, front⟩
  · exact absurd inside (Nat.not_le_of_lt nonempty)
  rw [List.length_cons, Nat.add_comm] at inside
  rw [List.cons_append] at found_eq ⊢
  by_cases isString : c = '"'
  · subst isString
    by_cases isBlock : ∃ rest, front = '"' :: '"' :: rest
    · obtain ⟨rest, rfl⟩ := isBlock
      refine stringLexeme_append found_eq ?_ _
      simp only [List.length_cons] at inside
      omega
    · have noBlock {stop : Char} (stops : isStop stop = true) (back : List Char) :
          ∀ rest, front ++ stop :: back = '"' :: '"' :: rest → False := by
        have noQuote := ne_of_isStop stops (by decide : isStop '"' = false)
        intro rest same
        rcases front with _ | ⟨c, _ | ⟨d, others⟩⟩
        · exact noQuote (List.cons.inj same).1
        · exact noQuote (List.cons.inj (List.cons.inj same).2).1
        · cases same
          exact isBlock ⟨others, rfl⟩
      rw [lexeme] at found_eq ⊢
      · exact stringLexeme_append found_eq inside _
      · exact noBlock stopsLater other
      · exact noBlock stops back
  · by_cases isCharacter : c = '\''
    · subst isCharacter
      rw [lexeme] at found_eq ⊢
      split at found_eq
      · cases found_eq
      · next closed =>
          cases found_eq
          have again :=
            characterEnd_take_append (by omega : characterEnd (front ++ stop :: back) ≠ 0)
            (front.drop (characterEnd (front ++ stop :: back)) ++ later :: other)
          rw [take_append_drop_append (Nat.le_of_add_le_add_left inside)] at again
          rw [again]
          exact if_neg closed
    · by_cases isEnd : c = '\x7d' ∧ ∃ block outer, embeddings = ⟨block, 0⟩ :: outer
      · obtain ⟨rfl, block, outer, rfl⟩ := isEnd
        exact stringLexeme_append found_eq inside _
      · have noEnd (block : Bool) (outer : List Embedding) (same : c = '\x7d') :
            embeddings ≠ ⟨block, 0⟩ :: outer :=
          fun embeddings_eq => isEnd ⟨same, block, outer, embeddings_eq⟩
        rw [lexeme_eq_plainLexeme isString isCharacter noEnd] at found_eq ⊢
        rw [plainLexeme_append stopsLater]
        rwa [plainLexeme_append stops] at found_eq

theorem countBrace_of_ne
    {symbol : Char}
    (noOpening : symbol ≠ '\x7b')
    (noClosing : symbol ≠ '\x7d')
    (embeddings : List Embedding) : countBrace symbol embeddings = embeddings := by
  cases embeddings with
  | nil => rfl
  | cons inner outer => simp [countBrace, noOpening, noClosing]

/-- A semicolon is a token of its own. -/
theorem lexeme_of_semicolon (embeddings : List Embedding) (rest : List Char) :
    lexeme embeddings (';' :: rest) = some ⟨.symbol, 1, embeddings⟩ := by
  have noNumber : (Numeral.measure (';' :: rest)).2 = 0 :=
    Numeral.measure_eq_zero (by decide) fun point => absurd point (by decide)
  have noStart : isNameStart ';' = false := by decide
  rw [lexeme_of_other (by decide) (by decide) (fun _ _ brace => absurd brace (by decide)),
    if_neg (by simp [noStart]), if_neg (by omega),
    countBrace_of_ne (by decide) (by decide)]
  rfl

/-! ## The length of a lexeme -/

theorem symbolLength_le (text : List Char) : symbolLength text ≤ text.length := by
  unfold symbolLength
  split
  · next symbol found =>
      have isPrefix := List.find?_some found
      have bounded := (List.isPrefixOf_iff_prefix.mp isPrefix).length_le
      rwa [String.length_toList] at bounded
  · split
    · split <;> simp
    · simp

theorem length_plainLexeme_le (embeddings : List Embedding) (c : Char) (rest : List Char) :
    (plainLexeme embeddings c rest).length ≤ 1 + rest.length := by
  have bounded : (c :: rest).length = 1 + rest.length := by rw [List.length_cons, Nat.add_comm]
  unfold plainLexeme
  split
  · exact Nat.add_le_add_left (List.takeWhile_prefix _).length_le 1
  · split
    · exact bounded ▸ Numeral.measure_le (c :: rest)
    · exact bounded ▸ symbolLength_le (c :: rest)

/-- What is cut off is no longer than the text. -/
theorem length_le_of_lexeme
    {text : List Char}
    (found_eq : lexeme embeddings text = some found) : found.length ≤ text.length := by
  have ofString {opening : Nat} {block : Bool} {whole embedded : TokenKind}
      {outer : List Embedding} {rest : List Char}
      (isString : stringLexeme opening block whole embedded outer rest = some found) :
      found.length ≤ opening + rest.length := by
    unfold stringLexeme at isString
    split at isString
    · next length ending_eq =>
        cases isString
        exact Nat.add_le_add_left (length_stringEnd_le ending_eq) opening
    · next length ending_eq =>
        cases isString
        exact Nat.add_le_add_left (length_stringEnd_le ending_eq) opening
    · cases isString
  have whole_eq := found_eq
  unfold lexeme at found_eq
  split at found_eq
  · cases found_eq
  · have bounded := ofString found_eq
    simp only [List.length_cons]
    omega
  · have bounded := ofString found_eq
    simp only [List.length_cons]
    omega
  · next rest =>
    dsimp only at found_eq
    split at found_eq
    · cases found_eq
    · cases found_eq
      have bounded := characterEnd_le rest
      simp only [List.length_cons]
      omega
  · next c rest _ noString noCharacter =>
    split at found_eq
    · have bounded := ofString found_eq
      simp only [List.length_cons]
      omega
    · next noEnd =>
      rw [lexeme_eq_plainLexeme noString noCharacter noEnd] at whole_eq
      cases whole_eq
      have bounded := length_plainLexeme_le embeddings c rest
      rw [List.length_cons]
      omega

/-! ## Gaps -/

/-- Where no gap stands before a text up to a stop, none stands there whatever follows the stop. -/
theorem gapLength_eq_zero_append
    (none : gapLength .outside (front ++ stop :: back) = some 0)
    (nonempty : front ≠ [])
    (other : List Char) : gapLength .outside (front ++ stop :: other) = some 0 := by
  obtain ⟨c, rest, rfl⟩ := List.exists_cons_of_ne_nil nonempty
  rw [List.cons_append, gapLength_eq_zero_iff] at none ⊢
  cases rest <;> exact none

/-- A comment goes on up to a token. -/
theorem ne_zero_of_blockComment
    {text : List Char}
    {gap : Nat}
    (found : gapLength .blockComment text = some gap) : gap ≠ 0 := by
  rintro rfl
  unfold gapLength at found
  split at found <;> simp_all

/-- What is passed over before a token is passed over before any text without a gap. -/
theorem gapLength_take
    {state : GapState}
    {text rest : List Char}
    {gap : Nat}
    (found : gapLength state text = some gap)
    (followed : text.drop gap ≠ [])
    (none : gapLength .outside rest = some 0) :
    gapLength state (text.take gap ++ rest) = some gap := by
  fun_induction gapLength state text generalizing gap with
  | case1 text inductionHypothesis | case2 text inductionHypothesis
  | case7 text inductionHypothesis =>
      obtain ⟨length, foundLater, rfl⟩ := Option.map_eq_some_iff.mp found
      rw [Nat.add_comm] at followed ⊢
      rw [List.take_succ_cons, List.take_succ_cons, List.cons_append, List.cons_append, gapLength,
        inductionHypothesis foundLater followed, Option.map_some, Nat.add_comm]
  | case3 d text _ _ space inductionHypothesis =>
      obtain ⟨length, foundLater, rfl⟩ := Option.map_eq_some_iff.mp found
      have noSlash : d ≠ '/' := by
        rintro rfl
        exact absurd space (by decide)
      rw [Nat.add_comm] at followed ⊢
      rw [List.take_succ_cons, List.cons_append, gapLength_outside (fun _ slash _ => noSlash slash)
        (fun _ slash _ => noSlash slash), if_pos space, inductionHypothesis foundLater followed,
        Option.map_some, Nat.add_comm]
  | case4 =>
      cases found
      exact none
  | case5 text inductionHypothesis =>
      obtain ⟨length, foundLater, rfl⟩ := Option.map_eq_some_iff.mp found
      rw [Nat.add_comm] at followed ⊢
      rw [List.take_succ_cons, List.cons_append, gapLength, inductionHypothesis foundLater followed,
        Option.map_some, Nat.add_comm]
  | case6 d text noLineFeed inductionHypothesis =>
      obtain ⟨length, foundLater, rfl⟩ := Option.map_eq_some_iff.mp found
      rw [Nat.add_comm] at followed ⊢
      rw [List.take_succ_cons, List.cons_append, gapLength, inductionHypothesis foundLater followed,
        Option.map_some, Nat.add_comm]
      exact noLineFeed
  | case8 d text noEnd inductionHypothesis =>
      obtain ⟨length, foundLater, rfl⟩ := Option.map_eq_some_iff.mp found
      rw [Nat.add_comm] at followed ⊢
      rw [List.take_succ_cons, List.cons_append, gapLength, inductionHypothesis foundLater followed,
        Option.map_some, Nat.add_comm]
      intro more star same
      cases text with
      | nil => cases foundLater
      | cons first others =>
          cases length with
          | zero => exact ne_zero_of_blockComment foundLater rfl
          | succ length =>
              cases same
              exact noEnd others star rfl
  | case9 => cases found
  | case10 => exact absurd List.drop_nil followed

/-- A gap ends before any text that begins with no gap. -/
theorem IsGap.gapLength_append
    {gap : String}
    {rest : List Char}
    (isGap : IsGap gap)
    (none : gapLength .outside rest = some 0) :
    gapLength .outside (gap.toList ++ rest) = some gap.toList.length := by
  have found := isGap ';' [] (by decide) (by decide)
  have whole := gapLength_take found (by simp) none
  rwa [List.take_left] at whole

/-- Whether a text begins with something that cannot be taken for a part of a gap. -/
def endsGap (text : String) : Bool :=
  match text.toList with
  | c :: _ => !isSpace c && c != '/'
  | [] => false

theorem endsGap_iff {text : String} :
    endsGap text = true ↔ ∃ c rest, text.toList = c :: rest ∧ isSpace c = false ∧ c ≠ '/' := by
  unfold endsGap
  rcases text.toList with _ | ⟨c, rest⟩ <;> simp

theorem endsGap_append {text : String} (ends : endsGap text = true) (more : String) :
    endsGap (text ++ more) = true := by
  obtain ⟨c, rest, text_eq, noSpace, noComment⟩ := endsGap_iff.mp ends
  refine endsGap_iff.mpr ⟨c, rest ++ more.toList, ?_, noSpace, noComment⟩
  rw [String.toList_append, text_eq, List.cons_append]

/-! ## Cutting off a token -/

/-- Some tokens, and behind them what is cut off from what follows. -/
def precede (tokens : List Token) (scanned : List Token × String) : List Token × String :=
  (tokens ++ scanned.1, scanned.2)

/-- A token is cut off, and cutting goes on behind it. -/
theorem scanFrom_cons
    {gap text : String}
    {more : List Char}
    {kind : TokenKind}
    {opened : List Embedding}
    (gap_eq : gapLength .outside (gap.toList ++ (text.toList ++ more)) = some gap.toList.length)
    (found_eq : lexeme embeddings (text.toList ++ more) = some ⟨kind, text.toList.length, opened⟩)
    (some : text.toList ≠ []) :
    scanFrom embeddings (gap.toList ++ (text.toList ++ more)) =
      (scanFrom opened more).map (precede [⟨gap, text, kind⟩]) := by
  have notEnded : text.toList ++ more ≠ [] := by simp [some]
  rw [scanFrom, gap_eq]
  dsimp only
  rw [List.drop_left, dif_neg notEnded, found_eq]
  dsimp only
  rw [dif_pos (List.length_pos_iff.mpr some), List.drop_left, List.take_left, List.take_left,
    String.ofList_toList, String.ofList_toList]
  cases scanFrom opened more <;> rfl

theorem length_take_of_drop_ne_nil
    {text : List Char}
    {count : Nat}
    (some : text.drop count ≠ []) : (text.take count).length = count := by
  have := List.length_pos_iff.mpr some
  rw [List.length_drop] at this
  exact List.length_take_of_le (by omega)

/-- The first token that is cut off a text parts it into a gap, the token and what follows. -/
theorem exists_split_of_scanFrom
    {text : List Char}
    {first : Token}
    {others : List Token}
    {tail : String}
    (scanned : scanFrom embeddings text = some (first :: others, tail)) :
    ∃ spaces word remaining found, text = spaces ++ (word ++ remaining) ∧
      first = ⟨String.ofList spaces, String.ofList word, found.kind⟩ ∧ word ≠ [] ∧
      gapLength .outside text = some spaces.length ∧
      lexeme embeddings (word ++ remaining) = some found ∧ found.length = word.length ∧
      scanFrom found.opened remaining = some (others, tail) := by
  obtain ⟨gap, found, gap_eq, found_eq, positive, first_eq, scannedRest⟩ :=
    exists_of_scanFrom_cons scanned
  have gap_length : (text.take gap).length = gap := by
    refine length_take_of_drop_ne_nil fun nothing => ?_
    rw [nothing] at found_eq
    cases found_eq
  have word_length : ((text.drop gap).take found.length).length = found.length :=
    List.length_take_of_le (length_le_of_lexeme found_eq)
  refine ⟨text.take gap, (text.drop gap).take found.length, (text.drop gap).drop found.length,
    found, ?_, first_eq, List.ne_nil_of_length_pos (by omega), gap_length.symm ▸ gap_eq, ?_,
    word_length.symm, scannedRest⟩
  · rw [List.take_append_drop, List.take_append_drop]
  · rw [List.take_append_drop, found_eq]

/-- What is passed over before something else is a gap. -/
theorem isGap_of_gapLength
    {text : List Char}
    {gap : Nat}
    (found : gapLength .outside text = some gap)
    (followed : text.drop gap ≠ []) : IsGap (String.ofList (text.take gap)) := by
  intro c more noSpace noComment
  have none := gapLength_eq_zero more noSpace noComment
  rw [String.toList_ofList, gapLength_take found followed none,
    length_take_of_drop_ne_nil followed]

/-- What is passed over before a token is a gap. -/
theorem isGap_of_scanFrom
    {text : List Char}
    {front others : List Token}
    {first : Token}
    {tail : String}
    (scanned : scanFrom embeddings text = some (front ++ first :: others, tail)) :
    IsGap first.gap := by
  obtain ⟨opened, rest, scannedRest⟩ := exists_scanFrom_of_append scanned
  obtain ⟨gap, found, gap_eq, found_eq, -, rfl, -⟩ := exists_of_scanFrom_cons scannedRest
  refine isGap_of_gapLength gap_eq fun nothing => ?_
  rw [nothing] at found_eq
  cases found_eq

end JupiterMigration.Java
