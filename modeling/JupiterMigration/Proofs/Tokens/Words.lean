import JupiterMigration.Proofs.Printing
import JupiterMigration.Proofs.Tokens.Apart

/-!
# Where words end

A word is cut off as long as possible, so a word in the text of a source is a token of its own
(`eq_word_of_scan`), and a name that is selected from a word is cut up into the word, the dot and
the name (`eq_selection_of_scan`).  No token begins with white space (`exists_start_of_scan`).
-/

namespace JupiterMigration.Java

open Text

/-- What stands behind the first of the tokens that a text is cut up into. -/
theorem exists_of_scanFrom_cons
    {embeddings : List Embedding}
    {text : List Char}
    {first : Token}
    {others : List Token}
    {tail : String}
    (scanned : scanFrom embeddings text = some (first :: others, tail)) :
    ∃ gap found, gapLength .outside text = some gap ∧
      lexeme embeddings (text.drop gap) = some found ∧ 0 < found.length ∧
      first = ⟨String.ofList (text.take gap), String.ofList ((text.drop gap).take found.length),
        found.kind⟩ ∧
      scanFrom found.opened ((text.drop gap).drop found.length) = some (others, tail) := by
  rw [scanFrom] at scanned
  split at scanned
  · cases scanned
  · next gap gap_eq =>
      dsimp only at scanned
      split at scanned
      · cases scanned
      · split at scanned
        · cases scanned
        · next found found_eq =>
            split at scanned
            · next nonempty =>
                split at scanned
                · cases scanned
                · next more moreTail rest_eq =>
                    cases scanned
                    exact ⟨gap, found, gap_eq, found_eq, nonempty, rfl, rest_eq⟩
            · cases scanned

/-- Cutting goes on in the same way wherever one begins to look. -/
theorem exists_scanFrom_of_append
    {embeddings : List Embedding}
    {text : List Char}
    {front back : List Token}
    {tail : String}
    (scanned : scanFrom embeddings text = some (front ++ back, tail)) :
    ∃ opened rest, scanFrom opened rest = some (back, tail) := by
  induction front generalizing embeddings text with
  | nil => exact ⟨embeddings, text, scanned⟩
  | cons first others inductionHypothesis =>
      obtain ⟨_, _, -, -, -, -, scannedOthers⟩ := exists_of_scanFrom_cons scanned
      exact inductionHypothesis scannedOthers

/-- No token is without text. -/
theorem text_ne_empty_of_scanFrom
    {embeddings : List Embedding}
    {text : List Char}
    {first : Token}
    {others : List Token}
    {tail : String}
    (scanned : scanFrom embeddings text = some (first :: others, tail)) : first.text ≠ "" := by
  obtain ⟨gap, found, -, found_eq, nonempty, rfl, -⟩ := exists_of_scanFrom_cons scanned
  cases rest_eq : text.drop gap with
  | nil =>
      rw [rest_eq] at found_eq
      cases found_eq
  | cons c more =>
      obtain ⟨length, length_eq⟩ := Nat.exists_eq_add_of_lt nonempty
      intro empty
      have characters := congrArg String.toList empty
      rw [String.toList_ofList, length_eq, Nat.zero_add, List.take_succ_cons] at characters
      cases characters

/-- A name begins a word that goes on as long as possible. -/
theorem lexeme_of_isNameStart
    (embeddings : List Embedding)
    {c : Char}
    (rest : List Char)
    (starts : isNameStart c = true) :
    lexeme embeddings (c :: rest) =
      some ⟨.word, 1 + (rest.takeWhile isNameContinue).length, embeddings⟩ := by
  have differs (other : Char) (noStart : isNameStart other = false) : c ≠ other := by
    rintro rfl
    rw [starts] at noStart
    cases noStart
  rw [lexeme]
  · simp [starts]
  · exact fun _ quote _ => differs _ (by decide) quote
  · exact fun quote => differs _ (by decide) quote
  · exact fun quote => differs _ (by decide) quote
  · exact fun _ _ brace _ => differs _ (by decide) brace

/-- A dot before a name is a token. -/
theorem lexeme_of_point
    (embeddings : List Embedding)
    {c : Char}
    (rest : List Char)
    (starts : isNameStart c = true) :
    lexeme embeddings ('.' :: c :: rest) =
      some ⟨.symbol, 1, countBrace '.' embeddings⟩ := by
  have noDigit := isDigit_of_isNameStart starts
  have noPoint : (c != '.') = true := by
    rw [bne_iff_ne]
    rintro rfl
    exact absurd starts (by decide)
  have noNumber : (Numeral.measure ('.' :: c :: rest)).2 = 0 :=
    Numeral.measure_eq_zero (by decide) fun _ => by simpa using noDigit
  have single : symbolLength ('.' :: c :: rest) = 1 :=
    symbolLength_of_mayFollow (by decide) (by simp [mayFollow, noPoint, noDigit])
  have noStart : isNameStart '.' = false := by decide
  rw [lexeme]
  · simp [noStart, noNumber, single]
  · exact fun _ quote _ => absurd quote (by decide)
  · exact fun quote => absurd quote (by decide)
  · exact fun quote => absurd quote (by decide)
  · exact fun _ _ brace _ => absurd brace (by decide)

/-! ## Gaps -/

theorem gapLength_outside
    {c : Char}
    {rest : List Char}
    (noLine : ∀ more, c = '/' → rest = '/' :: more → False)
    (noBlock : ∀ more, c = '/' → rest = '*' :: more → False) :
    gapLength .outside (c :: rest) =
      if isSpace c then (gapLength .outside rest).map (1 + ·) else some 0 := by
  rw [gapLength]
  · exact noLine
  · exact noBlock

/-- No gap stands before what is neither white space nor a comment. -/
theorem gapLength_eq_zero_iff {c : Char} {rest : List Char} :
    gapLength .outside (c :: rest) = some 0 ↔
      isSpace c = false ∧ (c = '/' → ∀ d ∈ rest.head?, d ≠ '/' ∧ d ≠ '*') := by
  have positive (count : Nat) {found : Option Nat} :
      found.map (count + 1 + ·) ≠ some 0 := by
    cases found with
    | none => nofun
    | some length =>
        intro same
        have length_eq : count + 1 + length = 0 := Option.some.inj same
        omega
  constructor
  · intro none
    constructor
    · cases space : isSpace c with
      | false => rfl
      | true =>
          have noSlash : c ≠ '/' := by
            rintro rfl
            exact absurd space (by decide)
          rw [gapLength_outside (fun _ slash _ => noSlash slash) (fun _ slash _ => noSlash slash),
            if_pos space] at none
          exact absurd none (positive 0)
    · rintro rfl d isHead
      obtain ⟨more, rfl⟩ := List.head?_eq_some_iff.mp isHead
      constructor <;> rintro rfl <;> exact absurd none (positive 1)
  · rintro ⟨noSpace, noComment⟩
    rw [gapLength_outside, noSpace]
    · rfl
    · rintro more rfl rfl
      exact (noComment rfl '/' rfl).1 rfl
    · rintro more rfl rfl
      exact (noComment rfl '*' rfl).2 rfl

theorem gapLength_eq_zero
    {c : Char}
    (rest : List Char)
    (noSpace : isSpace c = false)
    (noComment : c ≠ '/') : gapLength .outside (c :: rest) = some 0 :=
  gapLength_eq_zero_iff.mpr ⟨noSpace, fun slash => absurd slash noComment⟩

/-- No gap follows a gap. -/
theorem gapLength_drop
    {state : GapState}
    {text : List Char}
    {gap : Nat}
    (found : gapLength state text = some gap) :
    gapLength .outside (text.drop gap) = some 0 := by
  fun_induction gapLength state text generalizing gap with
  | case1 _ inductionHypothesis | case2 _ inductionHypothesis
  | case3 _ _ _ _ _ inductionHypothesis | case5 _ inductionHypothesis
  | case6 _ _ _ inductionHypothesis | case7 _ inductionHypothesis
  | case8 _ _ _ inductionHypothesis =>
      obtain ⟨length, foundLater, rfl⟩ := Option.map_eq_some_iff.mp found
      rw [Nat.add_comm]
      exact inductionHypothesis foundLater
  | case4 c rest noLine noBlock noSpace =>
      cases found
      rw [List.drop_zero, gapLength_outside noLine noBlock, if_neg noSpace]
  | case9 => cases found
  | case10 => cases found; rfl

/-- What follows a gap is no white space. -/
theorem isSpace_of_gapLength
    {state : GapState}
    {text : List Char}
    {gap : Nat}
    (found : gapLength state text = some gap) :
    ∀ c ∈ (text.drop gap).head?, isSpace c = false := by
  intro c isHead
  obtain ⟨more, rest_eq⟩ := List.head?_eq_some_iff.mp isHead
  have none := gapLength_drop found
  rw [rest_eq] at none
  exact (gapLength_eq_zero_iff.mp none).1

/-! ## Words that are tokens -/

/-- The text that a token begins, up to the end of the source. -/
theorem drop_gap_of_scanFrom
    {embeddings : List Embedding}
    {text : List Char}
    {first : Token}
    {others after : List Token}
    {tail : String}
    {gap : Nat}
    (scanned : scanFrom embeddings text = some (first :: others ++ after, tail))
    (gap_eq : first.gap = String.ofList (text.take gap)) :
    text.drop gap = (textOf (first :: others)).toList ++ (sourceOf after ++ tail).toList := by
  have lossless := scanFrom_lossless scanned
  rw [sourceOf_append, sourceOf_eq_gapOf_append_textOf (first :: others), gapOf, gap_eq,
    ← String.ofList_toList (s := textOf _), ← String.ofList_toList (s := sourceOf after),
    ← String.ofList_toList (s := tail)] at lossless
  simp only [← String.ofList_append, String.ofList_inj, List.append_assoc] at lossless
  have whole := lossless.trans (List.take_append_drop gap text).symm
  rw [String.toList_append]
  exact (List.append_cancel_left whole).symm

/-- The token of a name is the longest word that the name begins. -/
theorem word_of_isNameStart
    {embeddings : List Embedding}
    {text rest : List Char}
    {first : Token}
    {others : List Token}
    {tail : String}
    {gap : Nat}
    {c : Char}
    (scanned : scanFrom embeddings text = some (first :: others, tail))
    (gap_eq : gapLength .outside text = some gap)
    (text_eq : text.drop gap = c :: rest)
    (starts : isNameStart c = true) :
    first = ⟨String.ofList (text.take gap),
        String.ofList (c :: rest.takeWhile isNameContinue), .word⟩ ∧
      scanFrom embeddings (rest.dropWhile isNameContinue) = some (others, tail) := by
  obtain ⟨_, found, again, found_eq, -, rfl, scannedOthers⟩ := exists_of_scanFrom_cons scanned
  obtain rfl := Option.some.inj (gap_eq.symm.trans again)
  rw [text_eq, lexeme_of_isNameStart _ _ starts] at found_eq
  cases found_eq
  have cut : rest = rest.takeWhile isNameContinue ++ rest.dropWhile isNameContinue :=
    List.takeWhile_append_dropWhile.symm
  rw [text_eq, Nat.add_comm, List.drop_succ_cons] at scannedOthers
  rw [text_eq, Nat.add_comm, List.take_succ_cons]
  generalize rest.takeWhile isNameContinue = front at cut scannedOthers ⊢
  generalize rest.dropWhile isNameContinue = back at cut ⊢
  subst cut
  rw [List.drop_left] at scannedOthers
  rw [List.take_left]
  exact ⟨rfl, scannedOthers⟩

/-- A single word is a single token. -/
theorem eq_word_of_isWord
    {embeddings : List Embedding}
    {text : List Char}
    {front after : List Token}
    {tail : String}
    (scanned : scanFrom embeddings text = some (front ++ after, tail))
    (spelled : isWord (textOf front) = true) :
    ∃ gap, front = [⟨gap, textOf front, .word⟩] := by
  cases front with
  | nil => cases spelled
  | cons first others =>
      obtain ⟨c, rest, front_eq, starts, continues⟩ := isWord_iff.mp spelled
      obtain ⟨gap, _, gap_eq, -, -, first_eq, -⟩ := exists_of_scanFrom_cons scanned
      have text_eq := drop_gap_of_scanFrom scanned (congrArg Token.gap first_eq)
      rw [front_eq, List.cons_append] at text_eq
      obtain ⟨rfl, scannedOthers⟩ := word_of_isNameStart scanned gap_eq text_eq starts
      rw [List.takeWhile_append_of_pos continues, textOf, String.toList_append,
        String.toList_ofList, ← List.cons_append, List.append_assoc,
        List.append_right_eq_self] at front_eq
      obtain ⟨_, others_eq⟩ := List.append_eq_nil_iff.mp front_eq
      cases others with
      | nil =>
          exact ⟨String.ofList (text.take gap), by rw [textOf, sourceOf_nil, String.append_empty]⟩
      | cons second more =>
          simp only [sourceOf_cons, String.toList_append, List.append_eq_nil_iff,
            String.toList_eq_nil_iff] at others_eq
          exact absurd others_eq.1.2 (text_ne_empty_of_scanFrom scannedOthers)

/-- A dot before a name is a token of its own. -/
theorem point_of_isNameStart
    {embeddings : List Embedding}
    {rest : List Char}
    {first : Token}
    {others : List Token}
    {tail : String}
    {c : Char}
    (scanned : scanFrom embeddings ('.' :: c :: rest) = some (first :: others, tail))
    (starts : isNameStart c = true) :
    first = ⟨"", ".", .symbol⟩ ∧ ∃ opened, scanFrom opened (c :: rest) = some (others, tail) := by
  obtain ⟨gap, found, gap_eq, found_eq, -, rfl, scannedOthers⟩ := exists_of_scanFrom_cons scanned
  rw [gapLength_eq_zero _ (by decide) (by decide)] at gap_eq
  cases gap_eq
  rw [List.drop_zero, lexeme_of_point _ _ starts] at found_eq
  cases found_eq
  exact ⟨rfl, _, scannedOthers⟩

/-- A word at the very beginning of a text has no gap. -/
theorem gap_eq_empty_of_isNameStart
    {embeddings : List Embedding}
    {rest : List Char}
    {first : Token}
    {others : List Token}
    {tail : String}
    {c : Char}
    (scanned : scanFrom embeddings (c :: rest) = some (first :: others, tail))
    (starts : isNameStart c = true) : first.gap = "" := by
  have noComment : c ≠ '/' := by
    rintro rfl
    exact absurd starts (by decide)
  obtain ⟨gap, found, gap_eq, -, -, rfl, -⟩ := exists_of_scanFrom_cons scanned
  rw [gapLength_eq_zero _ (isSpace_of_isNameStart starts) noComment] at gap_eq
  cases gap_eq
  rfl

/-- A name that is selected from a word is the last of three tokens. -/
theorem eq_selection_of_isWord
    {embeddings : List Embedding}
    {text : List Char}
    {front after : List Token}
    {tail receiver name : String}
    (scanned : scanFrom embeddings text = some (front ++ after, tail))
    (receiverSpelled : isWord receiver = true)
    (nameSpelled : isWord name = true)
    (front_eq : textOf front = receiver ++ "." ++ name) :
    ∃ gap, front = [⟨gap, receiver, .word⟩, ⟨"", ".", .symbol⟩, ⟨"", name, .word⟩] := by
  obtain ⟨c, rest, receiver_eq, starts, continues⟩ := isWord_iff.mp receiverSpelled
  obtain ⟨d, more, name_eq, nameStarts, -⟩ := isWord_iff.mp nameSpelled
  have characters : (textOf front).toList = c :: (rest ++ '.' :: d :: more) := by
    rw [front_eq, String.toList_append, String.toList_append, receiver_eq, name_eq]
    simp
  cases front with
  | nil => cases characters
  | cons first others =>
      obtain ⟨gap, _, gap_eq, -, -, first_eq, -⟩ := exists_of_scanFrom_cons scanned
      have text_eq := drop_gap_of_scanFrom scanned (congrArg Token.gap first_eq)
      rw [characters, List.cons_append, List.append_assoc, List.cons_append,
        List.cons_append] at text_eq
      obtain ⟨rfl, scannedOthers⟩ := word_of_isNameStart scanned gap_eq text_eq starts
      have receiver_text : String.ofList (c :: (rest ++ '.' :: (d :: (more ++
          (sourceOf after ++ tail).toList))).takeWhile isNameContinue) = receiver := by
        rw [List.takeWhile_append_of_pos continues, List.takeWhile_cons_of_neg (by decide),
          List.append_nil, ← receiver_eq, String.ofList_toList]
      rw [receiver_text, textOf, String.append_assoc, String.append_right_inj] at front_eq
      rw [List.dropWhile_append_of_pos continues,
        List.dropWhile_cons_of_neg (by decide)] at scannedOthers
      cases others with
      | nil => simp at front_eq
      | cons point last =>
          obtain ⟨rfl, opened, scannedLast⟩ := point_of_isNameStart scannedOthers nameStarts
          have last_eq : sourceOf last = name := by
            rw [sourceOf_cons] at front_eq
            exact (String.append_right_inj _).mp front_eq
          cases last with
          | nil =>
              rw [← last_eq] at name_eq
              cases name_eq
          | cons word further =>
              have gap_eq := gap_eq_empty_of_isNameStart scannedLast nameStarts
              have text_eq : textOf (word :: further) = name := by
                rw [← last_eq, sourceOf_eq_gapOf_append_textOf, gapOf, gap_eq, String.empty_append]
              obtain ⟨_, same⟩ := eq_word_of_isWord scannedLast (text_eq ▸ nameSpelled)
              rw [text_eq] at same
              obtain ⟨rfl, rfl⟩ := List.cons.inj same
              cases gap_eq
              exact ⟨_, by rw [receiver_text]⟩

/-! ## Parts of a source -/

/--
The tokens of a source from anywhere on, but for the first gap, are what some text is cut into.
-/
theorem exists_scanFrom_of_infix
    {source tail : String}
    {tokens others : List Token}
    {first : Token}
    (scanned : Token.scan source = some (tokens, tail))
    (inside : first :: others <:+: tokens) :
    ∃ gap embeddings text after tail,
      scanFrom embeddings text = some ({ first with gap } :: others ++ after, tail) := by
  obtain ⟨before, after, rfl⟩ := inside
  rw [List.append_assoc] at scanned
  unfold Token.scan at scanned
  split at scanned
  · obtain ⟨⟨cut, _⟩, scannedRest, pushed⟩ := Option.map_eq_some_iff.mp scanned
    cases cut with
    | nil =>
        simp [pushGap] at pushed
    | cons head more =>
        cases before with
        | nil =>
            cases pushed
            exact ⟨head.gap, _, _, _, _, scannedRest⟩
        | cons marked before =>
            cases pushed
            have scannedAll : scanFrom [] _ =
                some ((head :: before) ++ (first :: others ++ after), _) := scannedRest
            obtain ⟨embeddings, text, scannedLater⟩ := exists_scanFrom_of_append scannedAll
            exact ⟨first.gap, embeddings, text, _, _, scannedLater⟩
  · obtain ⟨embeddings, text, scannedLater⟩ := exists_scanFrom_of_append scanned
    exact ⟨first.gap, embeddings, text, _, _, scannedLater⟩

/-- The text of a part of a source begins with a character that is no white space. -/
theorem exists_start_of_scan
    {source tail : String}
    {tokens part : List Token}
    (scanned : Token.scan source = some (tokens, tail))
    (inside : part <:+: tokens)
    (nonempty : part ≠ []) :
    ∃ c rest, (textOf part).toList = c :: rest ∧ isSpace c = false := by
  cases part with
  | nil => exact absurd rfl nonempty
  | cons first others =>
      obtain ⟨before, _, text, _, _, scannedLater⟩ := exists_scanFrom_of_infix scanned inside
      obtain ⟨gap, _, gap_eq, -, -, first_eq, -⟩ := exists_of_scanFrom_cons scannedLater
      have text_eq := drop_gap_of_scanFrom scannedLater (congrArg Token.gap first_eq)
      have noSpace := isSpace_of_gapLength gap_eq
      rw [text_eq] at noSpace
      have spelled := text_ne_empty_of_scanFrom scannedLater
      cases characters : first.text.toList with
      | nil => exact absurd (String.toList_eq_nil_iff.mp characters) spelled
      | cons c more =>
          have whole :
              (textOf (first :: others)).toList = c :: (more ++ (sourceOf others).toList) := by
            rw [textOf, String.toList_append, characters, List.cons_append]
          have regapped : textOf ({ first with gap := before } :: others) =
              textOf (first :: others) := rfl
          rw [regapped, whole] at noSpace
          exact ⟨c, _, whole, noSpace c rfl⟩

/-- A single word in a source is a single token. -/
theorem eq_word_of_scan
    {source tail : String}
    {tokens part : List Token}
    (scanned : Token.scan source = some (tokens, tail))
    (inside : part <:+: tokens)
    (spelled : isWord (textOf part) = true) :
    ∃ gap, part = [⟨gap, textOf part, .word⟩] := by
  cases part with
  | nil => cases spelled
  | cons first others =>
      obtain ⟨_, _, _, _, _, scannedLater⟩ := exists_scanFrom_of_infix scanned inside
      obtain ⟨_, same⟩ := eq_word_of_isWord scannedLater spelled
      obtain ⟨gap, text, kind⟩ := first
      obtain ⟨first_eq, rfl⟩ := List.cons.inj same
      obtain ⟨-, text_eq, rfl⟩ := Token.mk.inj first_eq
      exact ⟨gap, by rw [textOf, sourceOf_nil, String.append_empty]⟩

/-- A name in a source that is selected from a word is the last of three tokens. -/
theorem eq_selection_of_scan
    {source tail receiver name : String}
    {tokens part : List Token}
    (scanned : Token.scan source = some (tokens, tail))
    (inside : part <:+: tokens)
    (receiverSpelled : isWord receiver = true)
    (nameSpelled : isWord name = true)
    (part_eq : textOf part = receiver ++ "." ++ name) :
    ∃ gap, part = [⟨gap, receiver, .word⟩, ⟨"", ".", .symbol⟩, ⟨"", name, .word⟩] := by
  cases part with
  | nil =>
      have characters := congrArg String.toList part_eq
      simp [textOf] at characters
  | cons first others =>
      obtain ⟨_, _, _, _, _, scannedLater⟩ := exists_scanFrom_of_infix scanned inside
      obtain ⟨_, same⟩ := eq_selection_of_isWord scannedLater receiverSpelled nameSpelled part_eq
      obtain ⟨gap, text, kind⟩ := first
      cases same
      exact ⟨gap, rfl⟩

end JupiterMigration.Java
