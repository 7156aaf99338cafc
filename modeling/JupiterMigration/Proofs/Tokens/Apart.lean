import JupiterMigration.Proofs.Tokens

/-!
# Tokens that are written one after the other

A word or a short symbol is cut off again from where it is written if what follows does not go on
with it (`Token.standsApart`).  Tokens that all stand apart from what follows them are the tokens
that their text begins with (`begins_of_apart`).
-/

namespace JupiterMigration

namespace Text

/-- The code points of white space. -/
def spaceCodes : List Nat :=
  [0x9, 0xA, 0xB, 0xC, 0xD, 0x20, 0x85, 0xA0, 0x1680, 0x2000, 0x2001, 0x2002, 0x2003, 0x2004,
    0x2005, 0x2006, 0x2007, 0x2008, 0x2009, 0x200A, 0x2028, 0x2029, 0x202F, 0x205F, 0x3000]

theorem mem_spaceCodes {c : Char} (space : isSpace c = true) : c.toNat ∈ spaceCodes := by
  have le_iff (first second : Char) : first ≤ second ↔ first.toNat ≤ second.toNat := Iff.rfl
  have eq_iff (first second : Char) : first = second ↔ first.toNat = second.toNat :=
    Char.toNat_inj.symm
  simp only [isSpace, Bool.or_eq_true, Bool.and_eq_true, decide_eq_true_eq, beq_iff_eq, le_iff,
    eq_iff, Char.reduceToNat] at space
  simp only [spaceCodes, List.mem_cons, List.not_mem_nil, or_false]
  omega

/-- The code points of blanks. -/
def blankCodes : List Nat :=
  spaceCodes ++ [0x1C, 0x1D, 0x1E, 0x1F]

theorem mem_blankCodes {c : Char} (blank : isBlank c = true) : c.toNat ∈ blankCodes := by
  rw [isBlank, Bool.or_eq_true] at blank
  rw [blankCodes, List.mem_append]
  refine blank.imp mem_spaceCodes fun separator => ?_
  have le_iff (first second : Char) : first ≤ second ↔ first.toNat ≤ second.toNat := Iff.rfl
  simp only [Bool.and_eq_true, decide_eq_true_eq, le_iff, Char.reduceToNat] at separator
  simp only [List.mem_cons, List.not_mem_nil, or_false]
  omega

/-- A character is no blank if it is of a kind that holds of no code point of a blank. -/
theorem isBlank_eq_false
    {kind : Char → Bool}
    (disjoint : blankCodes.all (fun code => !kind (Char.ofNat code)) = true)
    {c : Char}
    (ofKind : kind c = true) : isBlank c = false := by
  cases blank : isBlank c with
  | false => rfl
  | true =>
      have notOfKind := List.all_eq_true.mp disjoint c.toNat (mem_blankCodes blank)
      rw [Char.ofNat_toNat, ofKind] at notOfKind
      cases notOfKind

/-- A name begins with no white space. -/
theorem isSpace_of_isNameStart {c : Char} (starts : isNameStart c = true) : isSpace c = false := by
  have noLetter : ∀ code ∈ spaceCodes, (isAsciiLetter (Char.ofNat code) ||
      Char.ofNat code == '_' || Char.ofNat code == '$') = false := by
    decide
  have noRange : spaceCodes.all (fun code => !inRanges nameStartRanges code) = true := by
    simp only [inRanges, ← Array.any_toList]
    decide +kernel
  cases space : isSpace c with
  | false => rfl
  | true =>
      have isCode := mem_spaceCodes space
      have notLetter := noLetter c.toNat isCode
      rw [Char.ofNat_toNat] at notLetter
      rw [isNameStart, notLetter, Bool.false_or, Bool.and_eq_true] at starts
      have notInRange := List.all_eq_true.mp noRange c.toNat isCode
      rw [starts.2] at notInRange
      cases notInRange

/-- A name begins with no digit. -/
theorem isDigit_of_isNameStart {c : Char} (starts : isNameStart c = true) : isDigit c = false := by
  cases digit : isDigit c with
  | false => rfl
  | true =>
      have disjoint : ∀ code ∈ List.range' 48 10, isNameStart (Char.ofNat code) = false := by
        decide
      have code_mem : c.toNat ∈ List.range' 48 10 := by
        simp only [isDigit, Bool.and_eq_true, decide_eq_true_eq] at digit
        rw [List.mem_range'_1]
        exact ⟨digit.1, Nat.lt_succ_of_le digit.2⟩
      have differs := disjoint c.toNat code_mem
      rw [Char.ofNat_toNat, starts] at differs
      cases differs

end Text

namespace Java

open Text

/-! ## What a text begins with -/

/-- A text begins with some tokens if cutting it up gives them and then the tokens of the rest. -/
def Begins (tokens : List Token) (text rest : List Char) : Prop :=
  scanFrom [] text = (scanFrom [] rest).map fun found => (tokens ++ found.1, found.2)

/-- Tokens that are cut off one after the other. -/
theorem Begins.append
    {frontTokens backTokens : List Token}
    {text middle rest : List Char}
    (front : Begins frontTokens text middle)
    (back : Begins backTokens middle rest) : Begins (frontTokens ++ backTokens) text rest := by
  unfold Begins at front back ⊢
  rw [front, back, Option.map_map]
  congr 1
  funext found
  rw [Function.comp, List.append_assoc]

/-- The tokens of a text that begins with some tokens begin with them. -/
theorem Begins.tokens_eq
    {front tokens : List Token}
    {text rest : List Char}
    {tail : String}
    (begins : Begins front text rest)
    (scanned : scanFrom [] text = some (tokens, tail)) :
    ∃ more, tokens = front ++ more ∧ scanFrom [] rest = some (more, tail) := by
  unfold Begins at begins
  rw [begins] at scanned
  obtain ⟨⟨more, _⟩, scannedRest, same⟩ := Option.map_eq_some_iff.mp scanned
  cases same
  exact ⟨more, rfl, scannedRest⟩

/-! ## Gaps -/

/-- White space and comments that end before any token but a slash. -/
def IsGap (gap : String) : Prop :=
  ∀ c rest, isSpace c = false → c ≠ '/' →
    gapLength .outside (gap.toList ++ c :: rest) = some gap.toList.length

theorem isGap_of_spaces {gap : String} (areSpaces : gap.toList.all isSpace = true) : IsGap gap := by
  intro c rest noSpace noComment
  have outside (first : Char) (others : List Char) (noSlash : first ≠ '/') :
      gapLength .outside (first :: others) =
        if isSpace first then (gapLength .outside others).map (1 + ·) else some 0 := by
    rw [gapLength]
    · exact fun _ slash _ => noSlash slash
    · exact fun _ slash _ => noSlash slash
  generalize gap.toList = spaces at areSpaces
  induction spaces with
  | nil => rw [List.nil_append, outside c rest noComment, noSpace]; rfl
  | cons first others inductionHypothesis =>
      rw [List.all_cons, Bool.and_eq_true] at areSpaces
      have noSlash : first ≠ '/' := by
        rintro rfl
        exact absurd areSpaces.1 (by decide)
      rw [List.cons_append, outside _ _ noSlash, if_pos areSpaces.1,
        inductionHypothesis areSpaces.2]
      simp [Nat.add_comm]

/-! ## Tokens that stand apart -/

/-- A text that begins with no digit, and no point before a digit, begins with no number. -/
theorem Numeral.measure_eq_zero
    {c : Char}
    {rest : List Char}
    (noDigit : isDigit c = false)
    (noPoint : c = '.' → rest.head?.any isDigit = false) :
    (Numeral.measure (c :: rest)).2 = 0 := by
  have noZero : c ≠ '0' := by
    rintro rfl
    exact absurd noDigit (by decide)
  have noWhole : Numeral.whole (c :: rest) = 0 := by
    unfold Numeral.whole
    split <;> simp_all
  have noBase (letters : List Char) (digit : Char → Bool) :
      Numeral.based letters digit (c :: rest) = 0 := by
    unfold Numeral.based
    split <;> simp_all
  have noOctal : Numeral.octalInteger (c :: rest) = 0 := by
    unfold Numeral.octalInteger
    split <;> simp_all
  have noHex : Numeral.hexFloating (c :: rest) = 0 := by
    unfold Numeral.hexFloating
    split <;> simp_all
  have noFraction (point : c = '.') : groups isDigit rest = 0 := by
    have noDigits := noPoint point
    cases rest with
    | nil => rfl
    | cons next more => simp_all [groups]
  have noFloating : Numeral.decimalFloating (c :: rest) = 0 := by
    by_cases point : c = '.'
    · have noDigits : groups isDigit (c :: rest) = 0 := by simp [groups, noDigit]
      simp [Numeral.decimalFloating, noWhole, noDigits, noFraction point]
    · simp [Numeral.decimalFloating, noWhole, groups, noDigit, Numeral.mark, point]
  have noInteger : Numeral.decimalInteger (c :: rest) = 0 := by
    simp [Numeral.decimalInteger, noWhole]
  simp [Numeral.measure, Numeral.longer, noBase, noOctal, noHex, noFloating, noInteger]

/-- Symbols of one character that no longer one begins with. -/
def loneSymbols : List Char := ['(', ')', '\x7b', '\x7d', '[', ']', ',', ';', '?', '>']

/-- Symbols of one character that stand in types and statements. -/
def briefSymbols : List Char := '.' :: '<' :: '=' :: loneSymbols

/-- Whether a character that follows a symbol leaves it as it is. -/
def mayFollow (symbol next : Char) : Bool :=
  match symbol with
  | '.' => next != '.' && !isDigit next
  | '<' => next != '<' && next != '='
  | '=' => next != '='
  | _ => true

/-- A symbol that is left as it is is no part of a longer one. -/
theorem symbolLength_of_mayFollow
    {symbol : Char}
    {rest : List Char}
    (brief : symbol ∈ briefSymbols)
    (may : rest.head?.all (mayFollow symbol) = true) : symbolLength (symbol :: rest) = 1 := by
  simp only [briefSymbols, loneSymbols, List.mem_cons, List.not_mem_nil, or_false] at brief
  rcases brief with rfl | rfl | rfl | rfl | rfl | rfl | rfl | rfl | rfl | rfl | rfl | rfl | rfl
  case inl | inr.inl | inr.inr.inl =>
    cases rest with
    | nil => rfl
    | cons next more =>
        have differs (other : Char) : next ≠ other ↔ (other == next) = false := by
          rw [beq_eq_false_iff_ne, ne_comm]
        simp only [List.head?_cons, Option.all_some, mayFollow, Bool.and_eq_true, bne_iff_ne,
          differs] at may
        simp [symbolLength, longSymbols, List.find?, List.isPrefixOf, shortSymbols, may]
  all_goals rfl

/-- What is known of the characters of brief symbols. -/
def isSymbolStart (c : Char) : Bool :=
  c != '"' && c != '\'' && c != '/' && !isNameStart c && !isDigit c && !isSpace c

/-- Whether a word or a brief symbol ends before what follows it. -/
def Token.standsApart (token : Token) (rest : List Char) : Bool :=
  match token.kind, token.text.toList with
  | .word, _ => isWord token.text && !rest.head?.any isNameContinue
  | .symbol, [symbol] => briefSymbols.contains symbol && rest.head?.all (mayFollow symbol)
  | _, _ => false

theorem Token.standsApart_word
    {gap text : String}
    {rest : List Char}
    (spelled : isWord text = true)
    (ends : rest.head?.any isNameContinue = false) :
    (Token.mk gap text .word).standsApart rest = true := by
  simp [standsApart, spelled, ends]

theorem Token.standsApart_lone
    {gap text : String}
    {symbol : Char}
    (text_eq : text.toList = [symbol])
    (lone : loneSymbols.contains symbol = true)
    (rest : List Char) : (Token.mk gap text .symbol).standsApart rest = true := by
  have lone_mem := List.contains_iff_mem.mp lone
  have may : mayFollow symbol = fun _ => true := by
    simp only [loneSymbols, List.mem_cons, List.not_mem_nil, or_false] at lone_mem
    rcases lone_mem with rfl | rfl | rfl | rfl | rfl | rfl | rfl | rfl | rfl | rfl <;> rfl
  have followed : rest.head?.all (mayFollow symbol) = true := by
    rw [may]
    cases rest <;> rfl
  simp [standsApart, text_eq, briefSymbols, lone_mem, followed]

/-- The lexeme of a text that begins with no quote. -/
theorem lexeme_of_noQuote
    {c : Char}
    {rest : List Char}
    (noString : c ≠ '"')
    (noCharacter : c ≠ '\'') :
    lexeme [] (c :: rest) =
      if isNameStart c then some ⟨.word, 1 + (rest.takeWhile isNameContinue).length, []⟩
      else if 0 < (Numeral.measure (c :: rest)).2 then
        some ⟨(Numeral.measure (c :: rest)).1, (Numeral.measure (c :: rest)).2, []⟩
      else some ⟨.symbol, symbolLength (c :: rest), countBrace c []⟩ := by
  rw [lexeme]
  · exact fun _ quote _ => noString quote
  · exact fun quote => noString quote
  · exact fun quote => noCharacter quote
  · exact fun _ _ _ nothing => by cases nothing

/-- A token that stands apart is cut off. -/
theorem lexeme_of_standsApart
    {token : Token}
    {rest : List Char}
    (apart : token.standsApart rest = true) :
    lexeme [] (token.text.toList ++ rest) = some ⟨token.kind, token.text.toList.length, []⟩ ∧
      ∃ first others, token.text.toList = first :: others ∧ isSpace first = false ∧
        first ≠ '/' := by
  unfold Token.standsApart at apart
  split at apart
  · next isKind =>
      rw [Bool.and_eq_true, Bool.not_eq_true'] at apart
      obtain ⟨first, others, text_eq, starts, continues⟩ := isWord_iff.mp apart.1
      have differs (other : Char) (noStart : isNameStart other = false) : first ≠ other := by
        rintro rfl
        rw [starts] at noStart
        cases noStart
      have whole : (others ++ rest).takeWhile isNameContinue = others := by
        rw [List.takeWhile_append_of_pos continues]
        cases rest with
        | nil => exact List.append_nil _
        | cons next more =>
            rw [List.takeWhile_cons_of_neg (by simpa using apart.2), List.append_nil]
      refine ⟨?_, first, others, text_eq, isSpace_of_isNameStart starts, differs _ (by decide)⟩
      rw [text_eq, List.cons_append,
        lexeme_of_noQuote (differs _ (by decide)) (differs _ (by decide)), if_pos starts, whole,
        List.length_cons, Nat.add_comm, isKind]
  · next symbol isKind text_eq =>
      rw [Bool.and_eq_true, List.contains_iff_mem] at apart
      have starts := List.all_eq_true.mp (by decide : briefSymbols.all isSymbolStart = true)
      have start := starts symbol apart.1
      simp only [isSymbolStart, Bool.and_eq_true, bne_iff_ne, ne_eq, Bool.not_eq_true'] at start
      obtain ⟨⟨⟨⟨⟨noString, noCharacter⟩, noComment⟩, noStart⟩, noDigit⟩, noSpace⟩ := start
      have noNumber : (Numeral.measure (symbol :: rest)).2 = 0 := by
        refine Numeral.measure_eq_zero noDigit fun point => ?_
        subst point
        cases rest with
        | nil => rfl
        | cons next more =>
            simp only [List.head?_cons, Option.all_some, mayFollow, Bool.and_eq_true,
              Bool.not_eq_true'] at apart
            exact apart.2.2
      refine ⟨?_, symbol, [], text_eq, noSpace, noComment⟩
      rw [text_eq, List.singleton_append, lexeme_of_noQuote noString noCharacter,
        if_neg (by simp [noStart]), if_neg (by omega), symbolLength_of_mayFollow apart.1 apart.2,
        isKind]
      rfl
  · cases apart

/-! ## Cutting written tokens -/

/-- The text of some tokens with their gaps, and what follows them. -/
def textBefore (rest : List Char) (tokens : List Token) : List Char :=
  tokens.foldr (fun token more => token.gap.toList ++ (token.text.toList ++ more)) rest

/-- Each of some tokens has a gap before it and stands apart from what follows. -/
def Apart (rest : List Char) : List Token → Prop
  | [] => True
  | first :: others =>
    IsGap first.gap ∧ first.standsApart (textBefore rest others) = true ∧ Apart rest others

theorem textBefore_eq (rest : List Char) (tokens : List Token) :
    textBefore rest tokens = (sourceOf tokens).toList ++ rest := by
  induction tokens with
  | nil => rfl
  | cons first others inductionHypothesis =>
      have source_eq : sourceOf (first :: others) = first.gap ++ first.text ++ sourceOf others := by
        simp [sourceOf, Token.source]
      rw [source_eq, String.toList_append, String.toList_append, List.append_assoc,
        List.append_assoc, ← inductionHypothesis]
      rfl

/-- Tokens that stand apart are what their text begins with. -/
theorem begins_of_apart
    {rest : List Char}
    {tokens : List Token}
    (apart : Apart rest tokens) : Begins tokens (textBefore rest tokens) rest := by
  induction tokens with
  | nil =>
      unfold Begins
      simp [textBefore]
  | cons first others inductionHypothesis =>
      obtain ⟨isGap, stands, apartOthers⟩ := apart
      suffices begins : Begins [first] (first.gap.toList ++ (first.text.toList ++
          textBefore rest others)) (textBefore rest others) from
        begins.append (inductionHypothesis apartOthers)
      change scanFrom [] (first.gap.toList ++ (first.text.toList ++ textBefore rest others)) = _
      generalize textBefore rest others = more at stands ⊢
      obtain ⟨lexeme_eq, c, spelled, text_eq, noSpace, noComment⟩ := lexeme_of_standsApart stands
      have gap_eq := isGap c (spelled ++ more) noSpace noComment
      rw [← List.cons_append, ← text_eq] at gap_eq
      have notEnded : first.text.toList ++ more ≠ [] := by simp [text_eq]
      have nonempty : 0 < first.text.toList.length := by simp [text_eq]
      rw [scanFrom, gap_eq]
      dsimp only
      rw [List.drop_left, dif_neg notEnded, lexeme_eq]
      dsimp only
      rw [dif_pos nonempty, List.drop_left, List.take_left, List.take_left, String.ofList_toList,
        String.ofList_toList]
      cases scanFrom [] more <;> rfl

end Java

end JupiterMigration
