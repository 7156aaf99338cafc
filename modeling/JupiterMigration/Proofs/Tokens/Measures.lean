import JupiterMigration.Proofs.Tokens.Apart

/-!
# Numbers before a stop

White space and some symbols go on with no token (`Text.isStop`).  No number goes on across such a
stop, so what is measured before one does not depend on what follows it: this holds of every part of
a number (`Text.EndsBefore`) and so of the longest number that a text begins with
(`Numeral.measure_append`).
-/

namespace JupiterMigration

namespace Text

/-- White space, or a symbol that goes on with no other one. -/
def isStop (c : Char) : Bool :=
  isSpace c || [')', '/', ';', '\x7d'].contains c

/-- The code points of stops. -/
def stopCodes : List Nat :=
  spaceCodes ++ [0x29, 0x2F, 0x3B, 0x7D]

theorem mem_stopCodes {c : Char} (stop : isStop c = true) : c.toNat ∈ stopCodes := by
  rw [isStop, Bool.or_eq_true, List.contains_iff_mem] at stop
  rw [stopCodes, List.mem_append]
  refine stop.imp mem_spaceCodes fun symbol => ?_
  simp only [List.mem_cons, List.not_mem_nil, or_false] at symbol
  rcases symbol with rfl | rfl | rfl | rfl <;> decide

/-- A stop is of no kind that holds of no code point of a stop. -/
theorem eq_false_of_isStop
    {kind : Char → Bool}
    (disjoint : stopCodes.all (fun code => !kind (Char.ofNat code)) = true)
    {c : Char}
    (stop : isStop c = true) : kind c = false := by
  have notOfKind := List.all_eq_true.mp disjoint c.toNat (mem_stopCodes stop)
  rwa [Char.ofNat_toNat, Bool.not_eq_true'] at notOfKind

/-- No stop is of a kind. -/
def IsUnstopped (kind : Char → Bool) : Prop :=
  ∀ c, isStop c = true → kind c = false

theorem isUnstopped
    {kind : Char → Bool}
    (disjoint : stopCodes.all (fun code => !kind (Char.ofNat code)) = true) : IsUnstopped kind :=
  fun _ => eq_false_of_isStop disjoint

theorem isUnstopped_isDigit : IsUnstopped isDigit := isUnstopped (by decide)

theorem isUnstopped_isNameContinue : IsUnstopped isNameContinue := by
  refine isUnstopped ?_
  simp only [isNameContinue, isNameStart, inRanges, ← Array.any_toList]
  decide +kernel

theorem ne_of_isStop
    {stop other : Char}
    (stops : isStop stop = true)
    (unstopped : isStop other = false) : stop ≠ other := by
  rintro rfl
  rw [stops] at unstopped
  cases unstopped

/-- A measure of the text up to a stop does not depend on what follows. -/
def EndsBefore (measure : List Char → Nat) : Prop :=
  ∀ stop, isStop stop = true → ∀ front back,
    measure (front ++ stop :: back) = measure front ∧ measure front ≤ front.length

namespace EndsBefore

variable {measure : List Char → Nat}

/-- Nor does the measure of what stands from some place on before the stop. -/
theorem drop
    (ends : EndsBefore measure)
    {stop : Char}
    (stops : isStop stop = true)
    {front : List Char}
    {count : Nat}
    (inside : count ≤ front.length)
    (back : List Char) :
    measure ((front ++ stop :: back).drop count) = measure (front.drop count) ∧
      count + measure (front.drop count) ≤ front.length := by
  obtain ⟨same, bounded⟩ := ends stop stops (front.drop count) back
  rw [List.drop_append_of_le_length inside]
  rw [List.length_drop] at bounded
  exact ⟨same, by omega⟩

theorem max
    {other : List Char → Nat}
    (ends : EndsBefore measure)
    (otherEnds : EndsBefore other) :
    EndsBefore fun text => Nat.max (measure text) (other text) := by
  intro stop stops front back
  obtain ⟨same, bounded⟩ := ends stop stops front back
  obtain ⟨otherSame, otherBounded⟩ := otherEnds stop stops front back
  refine ⟨?_, Nat.max_le.mpr ⟨bounded, otherBounded⟩⟩
  dsimp only
  rw [same, otherSame]

end EndsBefore

section Groups

variable
  (digit : Char → Bool)
  (unstopped : IsUnstopped digit)
  (noUnderscore : digit '_' = false)

include unstopped noUnderscore

theorem endsBefore_groupTail : EndsBefore (groupTail digit) := by
  intro stop stops front back
  fun_induction groupTail digit front with
  | case1 c rest isDigit inductionHypothesis =>
      rw [List.cons_append, List.cons_append, groupTail, if_pos isDigit, inductionHypothesis.1]
      refine ⟨rfl, ?_⟩
      simp only [List.length_cons]
      omega
  | case2 c rest noDigit =>
      rw [List.cons_append, List.cons_append, groupTail, if_neg noDigit]
      exact ⟨rfl, Nat.zero_le _⟩
  | case3 c rest notGroup isDigit inductionHypothesis =>
      have notUnderscore : c ≠ '_' := by
        rintro rfl
        rw [noUnderscore] at isDigit
        cases isDigit
      rw [List.cons_append, groupTail, if_pos isDigit, inductionHypothesis.1]
      · refine ⟨rfl, ?_⟩
        simp only [List.length_cons]
        omega
      · exact fun _ _ underscore _ => notUnderscore underscore
  | case4 c rest notGroup noDigit =>
      refine ⟨?_, Nat.zero_le _⟩
      by_cases underscore : c = '_'
      · subst underscore
        cases rest with
        | nil => rw [List.cons_append, List.nil_append, groupTail, unstopped stop stops]; rfl
        | cons next more => exact absurd rfl (notGroup next more rfl)
      · rw [List.cons_append, groupTail, if_neg noDigit]
        exact fun _ _ same _ => underscore same
  | case5 =>
      refine ⟨?_, Nat.zero_le _⟩
      rw [List.nil_append, groupTail, unstopped stop stops]
      · rfl
      · exact fun _ _ underscore _ => ne_of_isStop stops (by decide) underscore

theorem endsBefore_groups : EndsBefore (groups digit) := by
  intro stop stops front back
  cases front with
  | nil => simp [groups, unstopped stop stops]
  | cons c rest =>
      obtain ⟨same, bounded⟩ :=
        endsBefore_groupTail digit unstopped noUnderscore stop stops rest back
      rw [List.cons_append, groups, groups, same]
      refine ⟨rfl, ?_⟩
      rw [List.length_cons]
      split <;> omega

end Groups

end Text

namespace Java

open Text

namespace Numeral

theorem endsBefore_mark (chars : List Char) (unstopped : IsUnstopped chars.contains) :
    EndsBefore (mark chars) := by
  intro stop stops front back
  cases front with
  | nil => rw [List.nil_append, mark, unstopped stop stops]; exact ⟨rfl, Nat.zero_le _⟩
  | cons c rest =>
      refine ⟨rfl, ?_⟩
      rw [mark, List.length_cons]
      split <;> omega

theorem wholeTail_append
    {stop : Char}
    (stops : isStop stop = true)
    (held : Nat)
    (front back : List Char) :
    wholeTail held (front ++ stop :: back) = wholeTail held front ∧
      wholeTail held front ≤ held + front.length := by
  fun_induction wholeTail held front with
  | case1 held c rest isDigit inductionHypothesis =>
      rw [List.cons_append, wholeTail, if_pos isDigit, inductionHypothesis.1]
      refine ⟨rfl, ?_⟩
      rw [List.length_cons]
      omega
  | case2 held c rest noDigit underscore inductionHypothesis =>
      rw [List.cons_append, wholeTail, if_neg noDigit, if_pos underscore, inductionHypothesis.1]
      refine ⟨rfl, ?_⟩
      rw [List.length_cons]
      omega
  | case3 held c rest noDigit noUnderscore =>
      rw [List.cons_append, wholeTail, if_neg noDigit, if_neg noUnderscore]
      exact ⟨rfl, Nat.zero_le _⟩
  | case4 held =>
      have noUnderscore : (stop == '_') = false := by
        simpa using ne_of_isStop stops (by decide)
      simp [wholeTail, isUnstopped_isDigit stop stops, noUnderscore]

theorem whole_eq_zero
    {c : Char}
    (noDigit : isDigit c = false)
    (rest : List Char) : whole (c :: rest) = 0 := by
  have noZero : c ≠ '0' := by
    rintro rfl
    exact absurd noDigit (by decide)
  unfold whole
  split <;> simp_all

/-- A digit and what is measured behind it, unless it is a zero. -/
theorem whole_cons
    {c d : Char}
    (noZero : c ≠ '0')
    (digit : isDigit c = true)
    (noUnderscore : d ≠ '_')
    (rest : List Char) :
    whole (c :: d :: rest) = if isDigit d then 2 + wholeTail 0 rest else 1 := by
  rw [whole, if_pos digit]
  · exact noZero
  · exact fun _ _ same _ => noUnderscore same

theorem whole_underscore
    {c d : Char}
    (noZero : c ≠ '0')
    (digit : isDigit c = true)
    (rest : List Char) :
    whole (c :: '_' :: d :: rest) = if isDigit d then 3 + wholeTail 0 rest else 1 := by
  rw [whole, if_pos digit]
  exact noZero

theorem endsBefore_whole : EndsBefore whole := by
  intro stop stops front back
  have noDigit := isUnstopped_isDigit stop stops
  rcases front with _ | ⟨c, rest⟩
  · exact ⟨whole_eq_zero noDigit back, Nat.zero_le _⟩
  by_cases zero : c = '0'
  · subst zero
    exact ⟨rfl, by simp [whole]⟩
  cases digit : isDigit c with
  | false => exact ⟨by rw [List.cons_append, whole_eq_zero digit, whole_eq_zero digit],
      by rw [whole_eq_zero digit]; exact Nat.zero_le _⟩
  | true =>
      rcases rest with _ | ⟨d, rest⟩
      · have alone : whole [c] = 1 := by rw [whole, if_pos digit]; exact zero
        rw [List.cons_append, List.nil_append,
          whole_cons zero digit (ne_of_isStop stops (by decide)), alone]
        exact ⟨by simp [noDigit], Nat.le_refl _⟩
      by_cases underscore : d = '_'
      · subst underscore
        rcases rest with _ | ⟨e, rest⟩
        · have notDigit : isDigit '_' = false := by decide
          have alone : whole [c, '_'] = 1 := by simp [whole, digit, notDigit]
          rw [List.cons_append, List.cons_append, List.nil_append, whole_underscore zero digit,
            alone]
          exact ⟨by simp [noDigit], by simp⟩
        · obtain ⟨same, bounded⟩ := wholeTail_append stops 0 rest back
          simp only [List.cons_append]
          rw [whole_underscore zero digit, whole_underscore zero digit, same]
          refine ⟨rfl, ?_⟩
          simp only [List.length_cons]
          split <;> omega
      · obtain ⟨same, bounded⟩ := wholeTail_append stops 0 rest back
        simp only [List.cons_append]
        rw [whole_cons zero digit underscore, whole_cons zero digit underscore, same]
        refine ⟨rfl, ?_⟩
        simp only [List.length_cons]
        split <;> omega

theorem endsBefore_exponent (letters : List Char) (unstopped : IsUnstopped letters.contains) :
    EndsBefore (exponent letters) := by
  intro stop stops front back
  obtain ⟨letter_eq, letterInside⟩ := endsBefore_mark letters unstopped stop stops front back
  unfold exponent
  rw [letter_eq]
  by_cases noLetter : mark letters front = 0
  · rw [if_pos noLetter, if_pos noLetter]
    exact ⟨rfl, Nat.zero_le _⟩
  · have some : 1 ≤ front.length := by omega
    obtain ⟨sign_eq, signInside⟩ :=
      (endsBefore_mark ['+', '-'] (isUnstopped (by decide))).drop stops some back
    have digits := endsBefore_groups isDigit isUnstopped_isDigit (by decide)
    obtain ⟨digits_eq, digitsInside⟩ := digits.drop stops signInside back
    rw [if_neg noLetter, if_neg noLetter]
    dsimp only
    rw [sign_eq, List.drop_drop, List.drop_drop, digits_eq]
    refine ⟨rfl, ?_⟩
    split <;> omega

section Marked

variable
  {stop : Char}
  (stops : isStop stop = true)
  {front : List Char}
  {count : Nat}
  (inside : count ≤ front.length)
  (back : List Char)

include stops inside

theorem withMark_append (marks : List Char) (unstopped : IsUnstopped marks.contains) :
    withMark marks (front ++ stop :: back) count = withMark marks front count ∧
      withMark marks front count ≤ front.length := by
  obtain ⟨same, bounded⟩ := (endsBefore_mark marks unstopped).drop stops inside back
  unfold withMark
  rw [same]
  exact ⟨rfl, bounded⟩

theorem withExponent_append (letters : List Char) (unstopped : IsUnstopped letters.contains) :
    withExponent letters (front ++ stop :: back) count = withExponent letters front count ∧
      withExponent letters front count ≤ front.length := by
  obtain ⟨same, bounded⟩ := (endsBefore_exponent letters unstopped).drop stops inside back
  unfold withExponent
  rw [same]
  exact withMark_append stops bounded back floatMarks (isUnstopped (by decide))

end Marked

theorem endsBefore_based
    (letters : List Char)
    (digit : Char → Bool)
    (noLetter : IsUnstopped letters.contains)
    (unstopped : IsUnstopped digit)
    (noUnderscore : digit '_' = false) : EndsBefore (based letters digit) := by
  intro stop stops front back
  have other {c : Char} (noZero : c ≠ '0') (rest : List Char) :
      based letters digit (c :: rest) = 0 := by
    unfold based
    split
    · next same => exact absurd (List.cons.inj same).1 noZero
    · rfl
  rcases front with _ | ⟨c, front⟩
  · exact ⟨other (ne_of_isStop stops (by decide)) back, Nat.zero_le _⟩
  by_cases zero : c = '0'
  · subst zero
    rcases front with _ | ⟨letter, rest⟩
    · refine ⟨?_, Nat.zero_le _⟩
      rw [List.cons_append, List.nil_append, based, noLetter stop stops]
      rfl
    · obtain ⟨same, bounded⟩ := endsBefore_groups digit unstopped noUnderscore stop stops rest back
      have inside : 2 + groups digit rest ≤ ('0' :: letter :: rest).length := by
        simp only [List.length_cons]
        omega
      obtain ⟨marked_eq, markedInside⟩ :=
        withMark_append stops inside back longMarks (isUnstopped (by decide))
      simp only [List.cons_append] at marked_eq ⊢
      rw [based, based, same]
      dsimp only
      rw [marked_eq]
      refine ⟨rfl, ?_⟩
      split
      · split
        · exact Nat.zero_le _
        · exact markedInside
      · exact Nat.zero_le _
  · rw [List.cons_append, other zero, other zero]
    exact ⟨rfl, Nat.zero_le _⟩

theorem endsBefore_decimalInteger : EndsBefore decimalInteger := by
  intro stop stops front back
  obtain ⟨same, bounded⟩ := endsBefore_whole stop stops front back
  obtain ⟨marked_eq, markedInside⟩ :=
    withMark_append stops bounded back longMarks (isUnstopped (by decide))
  unfold decimalInteger
  dsimp only
  rw [same, marked_eq]
  refine ⟨rfl, ?_⟩
  split
  · exact Nat.zero_le _
  · exact markedInside

theorem endsBefore_octalInteger : EndsBefore octalInteger := by
  intro stop stops front back
  have other {c : Char} (noZero : c ≠ '0') (rest : List Char) : octalInteger (c :: rest) = 0 := by
    unfold octalInteger
    split
    · next same => exact absurd (List.cons.inj same).1 noZero
    · rfl
  rcases front with _ | ⟨c, rest⟩
  · exact ⟨other (ne_of_isStop stops (by decide)) back, Nat.zero_le _⟩
  by_cases zero : c = '0'
  · subst zero
    have digits := endsBefore_groups isOctalDigit (isUnstopped (by decide)) (by decide)
    obtain ⟨same, bounded⟩ := digits stop stops rest back
    have inside : 1 + groups isOctalDigit rest ≤ ('0' :: rest).length := by
      rw [List.length_cons]
      omega
    obtain ⟨marked_eq, markedInside⟩ :=
      withMark_append stops inside back longMarks (isUnstopped (by decide))
    have based := endsBefore_based ['o', 'O'] isOctalDigit (isUnstopped (by decide))
      (isUnstopped (by decide)) (by decide)
    obtain ⟨based_eq, basedInside⟩ := based stop stops ('0' :: rest) back
    simp only [List.cons_append] at marked_eq based_eq ⊢
    rw [octalInteger, octalInteger, same, marked_eq, based_eq]
    refine ⟨rfl, Nat.max_le.mpr ⟨?_, basedInside⟩⟩
    split
    · exact Nat.zero_le _
    · exact markedInside
  · rw [List.cons_append, other zero, other zero]
    exact ⟨rfl, Nat.zero_le _⟩

/-- A number with a point in it, or before or behind it. -/
theorem endsBefore_pointed :
    EndsBefore fun text =>
      let digits := groups isDigit text
      if mark ['.'] (text.drop digits) = 0 then 0
      else
        let fraction := groups isDigit (text.drop (digits + 1))
        if digits + fraction = 0 then 0
        else withExponent ['e', 'E'] text (digits + 1 + fraction) := by
  intro stop stops front back
  have digits := endsBefore_groups isDigit isUnstopped_isDigit (by decide)
  have point := endsBefore_mark ['.'] (isUnstopped (by decide))
  obtain ⟨digits_eq, digitsInside⟩ := digits stop stops front back
  obtain ⟨point_eq, pointInside⟩ := point.drop stops digitsInside back
  dsimp only
  rw [digits_eq, point_eq]
  by_cases noPoint : mark ['.'] (front.drop (groups isDigit front)) = 0
  · rw [if_pos noPoint, if_pos noPoint]
    exact ⟨rfl, Nat.zero_le _⟩
  · have inside : groups isDigit front + 1 ≤ front.length := by omega
    obtain ⟨fraction_eq, fractionInside⟩ := digits.drop stops inside back
    obtain ⟨whole_eq, wholeInside⟩ :=
      withExponent_append stops fractionInside back ['e', 'E'] (isUnstopped (by decide))
    rw [if_neg noPoint, if_neg noPoint, fraction_eq, whole_eq]
    refine ⟨rfl, ?_⟩
    split
    · exact Nat.zero_le _
    · exact wholeInside

/-- A whole number with an exponent or a mark. -/
theorem endsBefore_bare :
    EndsBefore fun text =>
      let number := whole text
      if number = 0 then 0
      else
        let raised := number + exponent ['e', 'E'] (text.drop number)
        let marked := withMark floatMarks text raised
        if marked = number then 0 else marked := by
  intro stop stops front back
  obtain ⟨whole_eq, wholeInside⟩ := endsBefore_whole stop stops front back
  have exponent := endsBefore_exponent ['e', 'E'] (isUnstopped (by decide))
  obtain ⟨exponent_eq, exponentInside⟩ := exponent.drop stops wholeInside back
  obtain ⟨marked_eq, markedInside⟩ :=
    withMark_append stops exponentInside back floatMarks (isUnstopped (by decide))
  dsimp only
  rw [whole_eq, exponent_eq, marked_eq]
  refine ⟨rfl, ?_⟩
  split
  · exact Nat.zero_le _
  · split
    · exact Nat.zero_le _
    · exact markedInside

theorem endsBefore_decimalFloating : EndsBefore decimalFloating :=
  endsBefore_pointed.max endsBefore_bare

theorem mark_le_one (chars text : List Char) : mark chars text ≤ 1 := by
  unfold mark
  split
  · split <;> omega
  · omega

theorem hexFloating_append
    {stop : Char}
    (stops : isStop stop = true)
    (letter : Char)
    (rest back : List Char) :
    hexFloating ('0' :: letter :: (rest ++ stop :: back)) = hexFloating ('0' :: letter :: rest) ∧
      hexFloating ('0' :: letter :: rest) ≤ 2 + rest.length := by
  have digits := endsBefore_groups isHexDigit (isUnstopped (by decide)) (by decide)
  obtain ⟨digits_eq, digitsInside⟩ := digits stop stops rest back
  obtain ⟨point_eq, pointInside⟩ :=
    (endsBefore_mark ['.'] (isUnstopped (by decide))).drop stops digitsInside back
  rw [hexFloating, hexFloating, digits_eq]
  dsimp only
  rw [point_eq]
  have atMostOne := mark_le_one ['.'] (rest.drop (groups isHexDigit rest))
  generalize mark ['.'] (rest.drop (groups isHexDigit rest)) = point at *
  generalize groups isHexDigit rest = whole at *
  obtain ⟨fraction, fraction_eq, restFraction_eq, fractionInside⟩ : ∃ fraction,
      (if point = 0 then 0 else groups isHexDigit ((rest ++ stop :: back).drop (whole + 1))) =
        fraction ∧
      (if point = 0 then 0 else groups isHexDigit (rest.drop (whole + 1))) = fraction ∧
      whole + point + fraction ≤ rest.length := by
    by_cases noPoint : point = 0
    · exact ⟨0, if_pos noPoint, if_pos noPoint, by omega⟩
    · obtain ⟨same, bounded⟩ := digits.drop stops (by omega : whole + 1 ≤ rest.length) back
      rw [if_neg noPoint, if_neg noPoint, same]
      exact ⟨_, rfl, rfl, by omega⟩
  obtain ⟨power_eq, powerInside⟩ :=
    (endsBefore_exponent ['p', 'P'] (isUnstopped (by decide))).drop stops fractionInside back
  obtain ⟨ending_eq, endingInside⟩ :=
    (endsBefore_mark floatMarks (isUnstopped (by decide))).drop stops powerInside back
  rw [fraction_eq, restFraction_eq, power_eq, ending_eq]
  refine ⟨rfl, ?_⟩
  split
  · split
    · exact Nat.zero_le _
    · split <;> omega
  · exact Nat.zero_le _

theorem endsBefore_hexFloating : EndsBefore hexFloating := by
  intro stop stops front back
  have other {c : Char} (noZero : c ≠ '0') (rest : List Char) : hexFloating (c :: rest) = 0 := by
    unfold hexFloating
    split
    · next same => exact absurd (List.cons.inj same).1 noZero
    · rfl
  rcases front with _ | ⟨c, front⟩
  · exact ⟨other (ne_of_isStop stops (by decide)) back, Nat.zero_le _⟩
  by_cases zero : c = '0'
  · subst zero
    rcases front with _ | ⟨letter, rest⟩
    · have noLower : (stop == 'x') = false := by simpa using ne_of_isStop stops (by decide)
      have noUpper : (stop == 'X') = false := by simpa using ne_of_isStop stops (by decide)
      exact ⟨by simp [hexFloating, noLower, noUpper], Nat.zero_le _⟩
    · obtain ⟨same, bounded⟩ := hexFloating_append stops letter rest back
      refine ⟨same, ?_⟩
      simp only [List.length_cons]
      omega
  · rw [List.cons_append, other zero, other zero]
    exact ⟨rfl, Nat.zero_le _⟩

/-- Of forms that end before a stop, the longest one does, too. -/
theorem foldl_longer_append
    {stop : Char}
    (stops : isStop stop = true)
    (forms : List (TokenKind × (List Char → Nat)))
    (first : TokenKind × (List Char → Nat))
    (ends : ∀ form ∈ first :: forms, EndsBefore form.2)
    (front back : List Char) :
    (forms.map fun form => (form.1, form.2 (front ++ stop :: back))).foldl longer
        (first.1, first.2 (front ++ stop :: back)) =
      (forms.map fun form => (form.1, form.2 front)).foldl longer (first.1, first.2 front) := by
  congr 1
  · rw [(ends first List.mem_cons_self stop stops front back).1]
  · refine List.map_congr_left fun form inside => ?_
    rw [(ends form (List.mem_cons_of_mem _ inside) stop stops front back).1]

theorem foldl_longer_le
    {bound : Nat}
    {forms : List (TokenKind × Nat)}
    {first : TokenKind × Nat}
    (bounded : ∀ form ∈ first :: forms, form.2 ≤ bound) :
    (forms.foldl longer first).2 ≤ bound := by
  induction forms generalizing first with
  | nil => exact bounded first List.mem_cons_self
  | cons second rest inductionHypothesis =>
      simp only [List.forall_mem_cons] at bounded inductionHypothesis
      refine inductionHypothesis ⟨?_, bounded.2.2⟩
      unfold longer
      split
      · exact bounded.2.1
      · exact bounded.1

/-- The forms of a number. -/
def forms : List (TokenKind × (List Char → Nat)) :=
  [(TokenKind.integer .hexadecimal, based ['x', 'X'] isHexDigit),
    (.integer .octal, octalInteger), (.integer .binary, based ['b', 'B'] isBinaryDigit),
    (.floating, decimalFloating), (.floating, hexFloating)]

theorem measure_eq (text : List Char) :
    measure text = (forms.map fun form => (form.1, form.2 text)).foldl longer
      (.integer .decimal, decimalInteger text) := rfl

theorem endsBefore_forms :
    ∀ form ∈ (TokenKind.integer .decimal, decimalInteger) :: forms, EndsBefore form.2 := by
  have hexadecimal : EndsBefore (based ['x', 'X'] isHexDigit) :=
    endsBefore_based _ _ (isUnstopped (by decide)) (isUnstopped (by decide)) (by decide)
  have binary : EndsBefore (based ['b', 'B'] isBinaryDigit) :=
    endsBefore_based _ _ (isUnstopped (by decide)) (isUnstopped (by decide)) (by decide)
  simp [forms, hexadecimal, binary, endsBefore_decimalInteger, endsBefore_octalInteger,
    endsBefore_decimalFloating, endsBefore_hexFloating]

/-- The number before a stop is measured in the same way whatever follows. -/
theorem measure_append
    {stop : Char}
    (stops : isStop stop = true)
    (front back : List Char) : measure (front ++ stop :: back) = measure front :=
  foldl_longer_append stops forms (.integer .decimal, decimalInteger) endsBefore_forms front back

/-- A number is no longer than the text that it is measured in. -/
theorem measure_le (text : List Char) : (measure text).2 ≤ text.length := by
  rw [measure_eq]
  refine foldl_longer_le fun form inside => ?_
  rw [← List.map_cons (f := fun form => (form.1, form.2 text))
    (a := (TokenKind.integer .decimal, decimalInteger))] at inside
  obtain ⟨original, isOriginal, rfl⟩ := List.mem_map.mp inside
  exact (endsBefore_forms original isOriginal ';' (by decide) text []).2

end Numeral

end Java

end JupiterMigration
