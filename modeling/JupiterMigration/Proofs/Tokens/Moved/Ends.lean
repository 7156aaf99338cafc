import JupiterMigration.Proofs.Indentation.Lines
import JupiterMigration.Proofs.Tokens.Locality

/-!
# Where gaps and literals end in texts with the same lines

A gap, a string or a character literal that a text begins with is followed by the same lines in
every text with the same lines (`passAlike_of_sameLines`, `stringAlike_of_sameLines`,
`characterAlike_of_sameLines`).  What follows the text may be another one, as long as it goes on
with no token (`EndsAlike`).
-/

namespace JupiterMigration

namespace Java

open Text Layout

/-! ## Cuts in texts with the same lines -/

/-- Behind some characters of two texts, the texts go on with the same lines. -/
structure CutAlike (front front' : List Char) (count count' : Nat) : Prop where
  inside : count ≤ front.length
  inside' : count' ≤ front'.length
  lines : SameLines (front.drop count) (front'.drop count')

theorem CutAlike.after
    {front front' : List Char}
    {count count' : Nat}
    (cut : CutAlike front front' count count')
    (part part' : List Char) :
    CutAlike (part ++ front) (part' ++ front') (part.length + count) (part'.length + count') where
  inside := by
    rw [List.length_append]
    exact Nat.add_le_add_left cut.inside _
  inside' := by
    rw [List.length_append]
    exact Nat.add_le_add_left cut.inside' _
  lines := by
    rw [List.drop_length_add_append, List.drop_length_add_append]
    exact cut.lines

theorem cutAlike_self
    {front front' : List Char}
    (part : List Char)
    (lines : SameLines front front') :
    CutAlike (part ++ front) (part ++ front') part.length part.length :=
  CutAlike.after ⟨Nat.zero_le _, Nat.zero_le _, lines⟩ part part

/-- What follows a text begins with a stop, and with a slash only if it did so before. -/
def FollowAlike (back other : List Char) : Prop :=
  ∃ c rest d more, back = c :: rest ∧ other = d :: more ∧ isStop c = true ∧ isStop d = true ∧
    (d = '/' → c = '/')

/-- A semicolon or a brace ends a text, or what follows it goes on with no token. -/
def EndsAlike (front back other : List Char) : Prop :=
  (∃ c ∈ front.getLast?, c = ';' ∨ c = '\x7d') ∨ FollowAlike back other

section Cuts

variable
  {state : GapState}
  {block : Bool}
  {ending : StringEnd}
  {gap : Nat}
  {front front' back other : List Char}

theorem EndsAlike.of_append
    {word rest : List Char}
    (ends : EndsAlike (word ++ rest) back other)
    (nonempty : rest ≠ []) : EndsAlike rest back other :=
  ends.imp_left fun ⟨c, isLast, closes⟩ => ⟨c, by
    rw [List.getLast?_append, List.getLast?_eq_some_getLast nonempty, Option.some_or] at isLast
    rwa [List.getLast?_eq_some_getLast nonempty], closes⟩

theorem exists_of_cons_eq_append
    {c : Char}
    {rest more front : List Char}
    (same : c :: rest = front ++ more)
    (some : 0 < front.length) : ∃ others, front = c :: others ∧ rest = others ++ more := by
  cases front with
  | nil => cases some
  | cons first others =>
      cases same
      exact ⟨others, rfl, rfl⟩

/-! ## Gaps -/

/-- Where no gap stands before a text, none stands before a text with the same lines. -/
theorem gapLength_eq_zero_of_sameLines
    (ends : EndsAlike front back other)
    (none : gapLength .outside (front ++ back) = some 0)
    (nonempty : front ≠ [])
    (lines : SameLines front front') : gapLength .outside (front' ++ other) = some 0 := by
  obtain ⟨c, more, rfl⟩ := List.exists_cons_of_ne_nil nonempty
  rw [List.cons_append, gapLength_eq_zero_iff] at none
  have noLineFeed : c ≠ '\n' := by
    rintro rfl
    exact absurd none.1 (by decide)
  obtain ⟨more', rfl, later⟩ := lines.exists_of_cons noLineFeed
  rw [List.cons_append, gapLength_eq_zero_iff]
  refine ⟨none.1, fun slash d isHead => ?_⟩
  subst slash
  rcases more with _ | ⟨e, more⟩
  · obtain rfl := later.eq_nil
    rcases ends with ⟨_, isLast, closes⟩ | ⟨first, _, last, _, rfl, rfl, -, stops, same⟩
    · obtain rfl := Option.some.inj isLast
      exact absurd closes (by decide)
    · obtain rfl := Option.some.inj isHead
      refine ⟨fun isSlash => (none.2 rfl first rfl).1 (same isSlash), ?_⟩
      rintro rfl
      exact absurd stops (by decide)
  · rw [List.head?_append, later.head?_eq] at isHead
    exact none.2 rfl d isHead

/-- Spaces and tabs belong to a gap. -/
theorem gapLength_indent
    {indent : List Char}
    (blank : ∀ c ∈ indent, isIndent c = true)
    (text : List Char) :
    gapLength state (indent ++ text) = (gapLength state text).map (indent.length + ·) := by
  induction indent with
  | nil => simp
  | cons c indent inductionHypothesis =>
      rw [List.forall_mem_cons] at blank
      have step : gapLength state (c :: (indent ++ text)) =
          (gapLength state (indent ++ text)).map (1 + ·) := by
        have isBlank := blank.1
        simp only [isIndent, Bool.or_eq_true, beq_iff_eq] at isBlank
        rcases isBlank with rfl | rfl <;> cases state <;> rfl
      rw [List.cons_append, step, inductionHypothesis blank.2, Option.map_map]
      congr 1
      funext length
      simp only [Function.comp, List.length_cons]
      omega

/-- A gap in front of a text, and one in front of another text that goes on with the same lines. -/
def PassAlike (state : GapState) (front front' other : List Char) (gap : Nat) : Prop :=
  ∃ gap', gapLength state (front' ++ other) = some gap' ∧ CutAlike front front' gap gap'

namespace PassAlike

theorem after
    {next : GapState}
    (part : List Char)
    (step : gapLength state (part ++ (front' ++ other)) =
      (gapLength next (front' ++ other)).map (part.length + ·))
    (pass : PassAlike next front front' other gap) :
    PassAlike state (part ++ front) (part ++ front') other (part.length + gap) := by
  obtain ⟨gap', found, cut⟩ := pass
  exact ⟨part.length + gap', by rw [List.append_assoc, step, found]; rfl, cut.after part part⟩

theorem indented
    {indent : List Char}
    (blank : ∀ c ∈ indent, isIndent c = true)
    (pass : PassAlike state front front' other gap) :
    PassAlike state front (indent ++ front') other gap := by
  obtain ⟨gap', found, cut⟩ := pass
  have cutAgain := cut.after [] indent
  rw [List.nil_append, List.length_nil, Nat.zero_add] at cutAgain
  exact ⟨indent.length + gap', by rw [List.append_assoc, gapLength_indent blank, found]; rfl,
    cutAgain⟩

/-- Indentation that is left out does not count. -/
theorem outdented {c : Char} (pass : PassAlike state front front' other gap) :
    PassAlike state (c :: front) front' other (1 + gap) := by
  obtain ⟨gap', found, cut⟩ := pass
  have cutAgain := cut.after [c] []
  rw [List.nil_append, List.length_nil, Nat.zero_add] at cutAgain
  exact ⟨gap', found, cutAgain⟩

end PassAlike

/-- A character that stands in a gap is passed over, or is indentation that is left out. -/
theorem PassAlike.of_cons
    {c : Char}
    (lines : SameLines ('\n' :: c :: front) ('\n' :: front'))
    (step : ∀ more, SameLines (c :: front) (c :: more) →
      gapLength state (c :: (more ++ other)) = (gapLength state (more ++ other)).map (1 + ·))
    (later : ∀ more, SameLines ('\n' :: front) ('\n' :: more) →
      PassAlike state front more other gap) :
    PassAlike state (c :: front) front' other (1 + gap) := by
  rcases lines.cases_behind with ⟨-, second⟩ | ⟨-, indent, more, rfl, blank, same⟩
  · exact (later front' second).outdented
  · exact .indented blank (.after [c] (step more same) (later more same.behind_tail))

/-- The gap that a text begins with is followed by the same lines in a text with the same lines. -/
theorem passAlike_of_sameLines
    {text : List Char}
    (ends : EndsAlike front back other)
    (found : gapLength state text = some gap)
    (text_eq : text = front ++ back)
    (inside : gap < front.length)
    (lines : SameLines ('\n' :: front) ('\n' :: front')) :
    PassAlike state front front' other gap := by
  have later (word : List Char) {rest : List Char} (ends : EndsAlike (word ++ rest) back other)
      {length : Nat} (inside : length < rest.length) : EndsAlike rest back other :=
    ends.of_append (List.ne_nil_of_length_pos (by omega))
  fun_induction gapLength state text generalizing front front' gap with
  | case1 rest inductionHypothesis | case2 rest inductionHypothesis
  | case7 rest inductionHypothesis =>
      obtain ⟨length, foundLater, rfl⟩ := Option.map_eq_some_iff.mp found
      obtain ⟨_, rfl, rest_eq⟩ := exists_of_cons_eq_append text_eq (by omega)
      rw [List.length_cons] at inside
      obtain ⟨others, rfl, rfl⟩ := exists_of_cons_eq_append rest_eq (by omega)
      rw [List.length_cons] at inside
      have fits : length < others.length := by omega
      obtain ⟨indent, _, rfl, blank, same⟩ := lines.exists_indented rfl
      obtain ⟨others', rfl, last⟩ := (same.tail (by decide)).exists_of_cons (by decide)
      refine .indented blank (.after [_, _] ?_
        (inductionHypothesis (later [_, _] ends fits) foundLater rfl fits last.behind))
      rfl
  | case3 c rest _ _ space inductionHypothesis =>
      obtain ⟨length, foundLater, rfl⟩ := Option.map_eq_some_iff.mp found
      obtain ⟨others, rfl, rfl⟩ := exists_of_cons_eq_append text_eq (by omega)
      rw [List.length_cons] at inside
      have fits : length < others.length := by omega
      have noSlash : c ≠ '/' := by
        rintro rfl
        exact absurd space (by decide)
      refine .of_cons lines (fun more _ => ?_) fun _ second =>
        inductionHypothesis (later [_] ends fits) foundLater rfl fits second
      rw [gapLength_outside (fun _ slash _ => noSlash slash) (fun _ slash _ => noSlash slash),
        if_pos space]
  | case4 c rest noLine noBlock noSpace =>
      cases found
      have none : gapLength .outside (c :: rest) = some 0 := by
        rw [gapLength_outside noLine noBlock, if_neg noSpace]
      obtain ⟨others, rfl, rfl⟩ := exists_of_cons_eq_append text_eq (by omega)
      rcases lines.cases_behind with ⟨isBlank, -⟩ | ⟨-, indent, rest', rfl, blank, same⟩
      · exact absurd (isSpace_of_isIndent isBlank) noSpace
      · refine .indented blank ⟨0, ?_, cutAlike_self [] same⟩
        exact gapLength_eq_zero_of_sameLines ends none (List.cons_ne_nil _ _) same
  | case5 rest inductionHypothesis =>
      obtain ⟨length, foundLater, rfl⟩ := Option.map_eq_some_iff.mp found
      obtain ⟨others, rfl, rfl⟩ := exists_of_cons_eq_append text_eq (by omega)
      rw [List.length_cons] at inside
      have fits : length < others.length := by omega
      obtain ⟨indent, _, rfl, blank, same⟩ := lines.exists_indented rfl
      exact .indented blank (.after ['\n'] rfl
        (inductionHypothesis (later [_] ends fits) foundLater rfl fits same.behind_tail))
  | case6 c rest noLineFeed inductionHypothesis =>
      obtain ⟨length, foundLater, rfl⟩ := Option.map_eq_some_iff.mp found
      obtain ⟨others, rfl, rfl⟩ := exists_of_cons_eq_append text_eq (by omega)
      rw [List.length_cons] at inside
      have fits : length < others.length := by omega
      refine .of_cons lines (fun more _ => ?_) fun _ second =>
        inductionHypothesis (later [_] ends fits) foundLater rfl fits second
      rw [gapLength]
      exact noLineFeed
  | case8 c rest noEnd inductionHypothesis =>
      obtain ⟨length, foundLater, rfl⟩ := Option.map_eq_some_iff.mp found
      obtain ⟨others, rfl, rfl⟩ := exists_of_cons_eq_append text_eq (by omega)
      rw [List.length_cons] at inside
      have fits : length < others.length := by omega
      refine .of_cons lines (fun more same => ?_) fun _ second =>
        inductionHypothesis (later [_] ends fits) foundLater rfl fits second
      rw [gapLength]
      -- No slash follows a star in the one text that does not in the other.
      rintro rest rfl rest_eq
      have third := same.tail (by decide)
      rcases others with _ | ⟨d, others⟩
      · cases fits
      · obtain ⟨_, rfl⟩ := List.head?_eq_some_iff.mp (third.head?_eq.trans List.head?_cons)
        obtain rfl := (List.cons.inj rest_eq).1
        exact noEnd _ rfl rfl
  | case9 => cases found
  | case10 =>
      obtain ⟨rfl, rfl⟩ := List.append_eq_nil_iff.mp text_eq.symm
      cases inside

/-- A gap with the same lines is a gap. -/
theorem IsGap.of_sameLines
    {gap moved : String}
    (isGap : IsGap gap)
    (lines : SameLines gap.toList moved.toList) : IsGap moved := by
  have found := isGap ';' [] (by decide) (by decide)
  have ends : EndsAlike (gap.toList ++ [';']) [] [] := .inl ⟨';', by simp, .inl rfl⟩
  have behind := (lines.append (SameLines.refl [';'])).behind
  obtain ⟨length, foundMoved, cut⟩ :=
    passAlike_of_sameLines ends found (List.append_nil _).symm (by simp) behind
  have rest_eq : (moved.toList ++ [';']).drop length = [';'] := by
    have lines := cut.lines
    rw [List.drop_left] at lines
    exact lines.eq_of_oneLine (by decide)
  have front_eq : (moved.toList ++ [';']).take length = moved.toList := by
    have whole_eq := List.take_append_drop length (moved.toList ++ [';'])
    rw [rest_eq] at whole_eq
    exact List.append_cancel_right whole_eq
  rw [List.append_nil] at foundMoved
  have whole := isGap_of_gapLength foundMoved (by simp [rest_eq])
  rwa [front_eq, String.ofList_toList] at whole

/-! ## Strings and character literals -/

/-- The same end of a string after another number of characters. -/
def StringEnd.withLength (length : Nat) : StringEnd → StringEnd
  | .closed _ => .closed length
  | .embedded _ => .embedded length

theorem stringEnd_indent
    {indent : List Char}
    (blank : ∀ c ∈ indent, isIndent c = true)
    (text : List Char) :
    stringEnd block (indent ++ text) = (stringEnd block text).map (.shift indent.length) := by
  induction indent with
  | nil =>
      rw [List.nil_append]
      rcases stringEnd block text with _ | ending
      · rfl
      · cases ending <;> simp [StringEnd.shift]
  | cons c indent inductionHypothesis =>
      rw [List.forall_mem_cons] at blank
      have step : stringEnd block (c :: (indent ++ text)) =
          (stringEnd block (indent ++ text)).map (.shift 1) := by
        have isBlank := blank.1
        simp only [isIndent, Bool.or_eq_true, beq_iff_eq] at isBlank
        rcases isBlank with rfl | rfl <;> rfl
      rw [List.cons_append, step, inductionHypothesis blank.2, Option.map_map]
      congr 1
      funext ending
      cases ending <;> simp [StringEnd.shift, Nat.add_comm, Nat.add_assoc]

/-- A string that ends in a text, and in another text that goes on with the same lines. -/
def StringAlike (block : Bool) (front front' other : List Char) (ending : StringEnd) : Prop :=
  ∃ length, stringEnd block (front' ++ other) = some (ending.withLength length) ∧
    CutAlike front front' ending.length length

namespace StringAlike

theorem after
    (part : List Char)
    (step : stringEnd block (part ++ (front' ++ other)) =
      (stringEnd block (front' ++ other)).map (.shift part.length))
    (alike : StringAlike block front front' other ending) :
    StringAlike block (part ++ front) (part ++ front') other (ending.shift part.length) := by
  obtain ⟨length, found, cut⟩ := alike
  refine ⟨part.length + length, ?_, ?_⟩
  · rw [List.append_assoc, step, found]
    cases ending <;> rfl
  · rw [StringEnd.length_shift]
    exact cut.after part part

theorem indented
    {indent : List Char}
    (blank : ∀ c ∈ indent, isIndent c = true)
    (alike : StringAlike block front front' other ending) :
    StringAlike block front (indent ++ front') other ending := by
  obtain ⟨length, found, cut⟩ := alike
  have cutAgain := cut.after [] indent
  rw [List.nil_append, List.length_nil, Nat.zero_add] at cutAgain
  refine ⟨indent.length + length, ?_, cutAgain⟩
  rw [List.append_assoc, stringEnd_indent blank, found]
  cases ending <;> rfl

theorem outdented {c : Char} (alike : StringAlike block front front' other ending) :
    StringAlike block (c :: front) front' other (ending.shift 1) := by
  obtain ⟨length, found, cut⟩ := alike
  have cutAgain := cut.after [c] []
  rw [List.nil_append, List.length_nil, Nat.zero_add] at cutAgain
  refine ⟨length, ?_, ?_⟩
  · rw [found]
    cases ending <;> rfl
  · rw [StringEnd.length_shift]
    exact cutAgain

end StringAlike

/-- A string is followed by the same lines in a text with the same lines. -/
theorem stringAlike_of_sameLines
    {text : List Char}
    (other : List Char)
    (found : stringEnd block text = some ending)
    (text_eq : text = front ++ back)
    (inside : ending.length ≤ front.length)
    (lines : SameLines ('\n' :: front) ('\n' :: front')) :
    StringAlike block front front' other ending := by
  have positive := (length_of_stringEnd found).1
  fun_induction stringEnd block text generalizing front front' ending with
  | case1 => cases found
  | case2 =>
      cases found
      obtain ⟨_, rfl, rest_eq⟩ := exists_of_cons_eq_append text_eq (by omega)
      obtain ⟨others, rfl, -⟩ := exists_of_cons_eq_append rest_eq (by
        simp only [StringEnd.length, List.length_cons] at inside
        omega)
      obtain ⟨indent, _, rfl, blank, same⟩ := lines.exists_indented rfl
      obtain ⟨others', rfl, last⟩ := (same.tail (by decide)).exists_of_cons (by decide)
      exact .indented blank ⟨2, rfl, cutAlike_self [_, _] last⟩
  | case3 c rest noBrace inductionHypothesis =>
      obtain ⟨inner, innerFound, rfl⟩ := Option.map_eq_some_iff.mp found
      rw [StringEnd.length_shift] at inside
      have innerPositive := (length_of_stringEnd innerFound).1
      obtain ⟨_, rfl, rest_eq⟩ := exists_of_cons_eq_append text_eq (by omega)
      rw [List.length_cons] at inside
      obtain ⟨others, rfl, rfl⟩ := exists_of_cons_eq_append rest_eq (by omega)
      rw [List.length_cons] at inside
      obtain ⟨indent, _, rfl, blank, same⟩ := lines.exists_indented rfl
      obtain ⟨others', rfl, last⟩ := (same.tail (by decide)).exists_behind_of_cons
      refine .indented blank (.after ['\\', c] ?_
        (inductionHypothesis innerFound rfl (by omega) last innerPositive))
      rw [List.cons_append, List.cons_append, stringEnd]
      · rfl
      · exact noBrace
  | case4 isBlock =>
      cases found
      change 3 ≤ front.length at inside
      obtain ⟨_, rfl, second_eq⟩ := exists_of_cons_eq_append text_eq (by omega)
      rw [List.length_cons] at inside
      obtain ⟨_, rfl, third_eq⟩ := exists_of_cons_eq_append second_eq (by omega)
      rw [List.length_cons] at inside
      obtain ⟨others, rfl, -⟩ := exists_of_cons_eq_append third_eq (by omega)
      obtain ⟨indent, _, rfl, blank, same⟩ := lines.exists_indented rfl
      obtain ⟨_, rfl, third⟩ := (same.tail (by decide)).exists_of_cons (by decide)
      obtain ⟨others', rfl, last⟩ := third.exists_of_cons (by decide)
      subst isBlock
      exact .indented blank ⟨3, rfl, cutAlike_self [_, _, _] last⟩
  | case5 rest isBlock notClosed inductionHypothesis =>
      obtain ⟨inner, innerFound, rfl⟩ := Option.map_eq_some_iff.mp found
      rw [StringEnd.length_shift] at inside
      obtain ⟨innerPositive, innerLong⟩ := length_of_stringEnd innerFound
      have twoMore := innerLong isBlock
      obtain ⟨others, rfl, rfl⟩ := exists_of_cons_eq_append text_eq (by omega)
      rw [List.length_cons] at inside
      obtain ⟨indent, others', rfl, blank, same⟩ := lines.exists_indented rfl
      have second := same.tail (by decide)
      -- Two characters behind the quote settle that it does not close the block.
      have notClosedAgain (more : List Char) : others' ++ other ≠ '"' :: '"' :: more := by
        intro closes
        rcases others with _ | ⟨d, _ | ⟨e, others⟩⟩
        · rw [List.length_nil] at inside
          omega
        · rw [List.length_cons, List.length_nil] at inside
          omega
        obtain ⟨_, rfl, -⟩ := second.exists_behind_of_cons
        obtain ⟨rfl, closesNext⟩ := List.cons.inj closes
        obtain ⟨_, rfl, -⟩ := (second.tail (by decide)).exists_behind_of_cons
        obtain ⟨rfl, -⟩ := List.cons.inj closesNext
        exact notClosed _ rfl
      refine .indented blank (.after ['"'] ?_
        (inductionHypothesis innerFound rfl (by omega) second.behind innerPositive))
      rw [List.singleton_append, stringEnd, if_pos isBlock]
      · rfl
      · exact notClosedAgain
  | case6 rest noBlock =>
      cases found
      obtain ⟨others, rfl, rfl⟩ := exists_of_cons_eq_append text_eq inside
      obtain ⟨indent, others', rfl, blank, same⟩ := lines.exists_indented rfl
      have second := same.tail (by decide)
      rw [Bool.not_eq_true] at noBlock
      subst noBlock
      exact .indented blank ⟨1, rfl, cutAlike_self [_] second⟩
  | case7 c rest _ noEscape noQuote inductionHypothesis =>
      obtain ⟨inner, innerFound, rfl⟩ := Option.map_eq_some_iff.mp found
      rw [StringEnd.length_shift] at inside
      have innerPositive := (length_of_stringEnd innerFound).1
      have noBackslash : c ≠ '\\' := by
        rintro rfl
        cases rest with
        | nil => cases innerFound
        | cons next others => exact noEscape next others rfl rfl
      obtain ⟨others, rfl, rfl⟩ := exists_of_cons_eq_append text_eq (by omega)
      rw [List.length_cons] at inside
      rcases lines.cases_behind with ⟨-, second⟩ | ⟨-, indent, _, rfl, blank, same⟩
      · exact (inductionHypothesis innerFound rfl (by omega) second innerPositive).outdented
      · refine .indented blank (.after [c] ?_
          (inductionHypothesis innerFound rfl (by omega) same.behind_tail innerPositive))
        rw [List.singleton_append, stringEnd]
        · rfl
        · exact fun _ same _ => noBackslash same
        · exact fun _ _ same _ => noBackslash same
        · exact noQuote

theorem characterEnd_indent
    {indent text : List Char}
    (blank : ∀ c ∈ indent, isIndent c = true)
    (closed : characterEnd text ≠ 0) :
    characterEnd (indent ++ text) = indent.length + characterEnd text := by
  induction indent with
  | nil => simp
  | cons c indent inductionHypothesis =>
      rw [List.forall_mem_cons] at blank
      have later := inductionHypothesis blank.2
      have step : characterEnd (c :: (indent ++ text)) =
          let more := characterEnd (indent ++ text); if more = 0 then 0 else 1 + more := by
        have isBlank := blank.1
        simp only [isIndent, Bool.or_eq_true, beq_iff_eq] at isBlank
        rcases isBlank with rfl | rfl <;> rfl
      rw [List.cons_append, step, later, List.length_cons]
      dsimp only
      rw [if_neg (by omega)]
      omega

/-- A literal that ends in a text, and in another text that goes on with the same lines. -/
def CharacterAlike (front front' other : List Char) (length : Nat) : Prop :=
  characterEnd (front' ++ other) ≠ 0 ∧
    CutAlike front front' length (characterEnd (front' ++ other))

namespace CharacterAlike

variable {length : Nat}

theorem after
    (part : List Char)
    (step : ∀ text, characterEnd (part ++ text) =
      let more := characterEnd text; if more = 0 then 0 else part.length + more)
    (alike : CharacterAlike front front' other length) :
    CharacterAlike (part ++ front) (part ++ front') other (part.length + length) := by
  obtain ⟨closed, cut⟩ := alike
  have whole : characterEnd (part ++ front' ++ other) =
      part.length + characterEnd (front' ++ other) := by
    rw [List.append_assoc, step]
    exact if_neg closed
  rw [CharacterAlike, whole]
  exact ⟨by omega, cut.after part part⟩

theorem indented
    {indent : List Char}
    (blank : ∀ c ∈ indent, isIndent c = true)
    (alike : CharacterAlike front front' other length) :
    CharacterAlike front (indent ++ front') other length := by
  obtain ⟨closed, cut⟩ := alike
  have cutAgain := cut.after [] indent
  rw [List.nil_append, List.length_nil, Nat.zero_add] at cutAgain
  rw [CharacterAlike, List.append_assoc, characterEnd_indent blank closed]
  exact ⟨by omega, cutAgain⟩

theorem outdented {c : Char} (alike : CharacterAlike front front' other length) :
    CharacterAlike (c :: front) front' other (1 + length) := by
  obtain ⟨closed, cut⟩ := alike
  have cutAgain := cut.after [c] []
  rw [List.nil_append, List.length_nil, Nat.zero_add] at cutAgain
  exact ⟨closed, cutAgain⟩

end CharacterAlike

/-- A character literal is followed by the same lines in a text with the same lines. -/
theorem characterAlike_of_sameLines
    {text : List Char}
    (other : List Char)
    (closed : characterEnd text ≠ 0)
    (text_eq : text = front ++ back)
    (inside : characterEnd text ≤ front.length)
    (lines : SameLines ('\n' :: front) ('\n' :: front')) :
    CharacterAlike front front' other (characterEnd text) := by
  fun_induction characterEnd text generalizing front front' with
  | case1 | case4 | case5 | case6 | case8 => exact absurd rfl closed
  | case2 c rest length isClosed =>
      rename_i inductionHypothesis
      obtain ⟨_, rfl, rest_eq⟩ := exists_of_cons_eq_append text_eq (by omega)
      rw [List.length_cons] at inside
      obtain ⟨others, rfl, rfl⟩ := exists_of_cons_eq_append rest_eq (by omega)
      rw [List.length_cons] at inside
      obtain ⟨indent, _, rfl, blank, same⟩ := lines.exists_indented rfl
      obtain ⟨others', rfl, last⟩ := (same.tail (by decide)).exists_behind_of_cons
      exact .indented blank (.after ['\\', c] (fun _ => rfl)
        (inductionHypothesis isClosed rfl (by omega) last))
  | case3 rest =>
      obtain ⟨others, rfl, rfl⟩ := exists_of_cons_eq_append text_eq inside
      obtain ⟨indent, others', rfl, blank, same⟩ := lines.exists_indented rfl
      have second := same.tail (by decide)
      exact .indented blank ⟨Nat.one_ne_zero, cutAlike_self ['\''] second⟩
  | case7 c rest noEscape noQuote noLineFeed _ length isClosed =>
      rename_i inductionHypothesis
      have noBackslash : c ≠ '\\' := by
        rintro rfl
        cases rest with
        | nil => exact isClosed rfl
        | cons next others => exact noEscape next others rfl rfl
      obtain ⟨others, rfl, rfl⟩ := exists_of_cons_eq_append text_eq (by omega)
      rw [List.length_cons] at inside
      rcases lines.cases_behind with ⟨-, second⟩ | ⟨-, indent, _, rfl, blank, same⟩
      · exact (inductionHypothesis isClosed rfl (by omega) second).outdented
      · refine .indented blank (.after [c] (fun text => ?_)
          (inductionHypothesis isClosed rfl (by omega) same.behind_tail))
        rw [List.singleton_append, characterEnd]
        · rfl
        · exact fun _ _ same _ => noBackslash same
        · exact noQuote
        · exact noLineFeed
        · exact fun same _ => noBackslash same

end Cuts

end Java

end JupiterMigration
