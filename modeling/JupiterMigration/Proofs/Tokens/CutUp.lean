import JupiterMigration.Proofs.Tokens.Locality
import JupiterMigration.Proofs.Tokens.Nesting

/-!
# Texts that are written piece by piece

A text is cut up before a rest if its own tokens come first and those of the rest behind them
(`CutUp`); how its tokens nest is told along.  Pieces that are cut up one after the other are cut up
together (`CutUp.append`), so whoever writes a text from pieces only looks at where they meet.
-/

namespace JupiterMigration.Java

open Text

/-- Words joined by dots. -/
inductive IsPath : String → Prop
  | word {text : String} (spelled : isWord text = true) : IsPath text
  | dotted {first rest : String} (spelled : isWord first = true) (path : IsPath rest) :
      IsPath (first ++ ("." ++ rest))

/--
A text before a rest is cut up into tokens of its own, which leave open as much as is given last if
as much as is given first is open before them.
-/
def CutUp (stack after : List Bracket) (rest : List Char) (text : String) : Prop :=
  ∃ tokens, sourceOf tokens = text ∧ Begins tokens (text.toList ++ rest) rest ∧
    nestAll stack tokens = some after

/-- A word begins with no gap. -/
theorem endsGap_of_isWord {text : String} (spelled : isWord text = true) :
    endsGap text = true := by
  obtain ⟨c, rest, text_eq, starts, -⟩ := isWord_iff.mp spelled
  refine endsGap_iff.mpr ⟨c, rest, text_eq, isSpace_of_isNameStart starts, ?_⟩
  rintro rfl
  exact absurd starts (by decide)

/-- A path begins with no gap. -/
theorem IsPath.endsGap {text : String} (isPath : IsPath text) : Java.endsGap text = true := by
  cases isPath with
  | word spelled => exact endsGap_of_isWord spelled
  | dotted spelled => exact endsGap_append (endsGap_of_isWord spelled) _

theorem lineFeed_notMem_of_isWord {text : String} (spelled : isWord text = true) :
    '\n' ∉ text.toList := by
  obtain ⟨c, rest, text_eq, starts, continues⟩ := isWord_iff.mp spelled
  rw [text_eq, List.mem_cons, not_or]
  constructor
  · rintro rfl
    exact absurd starts (by decide)
  · exact fun inside => absurd (continues '\n' inside) (by decide)

theorem IsPath.lineFeed_notMem {text : String} (isPath : IsPath text) : '\n' ∉ text.toList := by
  induction isPath with
  | word spelled => exact lineFeed_notMem_of_isWord spelled
  | dotted spelled _ inductionHypothesis =>
      rw [String.toList_append, String.toList_append, List.mem_append, List.mem_append]
      exact fun inside => inside.elim (lineFeed_notMem_of_isWord spelled)
        (·.elim (by decide) inductionHypothesis)

namespace CutUp

variable {stack middle after : List Bracket} {rest : List Char} {gap text more : String}

theorem nil (stack : List Bracket) (rest : List Char) : CutUp stack stack rest "" := by
  refine ⟨[], rfl, ?_, rfl⟩
  simp [Begins]

theorem append
    (front : CutUp stack middle (more.toList ++ rest) text)
    (back : CutUp middle after rest more) : CutUp stack after rest (text ++ more) := by
  obtain ⟨frontTokens, rfl, beginsFront, nestsFront⟩ := front
  obtain ⟨backTokens, rfl, beginsBack, nestsBack⟩ := back
  refine ⟨frontTokens ++ backTokens, sourceOf_append _ _, ?_, ?_⟩
  · rw [String.toList_append, List.append_assoc]
    exact beginsFront.append beginsBack
  · rw [nestAll_append, nestsFront]
    exact nestsBack

/-- A text ends a word if its first character does not go on with it. -/
theorem ends_word
    {first : String}
    {c : Char}
    {others : List Char}
    (first_eq : first.toList = c :: others)
    (stops : isNameContinue c = false)
    (more : String)
    (rest : List Char) :
    ((first ++ more).toList ++ rest).head?.any isNameContinue = false := by
  rw [String.toList_append, first_eq]
  exact stops

/-! ## Single tokens -/

/-- A gap and a token behind it. -/
theorem token
    {kind : TokenKind}
    (isGap : IsGap gap)
    (found_eq : lexeme [] (text.toList ++ rest) = some ⟨kind, text.toList.length, []⟩)
    (ends : endsGap text = true)
    (nests : Token.nest stack ⟨gap, text, kind⟩ = some after) :
    CutUp stack after rest (gap ++ text) := by
  obtain ⟨c, others, text_eq, noSpace, noComment⟩ := endsGap_iff.mp ends
  have gap_eq : gapLength .outside (gap.toList ++ (text.toList ++ rest)) =
      some gap.toList.length := by
    rw [text_eq]
    exact isGap c (others ++ rest) noSpace noComment
  refine ⟨[⟨gap, text, kind⟩], ?_, ?_, ?_⟩
  · rw [sourceOf_cons, sourceOf_nil, String.append_empty]
  · rw [String.toList_append, List.append_assoc]
    exact scanFrom_cons gap_eq found_eq (by simp [text_eq])
  · rw [nestAll_cons, nests]
    rfl

/-- A gap and a word or a symbol that stands apart from what follows it. -/
theorem of_standsApart
    {kind : TokenKind}
    (isGap : IsGap gap)
    (apart : (Token.mk gap text kind).standsApart rest = true)
    (nests : Token.nest stack ⟨gap, text, kind⟩ = some after) :
    CutUp stack after rest (gap ++ text) := by
  obtain ⟨found_eq, starts⟩ := lexeme_of_standsApart apart
  exact token isGap found_eq (endsGap_iff.mpr starts) nests

theorem word
    (isGap : IsGap gap)
    (spelled : isWord text = true)
    (ends : rest.head?.any isNameContinue = false) : CutUp stack stack rest (gap ++ text) :=
  of_standsApart isGap (Token.standsApart_word spelled ends) rfl

/-- A symbol that no longer one begins with. -/
theorem lone
    {c : Char}
    (isGap : IsGap gap)
    (text_eq : text.toList = [c])
    (isLone : loneSymbols.contains c = true)
    (rest : List Char)
    (nests : Token.nest stack ⟨gap, text, .symbol⟩ = some after) :
    CutUp stack after rest (gap ++ text) :=
  of_standsApart isGap (Token.standsApart_lone text_eq isLone rest) nests

theorem glued
    {c : Char}
    (text_eq : text.toList = [c])
    (isLone : loneSymbols.contains c = true)
    (rest : List Char)
    (nests : Token.nest stack ⟨"", text, .symbol⟩ = some after) : CutUp stack after rest text := by
  have whole := lone (isGap_of_spaces rfl) text_eq isLone rest nests
  rwa [String.empty_append] at whole

theorem comma (rest : List Char) : CutUp stack stack rest "," :=
  glued rfl rfl rest rfl

theorem openParenthesis (rest : List Char) : CutUp stack stack rest "(" :=
  glued rfl rfl rest rfl

theorem closeParenthesis (rest : List Char) : CutUp stack stack rest ")" :=
  glued rfl rfl rest rfl

/-- The end of a statement that is a call. -/
theorem endOfCall (rest : List Char) : CutUp stack stack rest ");" := by
  have semicolon : CutUp stack stack rest ";" := glued rfl rfl rest rfl
  exact (closeParenthesis _).append semicolon

/-- The arrow of a lambda expression. -/
theorem arrow (isGap : IsGap gap) (rest : List Char) : CutUp stack stack rest (gap ++ "->") := by
  have noNumber : (Numeral.measure ('-' :: '>' :: rest)).2 = 0 :=
    Numeral.measure_eq_zero (by decide) fun point => absurd point (by decide)
  have noStart : isNameStart '-' = false := by decide
  have found_eq : lexeme [] ('-' :: '>' :: rest) = some ⟨.symbol, 2, []⟩ := by
    rw [lexeme_of_noQuote (by decide) (by decide), if_neg (by simp [noStart]), if_neg (by omega)]
    rfl
  exact token isGap found_eq (by decide) rfl

/-! ## Paths -/

/-- Words joined by dots are cut up into the words and the dots. -/
theorem path
    (isGap : IsGap gap)
    (isPath : IsPath text)
    (ends : rest.head?.any isNameContinue = false) : CutUp stack stack rest (gap ++ text) := by
  have glued : IsGap "" := isGap_of_spaces rfl
  induction isPath generalizing gap with
  | word spelled => exact word isGap spelled ends
  | @dotted first others spelled isPath inductionHypothesis =>
      obtain ⟨c, more, others_eq, starts⟩ : ∃ c more, others.toList = c :: more ∧
          isNameStart c = true := by
        cases isPath with
        | word spelled =>
            obtain ⟨c, more, text_eq, starts, -⟩ := isWord_iff.mp spelled
            exact ⟨c, more, text_eq, starts⟩
        | dotted spelled =>
            obtain ⟨c, more, text_eq, starts, -⟩ := isWord_iff.mp spelled
            exact ⟨c, _, by rw [String.toList_append, text_eq]; rfl, starts⟩
      have noPoint : (c != '.') = true := by
        rw [bne_iff_ne]
        rintro rfl
        exact absurd starts (by decide)
      have follows : (Token.mk "" "." .symbol).standsApart (others.toList ++ rest) = true := by
        rw [others_eq]
        simp [Token.standsApart, briefSymbols, mayFollow, noPoint, isDigit_of_isNameStart starts]
      have point : CutUp stack stack (others.toList ++ rest) "." := of_standsApart glued follows rfl
      have last := inductionHypothesis glued
      rw [String.empty_append] at last
      have front : CutUp stack stack (("." ++ others).toList ++ rest) (gap ++ first) :=
        word isGap spelled (ends_word rfl rfl _ _)
      rw [← String.append_assoc]
      exact front.append (point.append last)

end CutUp

end JupiterMigration.Java
