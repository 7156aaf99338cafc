import JupiterMigration.Proofs.Indentation

/-!
# Texts with the same lines

Texts have the same lines if they differ in the spaces and tabs behind line feeds at most
(`Layout.SameLines`).  Shifted texts have the lines of the original (`sameLines_shiftFrom`), and so
have the parts that a text is cut into, unless a cut goes through an indentation
(`SameLines.exists_of_append`).
-/

namespace JupiterMigration

namespace Layout

/-- The same text but for the spaces and tabs behind line feeds. -/
inductive SameLines : List Char → List Char → Prop
  | nil : SameLines [] []
  | cons {c : Char} {first second : List Char}
      (noLineFeed : c ≠ '\n')
      (rest : SameLines first second) : SameLines (c :: first) (c :: second)
  | line {old new first second : List Char}
      (oldBlank : ∀ c ∈ old, isIndent c = true)
      (newBlank : ∀ c ∈ new, isIndent c = true)
      (rest : SameLines first second) : SameLines ('\n' :: (old ++ first)) ('\n' :: (new ++ second))

namespace SameLines

variable {first second : List Char}

theorem refl (text : List Char) : SameLines text text := by
  induction text with
  | nil => exact .nil
  | cons c rest inductionHypothesis =>
      by_cases isLineFeed : c = '\n'
      · subst isLineFeed
        exact .line (List.forall_mem_nil _) (List.forall_mem_nil _) inductionHypothesis
      · exact .cons isLineFeed inductionHypothesis

theorem symm (same : SameLines first second) : SameLines second first := by
  induction same with
  | nil => exact .nil
  | cons noLineFeed _ inductionHypothesis => exact .cons noLineFeed inductionHypothesis
  | line oldBlank newBlank _ inductionHypothesis =>
      exact .line newBlank oldBlank inductionHypothesis

theorem append
    {third fourth : List Char}
    (front : SameLines first second)
    (back : SameLines third fourth) : SameLines (first ++ third) (second ++ fourth) := by
  induction front with
  | nil => exact back
  | cons noLineFeed _ inductionHypothesis => exact .cons noLineFeed inductionHypothesis
  | line oldBlank newBlank _ inductionHypothesis =>
      rw [List.cons_append, List.cons_append, List.append_assoc, List.append_assoc]
      exact .line oldBlank newBlank inductionHypothesis

theorem eq_nil (same : SameLines [] second) : second = [] := by
  cases same
  rfl

/-- Texts with the same lines begin with the same character. -/
theorem head?_eq (same : SameLines first second) : second.head? = first.head? := by
  cases same <;> rfl

/-- What holds no line feed is the same. -/
theorem eq_of_oneLine
    (same : SameLines first second)
    (oneLine : '\n' ∉ first) : second = first := by
  induction same with
  | nil => rfl
  | cons _ _ inductionHypothesis =>
      rw [inductionHypothesis fun inside => oneLine (List.mem_cons_of_mem _ inside)]
  | line => exact absurd List.mem_cons_self oneLine

theorem exists_of_cons
    {c : Char}
    (same : SameLines (c :: first) second)
    (noLineFeed : c ≠ '\n') : ∃ rest, second = c :: rest ∧ SameLines first rest := by
  cases same with
  | cons _ rest => exact ⟨_, rfl, rest⟩
  | line => exact absurd rfl noLineFeed

/-- A text that holds no line feed stands at the beginning of texts with the same lines. -/
theorem exists_of_oneLine
    {word rest text : List Char}
    (same : SameLines (word ++ rest) text)
    (oneLine : '\n' ∉ word) :
    ∃ rest', text = word ++ rest' ∧ SameLines rest rest' := by
  induction word generalizing text with
  | nil => exact ⟨text, rfl, same⟩
  | cons c word inductionHypothesis =>
      rw [List.mem_cons, not_or] at oneLine
      obtain ⟨text, rfl, later⟩ := same.exists_of_cons (Ne.symm oneLine.1)
      obtain ⟨rest', rfl, last⟩ := inductionHypothesis later oneLine.2
      exact ⟨rest', rfl, last⟩

theorem behind (same : SameLines first second) : SameLines ('\n' :: first) ('\n' :: second) :=
  .line (List.forall_mem_nil _) (List.forall_mem_nil _) same

/-- Texts with the same lines begin alike, and go on alike but for indentation. -/
theorem exists_behind_of_cons {c : Char} (same : SameLines (c :: first) second) :
    ∃ rest, second = c :: rest ∧ SameLines ('\n' :: first) ('\n' :: rest) := by
  by_cases isLineFeed : c = '\n'
  · subst isLineFeed
    obtain ⟨rest, rfl⟩ : ∃ rest, second = '\n' :: rest := by cases same <;> exact ⟨_, rfl⟩
    exact ⟨rest, rfl, same⟩
  · obtain ⟨rest, rfl, later⟩ := same.exists_of_cons isLineFeed
    exact ⟨rest, rfl, later.behind⟩

/-- What stands first behind a line feed is indentation, or the same for the same lines. -/
theorem cases_behind {c : Char} (same : SameLines ('\n' :: c :: first) ('\n' :: second)) :
    isIndent c = true ∧ SameLines ('\n' :: first) ('\n' :: second) ∨
      isIndent c = false ∧ ∃ indent rest, second = indent ++ c :: rest ∧
        (∀ d ∈ indent, isIndent d = true) ∧ SameLines (c :: first) (c :: rest) := by
  generalize whole : '\n' :: c :: first = old at same
  generalize other : '\n' :: second = new at same
  cases same with
  | nil => cases whole
  | cons noLineFeed => exact absurd (List.cons.inj whole).1.symm noLineFeed
  | @line old new front back oldBlank newBlank rest =>
      obtain rfl := (List.cons.inj other).2
      have whole := (List.cons.inj whole).2
      cases old with
      | cons d old =>
          obtain ⟨rfl, rfl⟩ := List.cons.inj whole
          rw [List.forall_mem_cons] at oldBlank
          exact .inl ⟨oldBlank.1, .line oldBlank.2 newBlank rest⟩
      | nil =>
          obtain rfl : front = c :: first := whole.symm
          cases blank : isIndent c with
          | true =>
              obtain ⟨back, rfl, later⟩ := rest.exists_of_cons (ne_lineFeed_of_isIndent blank)
              have newBlanks : ∀ d ∈ new ++ [c], isIndent d = true := by
                simpa using fun d inside => inside.elim (newBlank d) fun same => same ▸ blank
              have shifted := SameLines.line (List.forall_mem_nil _) newBlanks later
              exact .inl ⟨rfl, by simpa using shifted⟩
          | false =>
              obtain ⟨back, rfl, -⟩ := rest.exists_behind_of_cons
              exact .inr ⟨rfl, new, back, rfl, newBlank, rest⟩

/-- What is no indentation stands behind one in texts with the same lines. -/
theorem exists_indented {c : Char} (same : SameLines ('\n' :: c :: first) ('\n' :: second))
    (noIndent : isIndent c = false) :
    ∃ indent rest, second = indent ++ c :: rest ∧ (∀ d ∈ indent, isIndent d = true) ∧
      SameLines (c :: first) (c :: rest) := by
  rcases same.cases_behind with ⟨isBlank, -⟩ | ⟨-, indented⟩
  · rw [noIndent] at isBlank
    cases isBlank
  · exact indented

theorem tail {c : Char} (same : SameLines (c :: first) (c :: second)) (noLineFeed : c ≠ '\n') :
    SameLines first second := by
  obtain ⟨rest, same_eq, later⟩ := same.exists_of_cons noLineFeed
  rwa [(List.cons.inj same_eq).2]

/-- Behind the same character, texts go on alike but for indentation. -/
theorem behind_tail {c : Char} (same : SameLines (c :: first) (c :: second)) :
    SameLines ('\n' :: first) ('\n' :: second) := by
  obtain ⟨rest, same_eq, later⟩ := same.exists_behind_of_cons
  rwa [(List.cons.inj same_eq).2]

/-- A cut is no cut through an indentation if what follows is no indentation, or follows none. -/
def CutsClean (front back : List Char) : Prop :=
  (∀ c ∈ back.head?, isIndent c = false) ∨ ∀ c ∈ front.getLast?, c ≠ '\n' ∧ isIndent c = false

theorem cutsClean_of_cons {c : Char} (noIndent : isIndent c = false) (front rest : List Char) :
    CutsClean front (c :: rest) :=
  .inl fun _ isHead => Option.mem_some_iff.mp isHead ▸ noIndent

/-- Texts with the same lines are cut into parts with the same lines. -/
theorem exists_of_append
    {front back text : List Char}
    (same : SameLines (front ++ back) text)
    (clean : CutsClean front back) :
    ∃ front' back', text = front' ++ back' ∧ SameLines front front' ∧ SameLines back back' := by
  generalize whole : front ++ back = old at same
  induction same generalizing front with
  | nil =>
      obtain ⟨rfl, rfl⟩ := List.append_eq_nil_iff.mp whole
      exact ⟨[], [], rfl, .nil, .nil⟩
  | @cons c first second noLineFeed rest inductionHypothesis =>
      cases front with
      | nil =>
          obtain rfl : back = c :: first := whole
          exact ⟨[], c :: second, rfl, .nil, .cons noLineFeed rest⟩
      | cons d more =>
          obtain ⟨rfl, rfl⟩ := List.cons.inj whole
          obtain ⟨front', back', rfl, sameFront, sameBack⟩ := inductionHypothesis
            (clean.imp_right fun ends c isLast => ends c (by
              cases more with
              | nil => cases isLast
              | cons => exact isLast)) rfl
          exact ⟨d :: front', back', rfl, .cons noLineFeed sameFront, sameBack⟩
  | @line indent new first second oldBlank newBlank rest inductionHypothesis =>
      cases front with
      | nil =>
          obtain rfl : back = '\n' :: (indent ++ first) := whole
          exact ⟨[], _, rfl, .nil, .line oldBlank newBlank rest⟩
      | cons d more =>
          obtain ⟨rfl, rest_eq⟩ := List.cons.inj whole
          rcases List.append_eq_append_iff.mp rest_eq with
            ⟨others, rfl, rfl⟩ | ⟨others, rfl, rfl⟩
          · -- The cut goes through the indentation, unless nothing of it is left over.
            obtain rfl : others = [] := by
              rcases others with _ | ⟨c, others⟩
              · rfl
              rcases clean with begins | ends
              · have blank := oldBlank c (by simp)
                rw [begins c rfl] at blank
                cases blank
              · rcases List.eq_nil_or_concat more with rfl | ⟨inner, last, rfl⟩
                · exact absurd rfl (ends '\n' rfl).1
                · have isLast : ('\n' :: inner.concat last).getLast? = some last := by
                    rw [List.concat_eq_append, ← List.cons_append, List.getLast?_concat]
                  have noBlank := (ends last isLast).2
                  rw [oldBlank last (by simp)] at noBlank
                  cases noBlank
            refine ⟨'\n' :: new, second, rfl, ?_, rest⟩
            rw [List.append_nil] at oldBlank
            simpa using SameLines.line oldBlank newBlank .nil
          · have cleanLater : CutsClean others back := clean.imp_right fun ends c isLast =>
              ends c (by
                rw [← List.cons_append, List.getLast?_append, isLast]
                rfl)
            obtain ⟨front', back', rfl, sameFront, sameBack⟩ :=
              inductionHypothesis cleanLater rfl
            refine ⟨'\n' :: (new ++ front'), back', ?_, .line oldBlank newBlank sameFront,
              sameBack⟩
            rw [List.cons_append, List.append_assoc]

/-- A string with the lines of one that begins with no line feed in it begins with it, too. -/
theorem exists_string_of_oneLine
    {word rest text : String}
    (same : SameLines (word ++ rest).toList text.toList)
    (oneLine : '\n' ∉ word.toList) :
    ∃ rest', text = word ++ rest' ∧ SameLines rest.toList rest'.toList := by
  rw [String.toList_append] at same
  obtain ⟨rest', text_eq, later⟩ := same.exists_of_oneLine oneLine
  refine ⟨String.ofList rest', ?_, by rwa [String.toList_ofList]⟩
  rw [← String.toList_inj, text_eq, String.toList_append, String.toList_ofList]

/-- Strings with the same lines are cut into parts with the same lines. -/
theorem exists_string_of_append
    {front back text : String}
    (same : SameLines (front ++ back).toList text.toList)
    (clean : CutsClean front.toList back.toList) :
    ∃ front' back', text = front' ++ back' ∧ SameLines front.toList front'.toList ∧
      SameLines back.toList back'.toList := by
  rw [String.toList_append] at same
  obtain ⟨front', back', text_eq, sameFront, sameBack⟩ := same.exists_of_append clean
  refine ⟨String.ofList front', String.ofList back', ?_, by rwa [String.toList_ofList],
    by rwa [String.toList_ofList]⟩
  rw [← String.toList_inj, text_eq, String.toList_append, String.toList_ofList,
    String.toList_ofList]

/-- What stands on a new line stands there in texts with the same lines, behind an indentation. -/
theorem exists_string_onNewLine
    {c : Char}
    {more : List Char}
    {word rest text : String}
    (same : SameLines ('\n' :: (word ++ rest).toList) text.toList)
    (word_eq : word.toList = c :: more)
    (noIndent : isIndent c = false)
    (oneLine : '\n' ∉ word.toList) :
    ∃ indent rest', text = "\n" ++ indent ++ (word ++ rest') ∧ IsIndentation indent ∧
      SameLines rest.toList rest'.toList := by
  obtain ⟨behind, text_eq, lines⟩ := same.exists_behind_of_cons
  have whole_eq : (word ++ rest).toList = c :: (more ++ rest.toList) := by
    rw [String.toList_append, word_eq, List.cons_append]
  rw [whole_eq] at lines
  obtain ⟨indent, others, rfl, blank, later⟩ := lines.exists_indented noIndent
  rw [← whole_eq, ← String.toList_ofList (l := c :: others)] at later
  obtain ⟨rest', others_eq, last⟩ := later.exists_string_of_oneLine oneLine
  refine ⟨String.ofList indent, rest', ?_, by rwa [IsIndentation, String.toList_ofList], last⟩
  rw [← String.toList_inj, text_eq, ← others_eq]
  simp

end SameLines

/-! ## Shifted texts -/

theorem flush_cons {c : Char} (noLineFeed : c ≠ '\n') (rest : List Char) :
    flush (c :: rest) = c :: flush rest :=
  if_neg noLineFeed

/-- Texts with the same lines are the same without indentation. -/
theorem SameLines.flush_eq {first second : List Char} (same : SameLines first second) :
    flush first = flush second := by
  induction same with
  | nil => rfl
  | cons noLineFeed _ inductionHypothesis =>
      rw [flush_cons noLineFeed, flush_cons noLineFeed, inductionHypothesis]
  | line oldBlank newBlank _ inductionHypothesis =>
      rw [flush, flush, flushOnto_line oldBlank, flushOnto_line newBlank, ← flush, ← flush,
        inductionHypothesis]

theorem flush_dropWhile (text : List Char) :
    flush (text.dropWhile isIndent) = (flush text).dropWhile isIndent := by
  induction text with
  | nil => rfl
  | cons c rest inductionHypothesis =>
      cases blank : isIndent c with
      | true =>
          rw [List.dropWhile_cons_of_pos blank, flush_cons (ne_lineFeed_of_isIndent blank),
            List.dropWhile_cons_of_pos blank, inductionHypothesis]
      | false =>
          have noBlank : ¬isIndent c = true := by simp [blank]
          rw [List.dropWhile_cons_of_neg noBlank]
          by_cases isLineFeed : c = '\n'
          · subst isLineFeed
            rw [flush_line, List.dropWhile_cons_of_neg noBlank]
          · rw [flush_cons isLineFeed, List.dropWhile_cons_of_neg noBlank]

/-- Texts that are the same without indentation have the same lines. -/
theorem sameLines_of_flush_eq {first second : List Char} (same : flush first = flush second) :
    SameLines first second := by
  match first, second with
  | [], [] => exact .nil
  | c :: first, [] =>
      by_cases isLineFeed : c = '\n'
      · subst isLineFeed
        cases same
      · rw [flush_cons isLineFeed] at same
        cases same
  | [], c :: second =>
      by_cases isLineFeed : c = '\n'
      · subst isLineFeed
        cases same
      · rw [flush_cons isLineFeed] at same
        cases same
  | c :: first, d :: second =>
      by_cases isLineFeed : c = '\n'
      · subst isLineFeed
        by_cases isLineFeed' : d = '\n'
        · subst isLineFeed'
          rw [flush_line, flush_line, List.cons_inj_right, ← flush_dropWhile,
            ← flush_dropWhile] at same
          have shorter := (List.dropWhile_suffix isIndent (l := first)).length_le
          have blank (text : List Char) : ∀ c ∈ text.takeWhile isIndent, isIndent c = true :=
            fun c inside => List.all_eq_true.mp List.all_takeWhile c inside
          have lines := SameLines.line (blank first) (blank second) (sameLines_of_flush_eq same)
          rwa [List.takeWhile_append_dropWhile, List.takeWhile_append_dropWhile] at lines
        · rw [flush_line, flush_cons isLineFeed'] at same
          exact absurd (List.cons.inj same).1.symm isLineFeed'
      · by_cases isLineFeed' : d = '\n'
        · subst isLineFeed'
          rw [flush_line, flush_cons isLineFeed] at same
          exact absurd (List.cons.inj same).1 isLineFeed
        · rw [flush_cons isLineFeed, flush_cons isLineFeed'] at same
          obtain ⟨rfl, rest_eq⟩ := List.cons.inj same
          exact .cons isLineFeed (sameLines_of_flush_eq rest_eq)
  termination_by first.length

theorem SameLines.trans
    {first second third : List Char}
    (front : SameLines first second)
    (back : SameLines second third) : SameLines first third :=
  sameLines_of_flush_eq (front.flush_eq.trans back.flush_eq)

theorem sameLines_shift {indent : String} (blank : IsIndentation indent) (text : String) :
    SameLines text.toList (shift text indent).toList := by
  refine (sameLines_of_flush_eq ?_).symm
  rw [shift, String.toList_ofList, flush, flushOnto_shiftChars blank, ← flush]

theorem sameLines_shiftFrom
    {old new : String}
    (oldBlank : IsIndentation old)
    (newBlank : IsIndentation new)
    (text : String) : SameLines text.toList (shiftFrom text old new).toList :=
  (sameLines_of_flush_eq (flushOnto_shiftFrom oldBlank newBlank text [])).symm

end Layout

end JupiterMigration
