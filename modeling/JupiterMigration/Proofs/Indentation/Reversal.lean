import JupiterMigration.Proofs.TextBlocks.Move

/-!
# Indentation that is put before lines and taken away again

Shifting a text puts its indentation behind exactly those line feeds that do not end an empty line,
so another indentation can take its place again (`Layout.replaceChars_shiftChars`).  Told by lines,
it changes all but the first one by one (`Layout.splitOn_shiftChars`).

`Layout.reindent` reads an indentation with its escapes.  The indentation is literal if it stands
for itself, and only then it can be taken away again from all texts (`Layout.isLiteral_iff`).  One
with a backslash need not be literal (`Layout.escape_not_undone`).
-/

namespace JupiterMigration

namespace Layout

open TextBlock (indentLine)

/-! ## Shifted texts -/

section Shifted

variable {indent : List Char}

/-- A text that begins with a line feed still does so when it is shifted. -/
theorem exists_shiftChars_lineFeed (indent rest : List Char) :
    ∃ more, shiftChars indent ('\n' :: rest) = '\n' :: more := by
  cases rest with
  | nil => exact ⟨[], rfl⟩
  | cons c rest =>
      rw [shiftChars]
      split <;> exact ⟨_, rfl⟩

/-- An indentation does not stand before a line feed. -/
theorem not_prefix_lineFeed
    (nonempty : indent ≠ [])
    (oneLine : '\n' ∉ indent)
    (rest : List Char) : ¬indent <+: '\n' :: rest := by
  obtain ⟨first, more, rfl⟩ := List.exists_cons_of_ne_nil nonempty
  intro begins
  exact oneLine ((List.cons_prefix_cons.mp begins).1 ▸ List.mem_cons_self)

/-- A shifted text is moved to another indentation as if it had been shifted by that one. -/
theorem replaceChars_shiftChars
    (nonempty : indent ≠ [])
    (oneLine : '\n' ∉ indent)
    (new text : List Char) :
    replaceChars indent new (shiftChars indent text) = shiftChars new text := by
  fun_induction shiftChars indent text with
  | case1 => rfl
  | case2 rest inductionHypothesis =>
      obtain ⟨more, more_eq⟩ := exists_shiftChars_lineFeed indent rest
      have noIndent : ¬('\n' :: indent) <+: '\n' :: shiftChars indent ('\n' :: rest) := by
        rw [more_eq, List.cons_prefix_cons]
        exact fun begins => not_prefix_lineFeed nonempty oneLine more begins.2
      rw [replaceChars_cons noIndent, inductionHypothesis, shiftChars, if_pos rfl]
  | case3 c rest noLineFeed inductionHypothesis =>
      rw [replaceChars_line, inductionHypothesis, shiftChars, if_neg noLineFeed]
  | case4 c rest noLine inductionHypothesis =>
      by_cases isLineFeed : c = '\n'
      · cases rest with
        | nil =>
            subst isLineFeed
            have noIndent : ¬('\n' :: indent) <+: ['\n'] := by
              rw [List.cons_prefix_cons, List.prefix_nil]
              exact fun begins => nonempty begins.2
            exact replaceChars_cons noIndent
        | cons next others => exact absurd rfl (noLine next others isLineFeed)
      · have noIndent : ¬('\n' :: indent) <+: c :: shiftChars indent rest := by
          rw [List.cons_prefix_cons]
          exact fun begins => isLineFeed begins.1.symm
        rw [replaceChars_cons noIndent, inductionHypothesis, shiftChars_cons new isLineFeed]

/-! ### Lines -/

/-- All lines but the first one changed. -/
def behindFirst (change : List Char → List Char) : List (List Char) → List (List Char)
  | [] => []
  | first :: rest => first :: rest.map change

theorem splitOn_lineFeed (rest : List Char) :
    ('\n' :: rest).splitOn '\n' = [] :: rest.splitOn '\n' := by
  rw [List.splitOn_cons_eq_if_modifyHead, if_pos (beq_self_eq_true '\n')]

/-- What holds no line feed stands on the first line. -/
theorem exists_splitOn_append
    {front : List Char}
    (oneLine : '\n' ∉ front)
    (rest : List Char) :
    ∃ first others, rest.splitOn '\n' = first :: others ∧
      (front ++ rest).splitOn '\n' = (front ++ first) :: others := by
  obtain ⟨first, others, rest_eq⟩ := List.exists_cons_of_ne_nil (List.splitOn_ne_nil '\n' rest)
  refine ⟨first, others, rest_eq, ?_⟩
  induction front with
  | nil => exact rest_eq
  | cons c more inductionHypothesis =>
      rw [List.mem_cons, not_or] at oneLine
      have other : (c == '\n') = false := by simpa using Ne.symm oneLine.1
      rw [List.cons_append, List.splitOn_cons_eq_if_modifyHead, other,
        inductionHypothesis oneLine.2]
      rfl

/-- All lines of a shifted text but the first one are behind the indentation or empty. -/
theorem splitOn_shiftChars (oneLine : '\n' ∉ indent) (text : List Char) :
    (shiftChars indent text).splitOn '\n' =
      behindFirst (indentLine indent) (text.splitOn '\n') := by
  fun_induction shiftChars indent text with
  | case1 => rfl
  | case2 rest inductionHypothesis =>
      rw [splitOn_lineFeed, inductionHypothesis, splitOn_lineFeed, splitOn_lineFeed]
      rfl
  | case3 c rest noLineFeed inductionHypothesis =>
      have ofLine : '\n' ∉ [c] := by simpa using Ne.symm noLineFeed
      obtain ⟨first, others, -, lines_eq⟩ := exists_splitOn_append ofLine rest
      obtain ⟨_, _, shifted_eq, whole_eq⟩ :=
        exists_splitOn_append oneLine (shiftChars indent (c :: rest))
      rw [List.singleton_append] at lines_eq
      rw [inductionHypothesis, lines_eq] at shifted_eq
      obtain ⟨rfl, rfl⟩ := List.cons.inj shifted_eq
      rw [splitOn_lineFeed, whole_eq, splitOn_lineFeed, lines_eq]
      rfl
  | case4 c rest noLine inductionHypothesis =>
      by_cases isLineFeed : c = '\n'
      · cases rest with
        | nil =>
            subst isLineFeed
            rfl
        | cons next others => exact absurd rfl (noLine next others isLineFeed)
      · have ofLine : '\n' ∉ [c] := by simpa using Ne.symm isLineFeed
        obtain ⟨first, others, rest_eq, lines_eq⟩ := exists_splitOn_append ofLine rest
        obtain ⟨_, _, shifted_eq, whole_eq⟩ := exists_splitOn_append ofLine (shiftChars indent rest)
        rw [inductionHypothesis, rest_eq] at shifted_eq
        obtain ⟨rfl, rfl⟩ := List.cons.inj shifted_eq
        rw [List.singleton_append] at lines_eq whole_eq
        rw [whole_eq, lines_eq]
        rfl

theorem replaceChars_nil (old new : List Char) : replaceChars old new [] = [] := rfl

/-- Line feeds stay where indentations are replaced. -/
theorem lineFeed_mem_replaceChars
    {text : List Char}
    (inside : '\n' ∈ text)
    (old new : List Char) : '\n' ∈ replaceChars old new text := by
  obtain ⟨front, rest, rfl, oneLine⟩ := List.eq_append_cons_of_mem inside
  rw [replaceChars_append oneLine, List.mem_append]
  refine .inr ?_
  by_cases begins : ('\n' :: old) <+: '\n' :: rest
  · obtain ⟨more, rfl⟩ := (List.cons_prefix_cons.mp begins).2
    rw [replaceChars_line]
    exact List.mem_cons_self
  · rw [replaceChars_cons begins]
    exact List.mem_cons_self

/-- If an indentation is taken away from all texts shifted by another one, they are the same. -/
theorem eq_of_replaceChars_shiftChars
    {written : List Char}
    (nonempty : indent ≠ [])
    (undone : ∀ text, replaceChars indent [] (shiftChars written text) = text) :
    written = indent := by
  -- The shortest text with a line that is shifted: only its `x` is left of that line.
  have ofLine : replaceChars indent [] ('\n' :: (written ++ ['x'])) = ['\n', 'x'] :=
    undone ['\n', 'x']
  have unchanged {text : List Char} (replaced : replaceChars indent [] text = ['x']) :
      text = ['x'] := by
    have oneLine : '\n' ∉ text := by
      intro inside
      have stays := lineFeed_mem_replaceChars inside indent []
      rw [replaced] at stays
      exact absurd stays (by decide)
    have same : replaceChars indent [] (text ++ []) = text ++ replaceChars indent [] [] :=
      replaceChars_append oneLine []
    rw [List.append_nil, replaced, replaceChars_nil, List.append_nil] at same
    exact same.symm
  by_cases begins : indent <+: written ++ ['x']
  · obtain ⟨rest, rest_eq⟩ := begins
    rw [← rest_eq, replaceChars_line, List.nil_append] at ofLine
    rw [unchanged (List.cons.inj ofLine).2] at rest_eq
    exact (List.append_cancel_right rest_eq).symm
  · rw [replaceChars_cons fun whole => begins (List.cons_prefix_cons.mp whole).2] at ofLine
    have empty : written = [] := List.append_cancel_right (unchanged (List.cons.inj ofLine).2)
    have unshifted := undone ('\n' :: (indent ++ []))
    rw [empty, shiftChars_nil, replaceChars_line, replaceChars_nil, List.nil_append,
      List.append_nil] at unshifted
    exact absurd (List.cons.inj unshifted).2.symm nonempty

end Shifted

/-! ## Indentations written with escapes -/

/-- An indentation stands for itself behind a line feed. -/
def IsLiteral (indent : String) : Prop :=
  Text.expand "\n" ("\n" ++ indent) = .ok ("\n" ++ indent)

theorem isLiteral_of_not_mem {indent : String} (unescaped : '\\' ∉ indent.toList) :
    IsLiteral indent :=
  Text.expand_of_not_mem "\n" (by simpa using unescaped)

variable {indent : String}

/-- A character that is no escape comes first in what is read from it on. -/
theorem exists_of_expandFrom
    {replaced chars : List Char}
    {length : Nat}
    {cut : Bool}
    {c : Char}
    {rest : List Text.Mark}
    (expanded : Text.expandFrom replaced length cut 0 (.plain c :: rest) = .ok chars) :
    ∃ more, chars = c :: more := by
  rw [Text.expandFrom] at expanded
  dsimp only at expanded
  split at expanded
  · cases expanded
  · cases others : Text.expandFrom replaced length cut 0 rest with
    | error fault =>
        rw [others] at expanded
        cases expanded
    | ok more =>
        rw [others] at expanded
        cases expanded
        exact ⟨more, rfl⟩

/-- What is put in place of a line feed begins with one. -/
theorem exists_of_expand_lineFeed
    {expanded : String}
    (read : Text.expand "\n" ("\n" ++ indent) = .ok expanded) :
    ∃ written, expanded = "\n" ++ written := by
  have marks_eq : Text.marks ("\n" ++ indent).toList = .plain '\n' :: Text.marks indent.toList := by
    rw [String.toList_append]
    simp [Text.marks]
  unfold Text.expand at read
  dsimp only at read
  split at read
  · next chars chars_eq =>
      rw [marks_eq] at chars_eq
      obtain ⟨more, rfl⟩ := exists_of_expandFrom chars_eq
      cases read
      refine ⟨String.ofList more, String.toList_inj.mp ?_⟩
      simp only [String.toList_append, String.toList_ofList]
      rfl
  · cases read

theorem reindent_of_expand
    (nonempty : indent ≠ "")
    {written : String}
    (expanded : Text.expand "\n" ("\n" ++ indent) = .ok ("\n" ++ written))
    (text : String) : reindent text indent = .ok (shift text written) := by
  have drop_eq : ("\n" ++ written).toList.drop 1 = written.toList := by
    rw [String.toList_append]
    rfl
  unfold reindent shift
  rw [if_neg (by simpa using nonempty), expanded, ← drop_eq]
  rfl

theorem exists_expand_of_reindent
    (nonempty : indent ≠ "")
    {text shifted : String}
    (reindented : reindent text indent = .ok shifted) :
    ∃ written, Text.expand "\n" ("\n" ++ indent) = .ok ("\n" ++ written) := by
  unfold reindent at reindented
  rw [if_neg (by simpa using nonempty)] at reindented
  cases read : Text.expand "\n" ("\n" ++ indent) with
  | error fault =>
      rw [read] at reindented
      cases reindented
  | ok expanded =>
      obtain ⟨written, rfl⟩ := exists_of_expand_lineFeed read
      exact ⟨written, rfl⟩

theorem reindent_of_isLiteral (literal : IsLiteral indent) (text : String) :
    reindent text indent = .ok (shift text indent) := by
  by_cases nonempty : indent = ""
  · rw [nonempty, reindent_of_not_mem text (by simp)]
  · exact reindent_of_expand nonempty literal text

theorem rebase_of_ne_empty
    (nonempty : indent ≠ "")
    (text new : String) :
    rebase text indent new = .ok (String.ofList
      (replaceChars indent.toList new.toList text.toList)) := by
  unfold rebase
  rw [if_neg (by simpa using nonempty), ← toList_replaceIndent, String.ofList_toList]

theorem rebase_shift
    (oneLine : '\n' ∉ indent.toList)
    {other : String}
    (unescaped : '\\' ∉ other.toList)
    (text : String) :
    rebase (shift text indent) indent other = .ok (shift text other) := by
  by_cases empty : indent = ""
  · rw [empty, rebase_of_not_mem _ _ unescaped]
    simp only [shiftFrom, shift, String.toList_empty, shiftChars_nil, String.ofList_toList]
    rfl
  · have nonempty : indent.toList ≠ [] := by simpa using empty
    rw [rebase_of_ne_empty empty, shift, String.toList_ofList,
      replaceChars_shiftChars nonempty oneLine, shift]

/-- An indentation can be taken away again from all texts exactly if it is literal. -/
theorem isLiteral_iff (oneLine : '\n' ∉ indent.toList) :
    IsLiteral indent ↔ ∀ text, ∃ shifted,
      reindent text indent = .ok shifted ∧ rebase shifted indent "" = .ok text := by
  constructor
  · intro literal text
    refine ⟨shift text indent, reindent_of_isLiteral literal text, ?_⟩
    rw [rebase_shift oneLine (by simp), shift, String.toList_empty, shiftChars_nil,
      String.ofList_toList]
  · intro undone
    -- `written` is what the escapes stand for; all texts come back only if it is `indent` itself.
    by_cases empty : indent = ""
    · exact isLiteral_of_not_mem (by simp [empty])
    obtain ⟨_, reindented, -⟩ := undone ""
    obtain ⟨written, expanded⟩ := exists_expand_of_reindent empty reindented
    have undoneChars : ∀ text,
        replaceChars indent.toList [] (shiftChars written.toList text) = text := by
      intro text
      obtain ⟨shifted, reindented, taken⟩ := undone (String.ofList text)
      cases reindented.symm.trans (reindent_of_expand empty expanded _)
      rw [rebase_of_ne_empty empty] at taken
      simp only [shift, String.toList_ofList, String.toList_empty] at taken
      exact String.ofList_injective (Except.ok.inj taken)
    have nonempty : indent.toList ≠ [] := by simpa using empty
    have same := eq_of_replaceChars_shiftChars nonempty undoneChars
    rwa [String.toList_inj.mp same] at expanded

/--
An indentation that is put before the lines of a text can be taken away again, whatever the text is,
exactly if it is literal, as all without a backslash are.  Then it may also give way to spaces and
tabs, and it stands neither on the first line nor on empty lines.
-/
theorem reindent_undone (oneLine : '\n' ∉ indent.toList) :
    ('\\' ∉ indent.toList → IsLiteral indent) ∧
      (IsLiteral indent ↔ ∀ text, ∃ shifted,
        reindent text indent = .ok shifted ∧ rebase shifted indent "" = .ok text) ∧
      (IsLiteral indent → ∀ text, ∃ shifted,
        reindent text indent = .ok shifted ∧
          (∀ other, IsIndentation other → rebase shifted indent other = reindent text other) ∧
          shifted.toList.splitOn '\n' =
            behindFirst (indentLine indent.toList) (text.toList.splitOn '\n')) := by
  refine ⟨isLiteral_of_not_mem, isLiteral_iff oneLine, fun literal text =>
    ⟨shift text indent, reindent_of_isLiteral literal text, fun other blank => ?_, ?_⟩⟩
  · have unescaped : '\\' ∉ other.toList := notMem_of_isIndent blank (by decide)
    rw [rebase_shift oneLine unescaped, reindent_of_not_mem text unescaped]
  · rw [shift, String.toList_ofList, splitOn_shiftChars oneLine]

theorem reindent_undone_indentedLine :
    '\n' ∉ "\t".toList ∧ IsLiteral "\t" ∧
      reindent "a\r\n\n\tb\n" "\t" = .ok "a\r\n\n\t\tb\n" ∧
      rebase "a\r\n\n\t\tb\n" "\t" "" = .ok "a\r\n\n\tb\n" ∧
      rebase "a\r\n\n\t\tb\n" "\t" "  " = reindent "a\r\n\n\tb\n" "  " := by
  have oneLine : '\n' ∉ "\t".toList := by decide
  have shifted_eq : reindent "a\r\n\n\tb\n" "\t" = .ok "a\r\n\n\t\tb\n" := by rfl
  obtain ⟨unescaped, undone, moved⟩ := reindent_undone oneLine
  have literal : IsLiteral "\t" := unescaped (by decide)
  obtain ⟨_, again_eq, taken⟩ := undone.mp literal "a\r\n\n\tb\n"
  cases shifted_eq.symm.trans again_eq
  obtain ⟨_, again_eq, others, -⟩ := moved literal "a\r\n\n\tb\n"
  cases shifted_eq.symm.trans again_eq
  have blank : "  ".toList.all isIndent = true := by decide
  exact ⟨oneLine, literal, shifted_eq, taken, others "  " (List.all_eq_true.mp blank)⟩

/-- A backslash and a letter are put before a line as the character that they are written for. -/
theorem escape_not_undone :
    '\n' ∉ "\\t".toList ∧ reindent "a\nb" "\\t" = .ok "a\n\tb" ∧
      ¬∃ shifted, reindent "a\nb" "\\t" = .ok shifted ∧ rebase shifted "\\t" "" = .ok "a\nb" := by
  have shifted_eq : reindent "a\nb" "\\t" = .ok "a\n\tb" := by rfl
  have kept : rebase "a\n\tb" "\\t" "" = .ok "a\n\tb" := by rfl
  refine ⟨by decide, shifted_eq, ?_⟩
  rintro ⟨_, again_eq, taken⟩
  cases shifted_eq.symm.trans again_eq
  exact absurd (Except.ok.inj (kept.symm.trans taken)) (by decide)

end Layout

end JupiterMigration
