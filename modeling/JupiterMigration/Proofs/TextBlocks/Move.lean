import JupiterMigration.Proofs.Indentation
import JupiterMigration.Proofs.Snippet
import JupiterMigration.Proofs.TextBlocks.Value

/-!
# Text blocks in a text that moves

Moving a text sideways moves a text block in it line by line (`TextBlock.isInfix_shifted`,
`TextBlock.isInfix_realigned`).  Where the text moves from one indentation to another and then
behind the first one, the block keeps its value if its lines that count all begin with that
indentation, or none of them does (`TextBlock.value_moved`).
-/

namespace JupiterMigration

namespace TextBlock

/-! ## Blocks that move -/

/-- A line behind an indentation, unless it is empty. -/
def indentLine (indent line : List Char) : List Char :=
  if line = [] then [] else indent ++ line

/-- A line with one indentation in place of another that it begins with. -/
def rebaseLine (old new line : List Char) : List Char :=
  if old <+: line then new ++ line.drop old.length else line

/-- The block with its lines behind an indentation. -/
def shifted (indent : List Char) (block : TextBlock) : TextBlock :=
  { block with inner := block.inner.map (indentLine indent), last := indent ++ block.last }

/-- The block with one indentation in place of another in its lines. -/
def rebased (old new : List Char) (block : TextBlock) : TextBlock :=
  { block with
    inner := block.inner.map (rebaseLine old new)
    last := rebaseLine old new block.last }

/-- The block with its lines moved to another indentation; from none, empty lines stay empty. -/
def realigned (old new : List Char) (block : TextBlock) : TextBlock :=
  if old = [] then block.shifted new else block.rebased old new

/-- The lines that count all begin with the indentation, or none of them does. -/
def Level (indent : List Char) (block : TextBlock) : Prop :=
  (∀ line ∈ block.counted, indent <+: line) ∨ ∀ line ∈ block.counted, ¬indent <+: line

end TextBlock

namespace Layout

/-! ### Indentations before lines -/

theorem shiftChars_cons
    (indent : List Char)
    {c : Char}
    (noLineFeed : c ≠ '\n')
    (rest : List Char) : shiftChars indent (c :: rest) = c :: shiftChars indent rest := by
  have oneLine : '\n' ∉ [c] := by simpa using noLineFeed.symm
  exact shiftChars_append oneLine indent rest

theorem shiftChars_lineFeed
    (indent : List Char)
    {line : List Char}
    (oneLine : '\n' ∉ line)
    (rest : List Char) :
    shiftChars indent ('\n' :: (line ++ '\n' :: rest)) =
      '\n' :: (TextBlock.indentLine indent line ++ shiftChars indent ('\n' :: rest)) := by
  cases line with
  | nil => simp [TextBlock.indentLine, shiftChars]
  | cons c more =>
      have noLineFeed : c ≠ '\n' := fun same => oneLine (same ▸ List.mem_cons_self)
      have ofLine : shiftChars indent (c :: (more ++ '\n' :: rest)) =
          c :: more ++ shiftChars indent ('\n' :: rest) := shiftChars_append oneLine indent _
      rw [List.cons_append, shiftChars, if_neg noLineFeed, ofLine, TextBlock.indentLine,
        if_neg (List.cons_ne_nil _ _), List.append_assoc]

theorem shiftChars_lastLine
    (indent : List Char)
    {line : List Char}
    {c : Char}
    (oneLine : '\n' ∉ line)
    (noLineFeed : c ≠ '\n')
    (rest : List Char) :
    shiftChars indent ('\n' :: (line ++ c :: rest)) =
      '\n' :: (indent ++ (line ++ c :: shiftChars indent rest)) := by
  have ending := shiftChars_cons indent noLineFeed rest
  cases line with
  | nil => rw [List.nil_append, List.nil_append, shiftChars, if_neg noLineFeed, ending]
  | cons first more =>
      have noLineFeed : first ≠ '\n' := fun same => oneLine (same ▸ List.mem_cons_self)
      have ofLine : shiftChars indent (first :: (more ++ c :: rest)) =
          first :: more ++ shiftChars indent (c :: rest) := shiftChars_append oneLine indent _
      rw [List.cons_append, shiftChars, if_neg noLineFeed, ofLine, ending]

theorem exists_shiftChars_append
    (indent front : List Char)
    (c : Char)
    (rest : List Char) :
    ∃ before, shiftChars indent (front ++ c :: rest) = before ++ shiftChars indent (c :: rest) := by
  induction front with
  | nil => exact ⟨[], rfl⟩
  | cons first more inductionHypothesis =>
      obtain ⟨before, before_eq⟩ := inductionHypothesis
      have step : ∃ start, shiftChars indent (first :: (more ++ c :: rest)) =
          start ++ shiftChars indent (more ++ c :: rest) := by
        obtain ⟨next, others, next_eq⟩ : ∃ next others, more ++ c :: rest = next :: others := by
          cases more <;> exact ⟨_, _, rfl⟩
        rw [next_eq]
        by_cases isLineFeed : first = '\n'
        · subst isLineFeed
          rw [shiftChars]
          split
          · exact ⟨['\n'], rfl⟩
          · exact ⟨'\n' :: indent, rfl⟩
        · exact ⟨[first], shiftChars_cons indent isLineFeed _⟩
      obtain ⟨start, start_eq⟩ := step
      exact ⟨start ++ before, by rw [List.cons_append, start_eq, before_eq, List.append_assoc]⟩

/-! ### One indentation in place of another -/

variable {old new : List Char}

theorem replaceChars_cons {c : Char} {rest : List Char} (other : ¬('\n' :: old) <+: c :: rest) :
    replaceChars old new (c :: rest) = c :: replaceChars old new rest := by
  unfold replaceChars
  rw [Text.piecesFrom, if_neg (by simpa [List.isPrefixOf_iff_prefix] using other),
    intercalate_pushFirst (Text.piecesFrom_ne_nil _ _ _)]

theorem replaceChars_line (rest : List Char) :
    replaceChars old new ('\n' :: (old ++ rest)) = '\n' :: (new ++ replaceChars old new rest) := by
  unfold replaceChars
  rw [Text.piecesFrom, if_pos (by simp [List.isPrefixOf_iff_prefix]),
    List.intercalate_cons_of_ne_nil (Text.piecesFrom_ne_nil _ _ _), List.length_cons,
    Nat.add_sub_cancel, Text.piecesFrom_skip, List.drop_left]
  rfl

theorem replaceChars_append
    {line : List Char}
    (oneLine : '\n' ∉ line)
    (rest : List Char) :
    replaceChars old new (line ++ rest) = line ++ replaceChars old new rest := by
  induction line with
  | nil => rfl
  | cons c more inductionHypothesis =>
      rw [List.mem_cons, not_or] at oneLine
      rw [List.cons_append, replaceChars_cons, inductionHypothesis oneLine.2, List.cons_append]
      exact fun begins => oneLine.1 (List.cons_prefix_cons.mp begins).1

theorem notMem_of_isIndent
    {indent : List Char}
    {c : Char}
    (indentBlank : ∀ c ∈ indent, isIndent c = true)
    (noIndent : isIndent c = false) : c ∉ indent := by
  intro inside
  rw [indentBlank c inside] at noIndent
  cases noIndent

/-- An indentation does not reach beyond a character that is none. -/
theorem isPrefix_of_isPrefix_append
    {line rest : List Char}
    {c : Char}
    (absent : c ∉ old)
    (begins : old <+: line ++ c :: rest) : old <+: line := by
  rcases List.prefix_or_prefix_of_prefix begins (List.prefix_append line (c :: rest)) with
    isPrefix | ⟨more, rfl⟩
  · exact isPrefix
  · cases more with
    | nil => exact ⟨[], by simp⟩
    | cons first others =>
        obtain ⟨rfl, -⟩ := List.cons_prefix_cons.mp ((List.prefix_append_right_inj line).mp begins)
        exact absurd (by simp) absent

theorem replaceChars_rebaseLine
    {line : List Char}
    {c : Char}
    (oneLine : '\n' ∉ line)
    (absent : c ∉ old)
    (rest : List Char) :
    replaceChars old new ('\n' :: (line ++ c :: rest)) =
      '\n' :: (TextBlock.rebaseLine old new line ++ replaceChars old new (c :: rest)) := by
  unfold TextBlock.rebaseLine
  split
  · next begins =>
      obtain ⟨more, rfl⟩ := begins
      have moreLine : '\n' ∉ more := fun inside => oneLine (List.mem_append_right _ inside)
      rw [List.append_assoc, replaceChars_line, replaceChars_append moreLine, List.drop_left,
        List.append_assoc]
  · next other =>
      rw [replaceChars_cons, replaceChars_append oneLine]
      intro begins
      exact other (isPrefix_of_isPrefix_append absent (List.cons_prefix_cons.mp begins).2)

theorem exists_replaceChars_append
    {c : Char}
    (absent : c ∉ old)
    (front rest : List Char) :
    ∃ before, replaceChars old new (front ++ c :: rest) =
      before ++ replaceChars old new (c :: rest) := by
  -- A line feed is passed together with the old indentation behind it, so the recursion is not on
  -- the tail of the list.
  match front with
  | [] => exact ⟨[], rfl⟩
  | first :: more =>
      by_cases begins : ('\n' :: old) <+: first :: (more ++ c :: rest)
      · obtain ⟨rfl, inMore⟩ := List.cons_prefix_cons.mp begins
        obtain ⟨others, rfl⟩ := isPrefix_of_isPrefix_append absent inMore
        obtain ⟨before, before_eq⟩ := exists_replaceChars_append absent others rest
        refine ⟨'\n' :: (new ++ before), ?_⟩
        rw [List.cons_append, List.append_assoc, replaceChars_line, before_eq, List.cons_append,
          List.append_assoc]
      · obtain ⟨before, before_eq⟩ := exists_replaceChars_append absent more rest
        exact ⟨first :: before, by rw [List.cons_append, replaceChars_cons begins, before_eq,
          List.cons_append]⟩
  termination_by front.length

end Layout

namespace TextBlock

open Layout

variable {block : TextBlock} {indent old new : List Char}

/-! ### The lines of a block -/

theorem exists_linesText_append (lines : List (List Char)) (rest : List Char) :
    ∃ more, linesText lines ++ '\n' :: rest = '\n' :: more := by
  cases lines with
  | nil => exact ⟨rest, rfl⟩
  | cons line others => exact ⟨line ++ linesText others ++ '\n' :: rest, by simp [linesText]⟩

/-- Lines in a row change one by one if each line before another one does. -/
theorem change_linesText
    {change : List Char → List Char}
    {changeLine : List Char → List Char}
    (each : ∀ line rest, '\n' ∉ line → change ('\n' :: (line ++ '\n' :: rest)) =
      '\n' :: (changeLine line ++ change ('\n' :: rest)))
    {lines : List (List Char)}
    (oneLine : ∀ line ∈ lines, '\n' ∉ line)
    (rest : List Char) :
    change (linesText lines ++ '\n' :: rest) =
      linesText (lines.map changeLine) ++ change ('\n' :: rest) := by
  induction lines with
  | nil => rfl
  | cons line others inductionHypothesis =>
      obtain ⟨ofLine, ofOthers⟩ := List.forall_mem_cons.mp oneLine
      obtain ⟨more, more_eq⟩ := exists_linesText_append others rest
      have changed := inductionHypothesis ofOthers
      have split_eq : linesText (line :: others) ++ '\n' :: rest =
          '\n' :: (line ++ (linesText others ++ '\n' :: rest)) := by simp [linesText]
      rw [more_eq] at changed
      rw [split_eq, more_eq, each line more ofLine, changed]
      simp [linesText]

theorem shiftChars_text (wellFormed : block.WellFormed) (rest : List Char) :
    shiftChars indent (block.text ++ rest) =
      (block.shifted indent).text ++ shiftChars indent rest := by
  have oneLine : '\n' ∉ quotes ++ block.opening := by
    simpa [quotes] using wellFormed.opening
  have isQuote : '"' ≠ '\n' := by decide
  have split_eq : block.text ++ rest = quotes ++ block.opening ++ (linesText block.inner ++
      '\n' :: (block.last ++ '"' :: '"' :: '"' :: rest)) := by
    simp [text, quotes]
  rw [split_eq, shiftChars_append oneLine,
    change_linesText (fun line rest oneLine => shiftChars_lineFeed indent oneLine rest)
      wellFormed.inner,
    shiftChars_lastLine indent wellFormed.last isQuote, shiftChars_cons indent isQuote,
    shiftChars_cons indent isQuote]
  simp [text, shifted, quotes]

theorem replaceChars_text
    (oldBlank : ∀ c ∈ old, isIndent c = true)
    (wellFormed : block.WellFormed)
    (rest : List Char) :
    replaceChars old new (block.text ++ rest) =
      (block.rebased old new).text ++ replaceChars old new rest := by
  have absent {c : Char} (noIndent : isIndent c = false) : c ∉ old :=
    notMem_of_isIndent oldBlank noIndent
  have oneLine : '\n' ∉ quotes ++ block.opening := by
    simpa [quotes] using wellFormed.opening
  have ending : replaceChars old new ('"' :: '"' :: '"' :: rest) =
      '"' :: '"' :: '"' :: replaceChars old new rest :=
    replaceChars_append (show '\n' ∉ quotes by decide) rest
  have split_eq : block.text ++ rest = quotes ++ block.opening ++ (linesText block.inner ++
      '\n' :: (block.last ++ '"' :: '"' :: '"' :: rest)) := by
    simp [text, quotes]
  rw [split_eq, replaceChars_append oneLine,
    change_linesText (fun line rest oneLine => replaceChars_rebaseLine oneLine (absent rfl) rest)
      wellFormed.inner,
    replaceChars_rebaseLine wellFormed.last (absent (by decide)), ending]
  simp [text, rebased, quotes]

theorem WellFormed.shifted
    (indentBlank : ∀ c ∈ indent, isIndent c = true)
    (wellFormed : block.WellFormed) : (block.shifted indent).WellFormed where
  opening := wellFormed.opening
  inner := by
    intro line inside
    obtain ⟨old, isOld, rfl⟩ := List.mem_map.mp inside
    unfold indentLine
    split
    · exact List.not_mem_nil
    · rw [List.mem_append, not_or]
      exact ⟨notMem_of_isIndent indentBlank (by decide), wellFormed.inner old isOld⟩
  last := by
    unfold TextBlock.shifted
    rw [List.mem_append, not_or]
    exact ⟨notMem_of_isIndent indentBlank (by decide), wellFormed.last⟩

theorem lineFeed_notMem_rebaseLine
    {line : List Char}
    (newBlank : ∀ c ∈ new, isIndent c = true)
    (oneLine : '\n' ∉ line) : '\n' ∉ rebaseLine old new line := by
  unfold rebaseLine
  split
  · rw [List.mem_append, not_or]
    exact ⟨notMem_of_isIndent newBlank (by decide), fun inside =>
      oneLine (List.mem_of_mem_drop inside)⟩
  · exact oneLine

theorem WellFormed.realigned
    (newBlank : ∀ c ∈ new, isIndent c = true)
    (wellFormed : block.WellFormed) : (block.realigned old new).WellFormed := by
  unfold TextBlock.realigned
  split
  · exact wellFormed.shifted newBlank
  · refine ⟨wellFormed.opening, fun line inside => ?_, ?_⟩
    · obtain ⟨before, isBefore, rfl⟩ := List.mem_map.mp inside
      exact lineFeed_notMem_rebaseLine newBlank (wellFormed.inner before isBefore)
    · exact lineFeed_notMem_rebaseLine newBlank wellFormed.last

theorem isInfix_shifted
    {text indent : String}
    (wellFormed : block.WellFormed)
    (inside : block.text <:+: text.toList) :
    (block.shifted indent.toList).text <:+: (shift text indent).toList := by
  obtain ⟨front, back, text_eq⟩ := inside
  obtain ⟨rest, begins⟩ : ∃ rest, block.text ++ back = '"' :: rest := ⟨_, rfl⟩
  obtain ⟨before, before_eq⟩ := exists_shiftChars_append indent.toList front '"' rest
  rw [shift, String.toList_ofList, ← text_eq, List.append_assoc, begins, before_eq, ← begins,
    shiftChars_text wellFormed]
  exact ⟨before, _, List.append_assoc _ _ _⟩

/-- A block in a text moves with the text to another indentation. -/
theorem isInfix_realigned
    {text old new : String}
    (oldBlank : IsIndentation old)
    (wellFormed : block.WellFormed)
    (inside : block.text <:+: text.toList) :
    (block.realigned old.toList new.toList).text <:+: (shiftFrom text old new).toList := by
  unfold realigned shiftFrom
  by_cases isNone : old = ""
  · rw [if_pos (by simpa using isNone), if_pos (by simpa using isNone)]
    exact isInfix_shifted wellFormed inside
  · rw [if_neg (by simpa using isNone), if_neg (by simpa using isNone)]
    obtain ⟨front, back, text_eq⟩ := inside
    obtain ⟨rest, begins⟩ : ∃ rest, block.text ++ back = '"' :: rest := ⟨_, rfl⟩
    have absent : '"' ∉ old.toList := notMem_of_isIndent oldBlank (by decide)
    obtain ⟨before, before_eq⟩ : ∃ before,
        replaceChars old.toList new.toList (front ++ '"' :: rest) =
          before ++ replaceChars old.toList new.toList ('"' :: rest) :=
      exists_replaceChars_append absent front rest
    rw [toList_replaceIndent, ← text_eq, List.append_assoc, begins, before_eq, ← begins,
      replaceChars_text oldBlank wellFormed]
    exact ⟨before, _, List.append_assoc _ _ _⟩

/-! ### The value of a block that moves -/

theorem isBlank_of_isIndent {c : Char} (blank : isIndent c = true) : isBlank c = true := by
  simp only [isIndent, Bool.or_eq_true] at blank
  simp only [isBlank, Bool.or_eq_true]
  exact .inl (.inl blank)

theorem all_indentLine
    (indentBlank : ∀ c ∈ indent, isBlank c = true)
    (line : List Char) : (indentLine indent line).all isBlank = line.all isBlank := by
  unfold indentLine
  split
  · next isEmpty => rw [isEmpty]
  · rw [List.all_append, List.all_eq_true.mpr indentBlank, Bool.true_and]

theorem all_rebaseLine
    (oldBlank : ∀ c ∈ old, isBlank c = true)
    (newBlank : ∀ c ∈ new, isBlank c = true)
    (line : List Char) : (rebaseLine old new line).all isBlank = line.all isBlank := by
  unfold rebaseLine
  split
  · next begins =>
      obtain ⟨rest, rfl⟩ := begins
      rw [List.drop_left, List.all_append, List.all_append, List.all_eq_true.mpr oldBlank,
        List.all_eq_true.mpr newBlank]
  · rfl

/-- A line moved to another indentation and then behind the first one. -/
def movedLine (old new line : List Char) : List Char :=
  indentLine old (if old = [] then indentLine new line else rebaseLine old new line)

theorem moved_eq (old new : List Char) (block : TextBlock) :
    (block.realigned old new).shifted old =
      { block with
        inner := block.inner.map (movedLine old new)
        last := old ++ rebaseLine old new block.last } := by
  unfold realigned movedLine
  split
  · next isNone => simp [shifted, rebaseLine, isNone, Function.comp_def]
  · simp [shifted, rebased, Function.comp_def]

theorem all_movedLine
    (oldBlank : ∀ c ∈ old, isBlank c = true)
    (newBlank : ∀ c ∈ new, isBlank c = true)
    (line : List Char) : (movedLine old new line).all isBlank = line.all isBlank := by
  unfold movedLine
  rw [all_indentLine oldBlank]
  split
  · exact all_indentLine newBlank line
  · exact all_rebaseLine oldBlank newBlank line

theorem movedLine_of_counts
    {line : List Char}
    (oldBlank : ∀ c ∈ old, isBlank c = true)
    (newBlank : ∀ c ∈ new, isBlank c = true)
    (counts : line.all isBlank = false) :
    movedLine old new line = old ++ rebaseLine old new line := by
  have nonempty {other : List Char} (counts : other.all isBlank = false) : other ≠ [] := by
    rintro rfl
    cases counts
  have realigned_eq : (if old = [] then indentLine new line else rebaseLine old new line) =
      rebaseLine old new line := by
    split
    · next isNone => simp [indentLine, rebaseLine, isNone, nonempty counts]
    · rfl
  rw [movedLine, realigned_eq, indentLine, if_neg]
  exact nonempty ((all_rebaseLine oldBlank newBlank line).trans counts)

/-- The value of a block stays the same if its lines that count agree on the old indentation. -/
theorem value_moved
    (oldIndent : ∀ c ∈ old, isIndent c = true)
    (newIndent : ∀ c ∈ new, isIndent c = true)
    (level : block.Level old) : ((block.realigned old new).shifted old).value = block.value := by
  have oldBlank : ∀ c ∈ old, isBlank c = true := fun c inside =>
    isBlank_of_isIndent (oldIndent c inside)
  have newBlank : ∀ c ∈ new, isBlank c = true := fun c inside =>
    isBlank_of_isIndent (newIndent c inside)
  -- The lines that count move by the width of the new indentation or by that of the old one.
  obtain ⟨column, distance, moves⟩ : ∃ column distance, ∀ line ∈ block.counted,
      LineShifts column distance line (old ++ rebaseLine old new line) := by
    rcases level with begin | differ
    · refine ⟨old.length, new.length, fun line inside => ?_⟩
      obtain ⟨rest, rfl⟩ := begin line inside
      rw [rebaseLine, if_pos (List.prefix_append _ _), List.drop_left, ← List.append_assoc]
      refine lineShifts_append oldBlank (fun c isFront => ?_) List.length_append rest
      exact (List.mem_append.mp isFront).elim (oldBlank c) (newBlank c)
    · refine ⟨0, old.length, fun line inside => ?_⟩
      rw [rebaseLine, if_neg (differ line inside)]
      have noneBlank : ∀ c ∈ ([] : List Char), isBlank c = true := by simp
      exact lineShifts_append noneBlank oldBlank (Nat.zero_add _).symm line
  rw [moved_eq]
  refine Shifts.value_eq ⟨?_, moves _ ?_⟩
  · rw [List.forall₂_map_right_iff, List.forall₂_same]
    intro line inside
    rw [all_movedLine oldBlank newBlank]
    cases counts : line.all isBlank with
    | true => exact .inl ⟨rfl, rfl⟩
    | false =>
        rw [movedLine_of_counts oldBlank newBlank counts]
        refine .inr ⟨rfl, rfl, moves line (List.mem_append_left _ (List.mem_filter.mpr ?_))⟩
        exact ⟨inside, by rw [counts]; rfl⟩
  · exact List.mem_append_right _ (List.mem_singleton_self _)

end TextBlock

end JupiterMigration
