import JupiterMigration.ExpectedException.ClassMigration

/-!
# Moving lines sideways

Shifting a text only puts spaces and tabs behind line feeds or takes them away.  `Layout.flush`
deletes all of them, so it cannot tell a text from a shifted one (`flushOnto_shiftFrom`), and a
lambda body cannot be told from the statements in it but for line feeds at its beginning
(`normal_lambdaBody`).
-/

namespace JupiterMigration

namespace Layout

/-- The characters before some others that follow them, without indentation. -/
def flushBefore (c : Char) (rest : List Char) : List Char :=
  if c = '\n' then c :: rest.dropWhile isIndent else c :: rest

/-- A text before some others, without the spaces and tabs directly after each line feed. -/
def flushOnto (text rest : List Char) : List Char :=
  text.foldr flushBefore rest

/-- The text without the spaces and tabs directly after each line feed. -/
def flush (text : List Char) : List Char :=
  flushOnto text []

/-- The text without indentation, and without the line feeds that it then begins with. -/
def normal (text : String) : String :=
  String.ofList ((flush text.toList).dropWhile (· == '\n'))

/-- A text of spaces and tabs. -/
def IsIndentation (text : String) : Prop :=
  ∀ c ∈ text.toList, isIndent c = true

theorem flushOnto_append (front back rest : List Char) :
    flushOnto (front ++ back) rest = flushOnto front (flushOnto back rest) :=
  List.foldr_append

theorem ne_lineFeed_of_isIndent {c : Char} (blank : isIndent c = true) : c ≠ '\n' := by
  rintro rfl
  exact absurd blank (by decide)

/-- Spaces and tabs are white space. -/
theorem isSpace_of_isIndent {c : Char} (blank : isIndent c = true) : Text.isSpace c = true := by
  simp only [isIndent, Bool.or_eq_true, beq_iff_eq] at blank
  rcases blank with rfl | rfl <;> decide

theorem isIndent_eq_false {c : Char} (noSpace : Text.isSpace c = false) : isIndent c = false :=
  Bool.eq_false_iff.mpr fun blank => by
    rw [isSpace_of_isIndent blank] at noSpace
    cases noSpace

/-- Spaces and tabs behind a line feed do not count. -/
theorem dropWhile_flushOnto
    {indent : List Char}
    (blank : ∀ c ∈ indent, isIndent c = true)
    (rest : List Char) :
    (flushOnto indent rest).dropWhile isIndent = rest.dropWhile isIndent := by
  induction indent with
  | nil => rfl
  | cons c more inductionHypothesis =>
      obtain ⟨isBlank, moreBlank⟩ := List.forall_mem_cons.mp blank
      have step : flushOnto (c :: more) rest = c :: flushOnto more rest :=
        if_neg (ne_lineFeed_of_isIndent isBlank)
      rw [step, List.dropWhile_cons_of_pos isBlank, inductionHypothesis moreBlank]

theorem flushOnto_line
    {indent : List Char}
    (blank : ∀ c ∈ indent, isIndent c = true)
    (text rest : List Char) :
    flushOnto ('\n' :: (indent ++ text)) rest =
      '\n' :: (flushOnto text rest).dropWhile isIndent := by
  have step : flushOnto ('\n' :: (indent ++ text)) rest =
      '\n' :: (flushOnto (indent ++ text) rest).dropWhile isIndent := rfl
  rw [step, flushOnto_append, dropWhile_flushOnto blank]

/-! ## Shifted texts -/

/-- An indentation put before lines does not count. -/
theorem flushOnto_shiftChars
    {indent : List Char}
    (blank : ∀ c ∈ indent, isIndent c = true)
    (text rest : List Char) : flushOnto (shiftChars indent text) rest = flushOnto text rest := by
  fun_induction shiftChars indent text with
  | case1 => rfl
  | case2 others inductionHypothesis =>
      exact congrArg (flushBefore '\n') inductionHypothesis
  | case3 c others _ inductionHypothesis =>
      rw [flushOnto_line blank, inductionHypothesis]
      rfl
  | case4 c others _ inductionHypothesis =>
      exact congrArg (flushBefore c) inductionHypothesis

theorem intercalate_pushFirst
    {separator : List Char}
    {c : Char}
    {pieces : List (List Char)}
    (nonempty : pieces ≠ []) :
    separator.intercalate (Text.pushFirst c pieces) = c :: separator.intercalate pieces := by
  cases pieces with
  | nil => exact absurd rfl nonempty
  | cons piece rest =>
      cases rest with
      | nil => rfl
      | cons next more =>
          rw [Text.pushFirst, List.intercalate_cons_cons, List.intercalate_cons_cons]
          rfl

/-- An indentation put in place of another one does not count. -/
theorem flushOnto_intercalate
    {old new : List Char}
    (oldBlank : ∀ c ∈ old, isIndent c = true)
    (newBlank : ∀ c ∈ new, isIndent c = true)
    (skip : Nat)
    (text rest : List Char) :
    flushOnto (('\n' :: new).intercalate (Text.piecesFrom ('\n' :: old) skip text)) rest =
      flushOnto (text.drop skip) rest := by
  induction text generalizing skip with
  | nil => cases skip <;> rfl
  | cons c others inductionHypothesis =>
      cases skip with
      | succ skip => exact inductionHypothesis skip
      | zero =>
          rw [Text.piecesFrom]
          split
          · next begins =>
              obtain ⟨more, whole⟩ := List.isPrefixOf_iff_prefix.mp begins
              obtain ⟨rfl, others_eq⟩ := List.cons.inj whole
              obtain rfl : others = old ++ more := others_eq.symm
              rw [List.intercalate_cons_of_ne_nil (Text.piecesFrom_ne_nil _ _ _), List.nil_append,
                List.cons_append, flushOnto_line newBlank, inductionHypothesis, List.length_cons,
                Nat.add_sub_cancel, List.drop_left, List.drop_zero]
              exact (flushOnto_line oldBlank more rest).symm
          · rw [intercalate_pushFirst (Text.piecesFrom_ne_nil _ _ _)]
            exact congrArg (flushBefore c) (inductionHypothesis 0)

/-- The text with one indentation in place of another, character by character. -/
def replaceChars (old new text : List Char) : List Char :=
  ('\n' :: new).intercalate (Text.piecesFrom ('\n' :: old) 0 text)

theorem toList_replaceIndent (text old new : String) :
    (replaceIndent text old new).toList = replaceChars old.toList new.toList text.toList := by
  have pieces_eq : (Text.splitOn text ("\n" ++ old)).map String.toList =
      Text.piecesFrom ('\n' :: old.toList) 0 text.toList := by
    unfold Text.splitOn Text.pieces
    rw [List.map_map, String.toList_append]
    simp [Function.comp_def]
  have separator : ("\n" ++ new).toList = '\n' :: new.toList := String.toList_append
  rw [replaceIndent, Text.replaceAll, String.toList_intercalate, pieces_eq, separator, replaceChars]

/-- Moving lines from one indentation to another does not count. -/
theorem flushOnto_shiftFrom
    {old new : String}
    (oldBlank : IsIndentation old)
    (newBlank : IsIndentation new)
    (text : String)
    (rest : List Char) :
    flushOnto (shiftFrom text old new).toList rest = flushOnto text.toList rest := by
  unfold shiftFrom
  split
  · rw [shift, String.toList_ofList, flushOnto_shiftChars newBlank]
  · rw [toList_replaceIndent, replaceChars, flushOnto_intercalate oldBlank newBlank, List.drop_zero]

/-! ## Lambda bodies -/

theorem flush_line (rest : List Char) :
    flush ('\n' :: rest) = '\n' :: (flush rest).dropWhile isIndent := rfl

/-- Line feeds behind a line feed at the beginning do not count. -/
theorem dropWhile_flush_dropWhile (text : List Char) :
    ((flush (text.dropWhile (· == '\n'))).dropWhile isIndent).dropWhile (· == '\n') =
      ((flush text).dropWhile isIndent).dropWhile (· == '\n') := by
  induction text with
  | nil => rfl
  | cons c rest inductionHypothesis =>
      by_cases isLineFeed : c = '\n'
      · subst isLineFeed
        rw [List.dropWhile_cons_of_pos (by decide), inductionHypothesis, flush_line,
          List.dropWhile_cons_of_neg (by decide), List.dropWhile_cons_of_pos (by decide)]
      · rw [List.dropWhile_cons_of_neg (by simpa using isLineFeed)]

theorem joinLineFeeds_of_ne {c : Char} (noLineFeed : c ≠ '\n') (rest : List Char) :
    joinLineFeeds (c :: rest) = c :: rest := by
  unfold joinLineFeeds
  split
  · next same => exact absurd (List.cons.inj same).1 noLineFeed
  · rfl

/-- Line feeds are joined before anything else that a text holds. -/
theorem joinLineFeeds_append
    {c : Char}
    (noLineFeed : c ≠ '\n')
    (front rest : List Char) :
    joinLineFeeds (front ++ c :: rest) = joinLineFeeds front ++ c :: rest := by
  cases front with
  | nil => exact joinLineFeeds_of_ne noLineFeed rest
  | cons first others =>
      by_cases isLineFeed : first = '\n'
      · have stops : (c :: rest).dropWhile (· == '\n') = c :: rest :=
          List.dropWhile_cons_of_neg (by simpa using noLineFeed)
        have dropped : (others ++ c :: rest).dropWhile (· == '\n') =
            others.dropWhile (· == '\n') ++ c :: rest := by
          rw [List.dropWhile_append, stops]
          split
          · next nothing => rw [List.isEmpty_iff.mp nothing, List.nil_append]
          · rfl
        rw [isLineFeed]
        exact congrArg ('\n' :: ·) dropped
      · rw [List.cons_append, joinLineFeeds_of_ne isLineFeed, joinLineFeeds_of_ne isLineFeed,
          List.cons_append]
theorem dropWhile_flush_joinLineFeeds (text : List Char) :
    (flush (joinLineFeeds text)).dropWhile (· == '\n') =
      (flush text).dropWhile (· == '\n') := by
  unfold joinLineFeeds
  split
  · next rest =>
      rw [flush_line, flush_line, List.dropWhile_cons_of_pos (by decide),
        List.dropWhile_cons_of_pos (by decide), dropWhile_flush_dropWhile]
  · rfl

/-- Shifted statements, one after the other. -/
theorem flush_join_shiftFrom
    {old new : String}
    (oldBlank : IsIndentation old)
    (newBlank : IsIndentation new)
    (statements : List Statement) :
    flush (String.join (statements.map fun statement =>
      shiftFrom statement.print old new)).toList =
      flush (printAll Statement.print statements).toList := by
  unfold printAll flush
  induction statements with
  | nil => rfl
  | cons first rest inductionHypothesis =>
      rw [List.map_cons, List.map_cons, String.join_cons, String.join_cons,
        String.toList_append, String.toList_append, flushOnto_append, flushOnto_append,
        inductionHypothesis, flushOnto_shiftFrom oldBlank newBlank]

/-- The statements of a lambda body stand in it in order, apart from their indentation. -/
theorem normal_lambdaBody
    {layout : Layout}
    {indent : String}
    (unitBlank : IsIndentation layout.unit)
    (indentBlank : IsIndentation indent)
    (statements : List Statement) :
    normal (layout.lambdaBody statements indent) =
      normal (printAll Statement.print statements) := by
  unfold normal lambdaBody
  rw [String.toList_ofList, dropWhile_flush_joinLineFeeds,
    flush_join_shiftFrom indentBlank unitBlank]

/-! ## Indentations in use -/

theorem isIndentation_indentation (text : String) : IsIndentation (indentation text) := by
  unfold IsIndentation indentation
  rw [String.toList_ofList]
  exact fun c inside => List.all_eq_true.mp List.all_takeWhile c inside

theorem IsIndentation.append
    {front back : String}
    (frontBlank : IsIndentation front)
    (backBlank : IsIndentation back) : IsIndentation (front ++ back) := by
  intro c inside
  rw [String.toList_append, List.mem_append] at inside
  exact inside.elim (frontBlank c) (backBlank c)

theorem isIndentation_memberIndent
    {layout : Layout}
    (unitBlank : IsIndentation layout.unit)
    (decl : ClassDecl) : IsIndentation (layout.memberIndent decl) := by
  unfold memberIndent
  split
  · exact isIndentation_indentation _
  · exact .append (isIndentation_indentation _) unitBlank

theorem isIndentation_statementIndent
    {layout : Layout}
    {memberIndent : String}
    (unitBlank : IsIndentation layout.unit)
    (memberBlank : IsIndentation memberIndent)
    (decl : Method) : IsIndentation (layout.statementIndent decl memberIndent) := by
  unfold statementIndent
  split
  · split
    · exact isIndentation_indentation _
    · exact .append memberBlank unitBlank
  · exact .append memberBlank unitBlank

theorem isIndentation_of_beyond?
    {outer text unit : String}
    (found : beyond? outer (indentation text) = some unit) : IsIndentation unit := by
  unfold beyond? at found
  split at found
  · cases found
    intro c inside
    rw [String.toList_ofList] at inside
    exact isIndentation_indentation text c (List.mem_of_mem_drop inside)
  · cases found

theorem isIndentation_of_unitOfMember?
    {classIndent unit : String}
    {member : Member}
    (found : unitOfMember? classIndent member = some unit) : IsIndentation unit := by
  unfold unitOfMember? at found
  rcases Option.or_eq_some_iff.mp found with beyondClass | ⟨-, beyondMember⟩
  · exact isIndentation_of_beyond? beyondClass
  · obtain ⟨statement, -, beyondMember⟩ := Option.bind_eq_some_iff.mp beyondMember
    exact isIndentation_of_beyond? beyondMember

theorem isIndentation_detectUnit (source : SourceUnit) : IsIndentation (detectUnit source) := by
  unfold detectUnit
  cases found : source.members.findSome? unitOfClass? with
  | none => exact fun c inside => by simp_all [defaultUnit, isIndent]
  | some unit =>
      obtain ⟨member, -, member_eq⟩ := List.exists_of_findSome?_eq_some found
      cases member with
      | classDecl head members =>
          obtain ⟨inner, -, inner_eq⟩ := List.exists_of_findSome?_eq_some member_eq
          exact isIndentation_of_unitOfMember? inner_eq
      | _ => cases member_eq

/-- The unit of a file is an indentation, also if another one is asked for. -/
theorem isIndentation_ofUnit
    {override : Option String}
    (overrideBlank : ∀ unit, override = some unit → IsIndentation unit)
    (source : SourceUnit) : IsIndentation (ofUnit source override).unit := by
  unfold ofUnit
  split
  · next unit =>
      dsimp only
      split
      · exact isIndentation_detectUnit source
      · exact overrideBlank unit rfl
  · exact isIndentation_detectUnit source

end Layout

end JupiterMigration
