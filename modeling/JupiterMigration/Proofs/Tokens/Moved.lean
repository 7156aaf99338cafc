import JupiterMigration.Proofs.Tokens.CutUp
import JupiterMigration.Proofs.Tokens.Moved.Lexemes

/-!
# Tokens in texts with the same lines

Moving lines sideways moves the tokens on them: tokens at the beginning of a text are cut off alike
from every text with the same lines (`exists_recut`).  So nested tokens of a source are cut up again
wherever their text has moved to, behind any gap (`cutUp_of_scanFrom`).
-/

namespace JupiterMigration.Java

open Text Layout

variable
  {gap : Nat}
  {front front' back other : List Char}
  {embeddings before after base base' : List Embedding}
  {stack stack' : List Bracket}
  {found : Lexeme}

/-- A token that ends in a text is cut off it, whatever follows. -/
theorem scanFrom_of_cut
    (gap_eq : gapLength .outside (front ++ back) = some gap)
    (gapInside : gap ≤ front.length)
    (found_eq : lexeme embeddings (front.drop gap ++ back) = some found)
    (positive : 0 < found.length)
    (inside : found.length ≤ (front.drop gap).length) :
    scanFrom embeddings (front ++ back) =
      (scanFrom found.opened ((front.drop gap).drop found.length ++ back)).map
        (precede [⟨String.ofList (front.take gap),
          String.ofList ((front.drop gap).take found.length), found.kind⟩]) := by
  have gap_length : (front.take gap).length = gap := List.length_take_of_le gapInside
  have word_length : ((front.drop gap).take found.length).length = found.length :=
    List.length_take_of_le inside
  have rest_eq : front.drop gap = (front.drop gap).take found.length ++
      (front.drop gap).drop found.length := (List.take_append_drop _ _).symm
  have front_eq : front = front.take gap ++ front.drop gap := (List.take_append_drop _ _).symm
  generalize (front.drop gap).take found.length = word at *
  generalize (front.drop gap).drop found.length = others at *
  generalize front.take gap = spaces at *
  rw [rest_eq] at found_eq front_eq
  obtain ⟨kind, length, opened⟩ := found
  dsimp only at *
  subst gap_length word_length front_eq
  rw [List.append_assoc, List.append_assoc] at gap_eq ⊢
  rw [List.append_assoc] at found_eq
  have nonempty : (String.ofList word).toList ≠ [] := by
    rw [String.toList_ofList]
    exact List.ne_nil_of_length_pos positive
  have isGap : gapLength .outside ((String.ofList spaces).toList ++ ((String.ofList word).toList ++
      (others ++ back))) = some (String.ofList spaces).toList.length := by
    simpa using gap_eq
  have isFound : lexeme embeddings ((String.ofList word).toList ++ (others ++ back)) =
      some ⟨kind, (String.ofList word).toList.length, opened⟩ := by
    simpa using found_eq
  simpa using scanFrom_cons isGap isFound nonempty

/--
Some tokens at the beginning of a text are cut off alike from a text with the same lines: they nest
as the tokens do, and what they leave open for embedded expressions is alike.
-/
theorem exists_recut
    {tokens more : List Token}
    {tail : String}
    (scanned : scanFrom before (front ++ back) = some (tokens ++ more, tail))
    (source_eq : (sourceOf tokens).toList = front)
    (ends : front ≠ [] → EndsAlike front back other)
    (lines : SameLines front front')
    (alike : OpenAlike base base' stack before after)
    (nests : nestAll stack tokens = some stack') :
    ∃ tokens' before' after', (sourceOf tokens').toList = front' ∧
      nestAll stack tokens' = some stack' ∧ OpenAlike base base' stack' before' after' ∧
      scanFrom after (front' ++ other) = (scanFrom after' other).map (precede tokens') := by
  induction tokens generalizing before after front front' stack with
  | nil =>
      obtain rfl : [] = front := source_eq
      obtain rfl := lines.eq_nil
      refine ⟨[], before, after, rfl, nests, ?_, ?_⟩
      · cases nests
        exact alike
      · rw [List.nil_append]
        cases scanFrom after other <;> rfl
  | cons first rest inductionHypothesis =>
      obtain ⟨spaces, word, remaining, found, whole_eq, rfl, wordNonempty, gap_eq, found_eq,
        word_length, scannedRest⟩ := exists_split_of_scanFrom scanned
      obtain ⟨middle, nestsFirst, nestsRest⟩ := Option.bind_eq_some_iff.mp (nestAll_cons ▸ nests)
      have front_eq : front = spaces ++ (word ++ (sourceOf rest).toList) := by
        rw [← source_eq, sourceOf_cons]
        simp
      subst front_eq
      have remaining_eq : remaining = (sourceOf rest).toList ++ back := by simpa using whole_eq.symm
      subst remaining_eq
      rw [← List.append_assoc] at found_eq
      have positive : 0 < word.length := List.length_pos_iff.mpr wordNonempty
      have endsWhole := ends (by simp [wordNonempty])
      have endsWord : EndsAlike (word ++ (sourceOf rest).toList) back other :=
        endsWhole.of_append (by simp [wordNonempty])
      obtain ⟨gap', gap_eq', cutGap⟩ := passAlike_of_sameLines endsWhole gap_eq rfl (by
        simp only [List.length_append]
        omega) lines.behind
      have linesWord := cutGap.lines
      rw [List.drop_left] at linesWord
      have noSpace : ∀ c ∈ (word ++ (sourceOf rest).toList).head?, isSpace c = false := by
        intro c isHead
        refine isSpace_of_gapLength gap_eq c ?_
        rw [whole_eq, List.drop_left, ← List.append_assoc, List.head?_append, isHead]
        rfl
      have nestsWord : Token.nest stack ⟨String.ofList spaces, String.ofList
          ((word ++ (sourceOf rest).toList).take found.length), found.kind⟩ = some middle := by
        rw [word_length, List.take_left]
        exact nestsFirst
      obtain ⟨found', found_eq', positive', cutWord, nestsWord', alikeWord⟩ :=
        lexemeAlike_of_sameLines endsWord linesWord alike noSpace found_eq
          (by omega) (by rw [word_length, List.length_append]; omega) nestsWord
      have linesRest := cutWord.lines
      rw [word_length, List.drop_left] at linesRest
      obtain ⟨tokens', before', after', source_eq', nests', alike', scan_eq⟩ :=
        inductionHypothesis scannedRest rfl (fun nonempty => endsWord.of_append nonempty) linesRest
          alikeWord nestsRest
      refine ⟨⟨String.ofList (front'.take gap'),
        String.ofList ((front'.drop gap').take found'.length), found'.kind⟩ :: tokens', before',
        after', ?_, ?_, alike', ?_⟩
      · rw [sourceOf_cons, String.toList_append, String.toList_append, source_eq',
          String.toList_ofList, String.toList_ofList, List.append_assoc, List.take_append_drop,
          List.take_append_drop]
      · rw [nestAll_cons, nestsWord']
        exact nests'
      · rw [scanFrom_of_cut gap_eq' cutGap.inside' found_eq' positive' cutWord.inside', scan_eq,
          Option.map_map]
        rfl

/-- Tokens are cut off in the same way behind any gap. -/
theorem scanFrom_behind_gap
    {text : List Char}
    {first : Token}
    {others more : List Token}
    {tail gap : String}
    (scanned : scanFrom before text = some (first :: others ++ more, tail))
    (isGap : IsGap gap) :
    scanFrom before (gap.toList ++
        ((textOf (first :: others)).toList ++ (sourceOf more ++ tail).toList)) =
      some ({ first with gap } :: others ++ more, tail) := by
  obtain ⟨spaces, word, remaining, found, rfl, rfl, wordNonempty, gap_eq, found_eq, word_length,
    scannedRest⟩ := exists_split_of_scanFrom scanned
  have behind_eq : (spaces ++ (word ++ remaining)).drop spaces.length = _ :=
    drop_gap_of_scanFrom scanned (by rw [List.take_left])
  have none := gapLength_drop gap_eq
  rw [List.drop_left] at behind_eq none
  rw [← behind_eq]
  have again : lexeme before ((String.ofList word).toList ++ remaining) =
      some ⟨found.kind, (String.ofList word).toList.length, found.opened⟩ := by
    rw [String.toList_ofList, ← word_length, found_eq]
  have gapAgain : gapLength .outside (gap.toList ++ ((String.ofList word).toList ++ remaining)) =
      some gap.toList.length := by
    rw [String.toList_ofList]
    exact isGap.gapLength_append none
  have whole := scanFrom_cons gapAgain again (by rwa [String.toList_ofList])
  rw [String.toList_ofList, scannedRest] at whole
  rw [whole]
  rfl

/--
Nested tokens of a source are cut up again from any text with the same lines, behind any gap and
before anything that goes on with none of them.
-/
theorem cutUp_of_scanFrom
    {text rest : List Char}
    {part more : List Token}
    {tail gap moved : String}
    (scanned : scanFrom before text = some (part ++ more, tail))
    (nonempty : part ≠ [])
    (nested : Nested part)
    (ends : EndsAlike (textOf part).toList (sourceOf more ++ tail).toList rest)
    (isGap : IsGap gap)
    (lines : SameLines (textOf part).toList moved.toList)
    (stack : List Bracket) : CutUp stack stack rest (gap ++ moved) := by
  obtain ⟨first, others, rfl⟩ := List.exists_cons_of_ne_nil nonempty
  have regapped := scanFrom_behind_gap scanned isGap
  have source_eq : (sourceOf ({ first with gap } :: others)).toList =
      gap.toList ++ (textOf (first :: others)).toList := by
    rw [sourceOf_eq_gapOf_append_textOf, String.toList_append]
    rfl
  have nestedAgain : nestAll [] ({ first with gap } :: others) = some [] := nested
  rw [← List.append_assoc] at regapped
  have endsBehind : EndsAlike (gap.toList ++ (textOf (first :: others)).toList)
      (sourceOf more ++ tail).toList rest :=
    ends.imp_left fun ⟨c, isLast, closes⟩ =>
      ⟨c, by rw [List.getLast?_append, isLast, Option.some_or]; rfl, closes⟩
  have alike : OpenAlike before [] [] before [] := .nil
  obtain ⟨tokens, before', after, tokens_eq, nests, alike, scan_eq⟩ := exists_recut regapped
    source_eq (fun _ => endsBehind) ((SameLines.refl gap.toList).append lines) alike nestedAgain
  cases alike
  refine ⟨tokens, ?_, ?_, Nested.nestAll_eq nests stack⟩
  · rw [← String.toList_inj, tokens_eq, String.toList_append]
  · rw [String.toList_append]
    exact scan_eq

/--
Wherever its lines move to, a text is cut up into nested tokens, behind any gap and before any of
some rests.
-/
def Movable (IsRest : List Char → Prop) (text : String) : Prop :=
  ∀ {moved gap rest} stack, SameLines text.toList moved.toList → IsGap gap → IsRest rest →
    CutUp stack stack rest (gap ++ moved)

end JupiterMigration.Java
