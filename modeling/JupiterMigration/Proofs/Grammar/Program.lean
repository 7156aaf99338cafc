import JupiterMigration.Proofs.Grammar.Enclosure
import JupiterMigration.Proofs.Grammar.FirstGap

/-!
# Declarations one after the other

A program is read declaration by declaration.  A declaration that ends with a semicolon is read in
the same way whatever follows it, if only what it is can end so (`standsAlone_of_isEnd`).  So such
declarations can be taken out and put in at the beginning of a program, and what comes after them
is read as before, with any gap before it (`outcome_program_regap`).
-/

namespace JupiterMigration.Java

open Rule Phrase

/-- The rule for a whole program. -/
def program : Rule Category := .many (.call .topLevel)

/-- A phrase that is read as a declaration of its own, whatever follows it. -/
def StandsAlone (phrase : Phrase) : Prop :=
  ∀ rest, outcome (.call .topLevel) (phrase.tokens ++ rest) = some ([phrase], rest)

/-- A phrase whose last token is a semicolon. -/
def EndsInSemicolon (phrase : Phrase) : Prop :=
  ∃ front stop, phrase.tokens = front ++ [stop] ∧ IsEnd stop

variable {phrase : Phrase} {phrases front back : List Phrase} {tokens left : List Token}

theorem isGrounded_topLevel : isGrounded Category.rule (.call .topLevel) = true := by
  decide +kernel

theorem isGrounded_program : isGrounded Category.rule program = true := by
  decide +kernel

theorem readProgram_eq_some_iff :
    readProgram tokens = some phrases ↔ outcome program tokens = some (phrases, []) := by
  have read_eq : read Category.rule (steps tokens) (.many (.call .topLevel)) tokens =
      outcome program tokens := rfl
  unfold readProgram
  rw [read_eq]
  rcases outcome program tokens with _ | ⟨found, _ | ⟨first, rest⟩⟩ <;> simp

/-! ## Program and declarations -/

/-- At the top of a file one phrase is read at a time. -/
theorem eq_singleton_of_topLevel
    (found : outcome (.call .topLevel) tokens = some (phrases, left)) :
    ∃ phrase, phrases = [phrase] ∧ phrase.tokens ++ left = tokens := by
  obtain ⟨phrase, rfl⟩ := (derives_of_read found).eq_singleton callDepth (by decide)
  have lossless := read_lossless found
  rw [tokensOfAll, tokensOfAll, List.append_nil] at lossless
  exact ⟨phrase, rfl, lossless⟩

/-- A program is a declaration followed by a program. -/
theorem outcome_program_cons :
    outcome program tokens = some (phrase :: phrases, []) ↔
      ∃ left, outcome (.call .topLevel) tokens = some ([phrase], left) ∧
        outcome program left = some (phrases, []) := by
  rw [program, outcome_many isGrounded_program]
  cases found_eq : outcome (.call .topLevel) tokens with
  | none => simp
  | some found =>
      obtain ⟨firstPhrases, middle⟩ := found
      obtain ⟨first, rfl, -⟩ := eq_singleton_of_topLevel found_eq
      dsimp only
      rw [Option.map_eq_some_iff]
      constructor
      · rintro ⟨⟨more, beyond⟩, later, same⟩
        simp only [List.singleton_append, Prod.mk.injEq, List.cons.injEq] at same
        obtain ⟨⟨rfl, rfl⟩, rfl⟩ := same
        exact ⟨middle, rfl, later⟩
      · rintro ⟨rest, same, later⟩
        cases same
        exact ⟨_, later, rfl⟩

/-- A declaration that ends with a semicolon is read there whatever follows it. -/
theorem standsAlone_of_isEnd
    (found : outcome (.call .topLevel) (phrase.tokens ++ left) = some ([phrase], left))
    (ends : EndsInSemicolon phrase)
    (declares : phrase.isA .declaration = true ∨ phrase.isA .importDeclaration = true) :
    StandsAlone phrase := by
  obtain ⟨front, stop, tokens_eq, isEnd⟩ := ends
  intro rest
  have labelled : ∃ label ∈ [Label.declaration, .importDeclaration], phrase.isA label = true := by
    simpa using declares
  have derived := (derives_of_read found).of_call
  have inside : enclosing front = some 0 := by
    refine enclosing_eq_zero balanced_rule derived (balanced_rule.within .topLevel) isEnd ?_
    rw [tokensOfAll, tokensOfAll, List.append_nil, tokens_eq]
  -- As many steps as are enough whatever follows.
  obtain ⟨count, enough, enoughRest⟩ : ∃ count,
      steps (front ++ [stop] ++ left) ≤ count ∧ steps (front ++ [stop] ++ rest) ≤ count :=
    ⟨_, Nat.le_max_left _ _, Nat.le_max_right _ _⟩
  have readWith {tokens : List Token} (enough : steps tokens ≤ count) :
      outcome (.call .topLevel) tokens =
        Rule.read Category.rule count (Category.rule .topLevel) tokens := by
    obtain ⟨depth, few⟩ := enough_steps (isGrounded_rule .topLevel)
    rw [outcome_call isGrounded_topLevel]
    exact outcome_eq_read (isGrounded_rule .topLevel) ⟨depth, Nat.le_trans few enough⟩
  rw [tokens_eq] at found ⊢
  rw [readWith enough, List.append_assoc, List.singleton_append] at found
  rw [readWith enoughRest, List.append_assoc, List.singleton_append]
  exact read_of_endsFor balanced_rule isEnd endsFor_topLevel labelled inside found rest

/-- Declarations at the beginning of a program that end with semicolons stand alone. -/
theorem standsAlone_of_program
    (found : outcome program (tokensOfAll (front ++ back)) = some (front ++ back, []))
    (ends : ∀ phrase ∈ front, EndsInSemicolon phrase ∧
      (phrase.isA .declaration = true ∨ phrase.isA .importDeclaration = true)) :
    (∀ phrase ∈ front, StandsAlone phrase) ∧
      outcome program (tokensOfAll back) = some (back, []) := by
  induction front with
  | nil => exact ⟨fun _ absurd => (List.not_mem_nil absurd).elim, found⟩
  | cons first rest inductionHypothesis =>
      rw [List.cons_append] at found
      obtain ⟨left, firstFound, restFound⟩ := outcome_program_cons.mp found
      obtain ⟨phrase, same, tokens_eq⟩ := eq_singleton_of_topLevel firstFound
      cases same
      rw [tokensOfAll] at tokens_eq firstFound
      obtain rfl := List.append_cancel_left tokens_eq
      obtain ⟨firstEnds, firstDeclares⟩ := ends first List.mem_cons_self
      obtain ⟨alone, backFound⟩ := inductionHypothesis restFound
        fun phrase later => ends phrase (List.mem_cons_of_mem _ later)
      refine ⟨fun phrase inside => ?_, backFound⟩
      cases inside with
      | head => exact standsAlone_of_isEnd firstFound firstEnds firstDeclares
      | tail _ later => exact alone phrase later

/-! ## Other gaps -/

theorem StandsAlone.regap
    (alone : StandsAlone phrase)
    (filled : Filled phrase)
    (gap : String) : StandsAlone (phrase.regap gap) := by
  intro rest
  rw [tokens_regap gap phrase filled, ← regapTokens_append gap filled.tokens_ne_nil,
    outcome_regap (by decide), alone rest]
  rfl

theorem outcome_program_regap
    (gap : String)
    (found : outcome program tokens = some (phrases, [])) :
    outcome program (regapTokens gap tokens) = some (regapAll gap phrases, []) := by
  rw [outcome_regap (by decide), found]
  cases phrases <;> rfl

end JupiterMigration.Java
