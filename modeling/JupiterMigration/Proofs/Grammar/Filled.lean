import JupiterMigration.Proofs.Grammar.Written

/-!
# Phrases without tokens

No labelled phrase of a program is without tokens (`filledAll_of_readProgram`).
-/

namespace JupiterMigration.Java

open Rule

mutual

/-- The phrase and every phrase below it has a token. -/
def Filled : Phrase → Prop
  | .leaf .. => True
  | .node _ parts => Phrase.tokensOfAll parts ≠ [] ∧ FilledAll parts

/-- All of some phrases are filled. -/
def FilledAll : List Phrase → Prop
  | [] => True
  | first :: rest => Filled first ∧ FilledAll rest

end

theorem filledAll_iff {phrases : List Phrase} :
    FilledAll phrases ↔ ∀ phrase ∈ phrases, Filled phrase := by
  induction phrases with
  | nil => simp [FilledAll]
  | cons first rest inductionHypothesis => simp [FilledAll, inductionHypothesis]

theorem filledAll_append {front back : List Phrase} :
    FilledAll (front ++ back) ↔ FilledAll front ∧ FilledAll back := by
  simp only [filledAll_iff, List.mem_append]
  grind

theorem Filled.tokens_ne_nil {phrase : Phrase} (filled : Filled phrase) : phrase.tokens ≠ [] := by
  cases phrase with
  | leaf isName token => exact List.cons_ne_nil token []
  | node label parts => exact filled.1

/-- The parts of a filled phrase are filled. -/
theorem filled_of_mem_parts
    {part whole : Phrase}
    (filled : Filled whole)
    (inside : part ∈ whole.parts) : Filled part := by
  cases whole with
  | leaf isName token => cases inside
  | node label parts => exact filledAll_iff.mp filled.2 part inside

/-- Whether every labelled phrase that a rule writes itself has a token. -/
def fills {C : Type} (table : C → Rule C) : Rule C → Bool
  | .node _ inner => !canBeEmpty table callDepth inner && fills table inner
  | .seq first second | .either first second | .guarded _ first second =>
    fills table first && fills table second
  | .many inner => fills table inner
  | _ => true

theorem filledAll_of_derives
    {C : Type}
    {table : C → Rule C}
    {rule : Rule C}
    {phrases : List Phrase}
    (tableFills : ∀ category, fills table (table category) = true)
    (derived : Derives table rule phrases)
    (ruleFills : fills table rule = true) : FilledAll phrases := by
  induction derived with
  | done | stop => trivial
  | word | gluedWord | name | symbol | glued | kind => simp [FilledAll, Filled]
  | call _ inductionHypothesis => exact inductionHypothesis (tableFills _)
  | node inner inductionHypothesis =>
      simp only [fills, Bool.and_eq_true, Bool.not_eq_true'] at ruleFills
      exact ⟨⟨inner.tokens_ne_nil callDepth ruleFills.1, inductionHypothesis ruleFills.2⟩, trivial⟩
  | seq _ _ firstHypothesis secondHypothesis =>
      simp only [fills, Bool.and_eq_true] at ruleFills
      exact filledAll_append.mpr ⟨firstHypothesis ruleFills.1, secondHypothesis ruleFills.2⟩
  | first _ inductionHypothesis | yes _ inductionHypothesis =>
      simp only [fills, Bool.and_eq_true] at ruleFills
      exact inductionHypothesis ruleFills.1
  | second _ inductionHypothesis | no _ inductionHypothesis =>
      simp only [fills, Bool.and_eq_true] at ruleFills
      exact inductionHypothesis ruleFills.2
  | more _ _ frontHypothesis backHypothesis =>
      exact filledAll_append.mpr ⟨frontHypothesis ruleFills, backHypothesis ruleFills⟩

theorem fills_rule (category : Category) : fills Category.rule (Category.rule category) = true := by
  cases category with
  | expression arrows | operand arrows | primary arrows | selectors arrows | assignable arrows =>
      cases arrows <;> decide
  | _ => decide

/-- The labelled phrases of a program have tokens. -/
theorem filledAll_of_readProgram
    {tokens : List Token}
    {phrases : List Phrase}
    (found : readProgram tokens = some phrases) : FilledAll phrases := by
  unfold readProgram at found
  split at found
  · next readAll =>
      cases found
      exact filledAll_of_derives fills_rule (derives_of_read readAll) rfl
  · cases found

end JupiterMigration.Java
