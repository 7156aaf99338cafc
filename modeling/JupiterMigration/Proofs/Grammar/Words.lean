import JupiterMigration.Proofs.Grammar.Derivation
import JupiterMigration.Proofs.Usage

/-!
# Words that no rule asks for

A word that is no keyword of the grammar can only be read as a name.  If the grammar has no keyword
of some kind, every word of that kind in a program is used as a name where it stands
(`namesWordsAll_of_readProgram`), and so every phrase with such a word mentions it
(`NamesWords.mem_allNames`).
-/

namespace JupiterMigration.Java

open Rule

section Special

variable (special : String → Bool)

mutual

/-- Each of the words in question that a phrase consists of is used as a name there. -/
def NamesWords : Phrase → Prop
  | .leaf isName token => token.kind = .word → special token.text = true → isName = true
  | .node _ parts => NamesWordsAll parts

/-- All of some phrases use the words in question as names. -/
def NamesWordsAll : List Phrase → Prop
  | [] => True
  | first :: rest => NamesWords first ∧ NamesWordsAll rest

end

variable {special}

theorem namesWordsAll_iff {phrases : List Phrase} :
    NamesWordsAll special phrases ↔ ∀ phrase ∈ phrases, NamesWords special phrase := by
  induction phrases with
  | nil => simp [NamesWordsAll]
  | cons first rest inductionHypothesis => simp [NamesWordsAll, inductionHypothesis]

theorem namesWordsAll_append {front back : List Phrase} :
    NamesWordsAll special (front ++ back) ↔
      NamesWordsAll special front ∧ NamesWordsAll special back := by
  simp only [namesWordsAll_iff, List.mem_append]
  grind

/-- The parts of a phrase use words as names if the phrase does. -/
theorem namesWords_of_mem_parts
    {part whole : Phrase}
    (names : NamesWords special whole)
    (inside : part ∈ whole.parts) : NamesWords special part := by
  cases whole with
  | leaf isName token => cases inside
  | node label parts => exact namesWordsAll_iff.mp names part inside

variable {token : Token}

mutual

/-- A phrase mentions the words that it uses as names. -/
theorem NamesWords.mem_allNames
    (isWord : token.kind = .word)
    (isSpecial : special token.text = true)
    (phrase : Phrase)
    (names : NamesWords special phrase)
    (inside : token ∈ phrase.tokens) : token.text ∈ phrase.allNames := by
  cases phrase with
  | leaf isName other =>
      obtain rfl := List.mem_singleton.mp inside
      obtain rfl := names isWord isSpecial
      exact List.mem_singleton_self _
  | node label parts =>
      rw [Phrase.allNames_node]
      exact NamesWordsAll.mem_allNamesOf isWord isSpecial parts names inside

theorem NamesWordsAll.mem_allNamesOf
    (isWord : token.kind = .word)
    (isSpecial : special token.text = true)
    (phrases : List Phrase)
    (names : NamesWordsAll special phrases)
    (inside : token ∈ Phrase.tokensOfAll phrases) : token.text ∈ Phrase.allNamesOf phrases := by
  cases phrases with
  | nil => cases inside
  | cons first rest =>
      rw [Phrase.allNamesOf_cons, List.mem_append]
      cases List.mem_append.mp inside with
      | inl inFirst => exact .inl (names.1.mem_allNames isWord isSpecial first inFirst)
      | inr inRest => exact .inr (names.2.mem_allNamesOf isWord isSpecial rest inRest)

end

/-- Whether a rule reads none of the words in question as a keyword. -/
def spares {C : Type} (special : String → Bool) : Rule C → Bool
  | .word text | .gluedWord text => !special text
  | .kind accepts => !accepts .word
  | .node _ inner | .many inner => spares special inner
  | .seq first second | .either first second | .guarded _ first second =>
    spares special first && spares special second
  | _ => true

theorem namesWordsAll_of_derives
    {C : Type}
    {table : C → Rule C}
    {rule : Rule C}
    {phrases : List Phrase}
    (tableSpares : ∀ category, spares special (table category) = true)
    (derived : Derives table rule phrases)
    (ruleSpares : spares special rule = true) : NamesWordsAll special phrases := by
  induction derived with
  | done | stop => trivial
  | word _ same | gluedWord _ same =>
      subst same
      refine ⟨fun _ isSpecial => ?_, trivial⟩
      rw [spares, isSpecial] at ruleSpares
      cases ruleSpares
  | name => exact ⟨fun _ _ => rfl, trivial⟩
  | symbol isSymbol | glued isSymbol =>
      refine ⟨fun isWord => ?_, trivial⟩
      rw [isSymbol] at isWord
      cases isWord
  | kind accepted =>
      refine ⟨fun isWord => ?_, trivial⟩
      rw [isWord] at accepted
      rw [spares, accepted] at ruleSpares
      cases ruleSpares
  | call _ inductionHypothesis => exact inductionHypothesis (tableSpares _)
  | node _ inductionHypothesis => exact ⟨inductionHypothesis ruleSpares, trivial⟩
  | seq _ _ firstHypothesis secondHypothesis =>
      rw [spares, Bool.and_eq_true] at ruleSpares
      exact namesWordsAll_append.mpr ⟨firstHypothesis ruleSpares.1, secondHypothesis ruleSpares.2⟩
  | first _ inductionHypothesis | yes _ inductionHypothesis =>
      rw [spares, Bool.and_eq_true] at ruleSpares
      exact inductionHypothesis ruleSpares.1
  | second _ inductionHypothesis | no _ inductionHypothesis =>
      rw [spares, Bool.and_eq_true] at ruleSpares
      exact inductionHypothesis ruleSpares.2
  | more _ _ frontHypothesis backHypothesis =>
      exact namesWordsAll_append.mpr ⟨frontHypothesis ruleSpares, backHypothesis ruleSpares⟩

/-- A program uses all words of a kind as names if the grammar has no keywords of that kind. -/
theorem namesWordsAll_of_readProgram
    {tokens : List Token}
    {phrases : List Phrase}
    (tableSpares : ∀ category, spares special (Category.rule category) = true)
    (found : readProgram tokens = some phrases) : NamesWordsAll special phrases := by
  unfold readProgram at found
  split at found
  · next readAll =>
      cases found
      exact namesWordsAll_of_derives tableSpares (derives_of_read readAll) rfl
  · cases found

end Special

end JupiterMigration.Java
