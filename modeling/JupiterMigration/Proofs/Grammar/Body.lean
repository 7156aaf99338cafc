import JupiterMigration.Proofs.Grammar.Nesting
import JupiterMigration.Proofs.Grammar.Opening

/-!
# A class that opens with the body of a method

A snippet that is a statement is read in the body of a method without parameters.  The tokens up to
the body are known, so the class comes first in the program, the method in the class, and the
statements in the method (`phrases_of_bodyOpening`).  The statements close what they open, so the
first brace that nothing among them opens is the one behind them.
-/

namespace JupiterMigration.Java

open Rule

/-- The tokens of a class up to the statements of its first member, a method without parameters. -/
def bodyOpening : List Token :=
  [⟨"", "class", .word⟩, ⟨" ", "__Synthesized__", .word⟩, ⟨" ", "\x7b", .symbol⟩,
    ⟨"\n", "void", .word⟩, ⟨" ", "__synthesized__", .word⟩, ⟨"", "(", .symbol⟩, ⟨"", ")", .symbol⟩,
    ⟨" ", "\x7b", .symbol⟩]

/-- The rule for a method that begins as in the opening. -/
def bodyMethod : Rule Category :=
  .node .declaration (.seq .done (.node .methodDeclaration
    (.seq .done (.seq (.node .type (.seq (.word "void") .done)) (.seq (.name [])
      (.seq (.node .parameters (.seq (.symbol "(") (.seq .done (.symbol ")"))))
        (.seq .done (.seq .done (.either
          (.node .block (.seq (.symbol "\x7b") (.seq (.many (.call .statement)) (.symbol "\x7d"))))
          (.symbol ";"))))))))))

theorem resolve_bodyOpening :
    resolve Category.rule 100 (.many (.call .topLevel)) (bodyOpening.map .exact) =
      .either (.seq (openingClass bodyMethod) (.many (.call .topLevel))) .done :=
  rfl

/-- The phrase of a method without modifiers, parameters and a result. -/
def bodyPhrase (void name opening closing : Token) (body : Phrase) : Phrase :=
  .node .declaration [.node .methodDeclaration [.node .type [.leaf false void], .leaf true name,
    .node .parameters [.leaf false opening, .leaf false closing], body]]

theorem Rule.Derives.of_bodyMethod
    {phrases : List Phrase}
    (derived : Derives Category.rule bodyMethod phrases) :
    ∃ void name opening closing body, phrases = [bodyPhrase void name opening closing body] ∧
      ((∃ first statements last, last.IsClosing ∧ Nested (Phrase.tokensOfAll statements) ∧
        body = .node .block (.leaf false first :: (statements ++ [.leaf false last]))) ∨
      ∃ token, token.text = ";" ∧ body = .leaf false token) := by
  obtain ⟨_, rfl, declared⟩ := derived.of_node
  obtain ⟨_, _, rfl, noModifiers, derivedMethod⟩ := declared.of_seq
  obtain rfl := noModifiers.eq_nil
  obtain ⟨_, rfl, parts⟩ := derivedMethod.of_node
  obtain ⟨_, _, rfl, noGenerics, afterGenerics⟩ := parts.of_seq
  obtain rfl := noGenerics.eq_nil
  obtain ⟨_, _, rfl, derivedType, afterType⟩ := afterGenerics.of_seq
  obtain ⟨_, rfl, type⟩ := derivedType.of_node
  obtain ⟨_, _, rfl, derivedVoid, noDimensions⟩ := type.of_seq
  obtain ⟨void, rfl⟩ := derivedVoid.of_word
  obtain rfl := noDimensions.eq_nil
  obtain ⟨_, _, rfl, derivedName, afterName⟩ := afterType.of_seq
  obtain ⟨name, rfl⟩ := derivedName.of_name
  obtain ⟨_, _, rfl, derivedParameters, afterParameters⟩ := afterName.of_seq
  obtain ⟨_, rfl, list⟩ := derivedParameters.of_node
  obtain ⟨_, _, rfl, derivedOpening, afterOpening⟩ := list.of_seq
  obtain ⟨opening, rfl, -⟩ := derivedOpening.of_symbol
  obtain ⟨_, _, rfl, noParameter, derivedClosing⟩ := afterOpening.of_seq
  obtain rfl := noParameter.eq_nil
  obtain ⟨closing, rfl, -⟩ := derivedClosing.of_symbol
  obtain ⟨_, _, rfl, noDimensions, afterDimensions⟩ := afterParameters.of_seq
  obtain rfl := noDimensions.eq_nil
  obtain ⟨_, _, rfl, noThrows, derivedBody⟩ := afterDimensions.of_seq
  obtain rfl := noThrows.eq_nil
  cases derivedBody.of_either with
  | inl derivedBlock =>
      obtain ⟨_, rfl, block⟩ := derivedBlock.of_node
      obtain ⟨_, _, rfl, derivedFirst, afterFirst⟩ := block.of_seq
      obtain ⟨first, rfl, -⟩ := derivedFirst.of_symbol
      obtain ⟨statements, _, rfl, derivedStatements, derivedLast⟩ := afterFirst.of_seq
      have nested : Nested (Phrase.tokensOfAll statements) :=
        nestAll_of_derives nest_rule derivedStatements rfl
      cases derivedLast with
      | @symbol _ last isSymbol closes =>
          exact ⟨void, name, opening, closing, _, rfl,
            .inl ⟨first, statements, last, ⟨isSymbol, closes⟩, nested, rfl⟩⟩
  | inr derivedSemicolon =>
      obtain ⟨token, rfl, ends⟩ := derivedSemicolon.of_symbol
      exact ⟨void, name, opening, closing, _, rfl, .inr ⟨token, ends, rfl⟩⟩

/-- A program that opens with a body begins with a class whose first member is the method. -/
theorem phrases_of_bodyOpening
    {more : List Token}
    {phrases : List Phrase}
    (found : readProgram (bodyOpening ++ more) = some phrases) :
    ∃ keyword className firstOfClass lastOfClass void name opening closing first last
        statements members others,
      phrases = classPhrase keyword className firstOfClass lastOfClass
        (bodyPhrase void name opening closing
          (.node .block (.leaf false first :: (statements ++ [.leaf false last]))) :: members) ::
          others ∧
      last.IsClosing ∧ Nested (Phrase.tokensOfAll statements) ∧
      Phrase.tokensOfAll statements ++ last ::
        (Phrase.tokensOfAll members ++ lastOfClass :: Phrase.tokensOfAll others) = more := by
  have tokens_eq := readProgram_lossless found
  unfold readProgram at found
  split at found
  · next readPhrases readAll =>
      cases found
      obtain ⟨spare, steps_eq⟩ : ∃ spare, steps (bodyOpening ++ more) = spare + 100 := by
        refine ⟨2000 * ((bodyOpening ++ more).length + 1) - 100, ?_⟩
        unfold steps
        omega
      rw [steps_eq] at readAll
      have fits : List.Forall₂ Sketch.Fits (bodyOpening.map .exact) bodyOpening := by
        simp [bodyOpening, Sketch.Fits]
      have derived := derives_resolve fits readAll
      rw [resolve_bodyOpening] at derived
      cases derived.of_either with
      | inr nothing =>
          rw [nothing.eq_nil] at tokens_eq
          cases tokens_eq
      | inl derived =>
          obtain ⟨_, others, rfl, derivedClass, -⟩ := derived.of_seq
          obtain ⟨keyword, className, firstOfClass, lastOfClass, members, rfl, closes, inside⟩ :=
            derivedClass.of_openingClass
          rcases inside with rfl | ⟨_, later, rfl, derivedMember⟩
          · simp only [bodyOpening, classPhrase, Phrase.tokensOfAll, Phrase.tokens,
              List.cons_append, List.nil_append, List.append_nil, List.cons.injEq] at tokens_eq
            rw [tokens_eq.2.2.2.1] at closes
            exact absurd closes (by decide)
          · obtain ⟨void, name, opening, closing, body, rfl, isBody⟩ := derivedMember.of_bodyMethod
            rcases isBody with ⟨first, statements, last, ends, nested, rfl⟩ | ⟨token, isEnd, rfl⟩
            · refine ⟨keyword, className, firstOfClass, lastOfClass, void, name, opening, closing,
                first, last, statements, later, others, rfl, ends, nested, ?_⟩
              simp only [bodyOpening, classPhrase, bodyPhrase, Phrase.tokensOfAll,
                Phrase.tokensOfAll_append, Phrase.tokens, List.cons_append, List.nil_append,
                List.append_nil, List.append_assoc, List.cons.injEq] at tokens_eq
              exact tokens_eq.2.2.2.2.2.2.2.2
            · simp only [bodyOpening, classPhrase, bodyPhrase, Phrase.tokensOfAll, Phrase.tokens,
                List.cons_append, List.nil_append, List.append_nil, List.cons.injEq] at tokens_eq
              rw [tokens_eq.2.2.2.2.2.2.2.1] at isEnd
              exact absurd isEnd (by decide)
  · cases found

end JupiterMigration.Java
