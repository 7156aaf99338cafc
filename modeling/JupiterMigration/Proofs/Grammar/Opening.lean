import JupiterMigration.Proofs.Grammar.Lookahead
import JupiterMigration.Proofs.Grammar.Shape

/-!
# A class that opens with a method

What the tokens of a class up to the parameters of its first method say about the phrases of the
whole program: the class comes first, and its first member is the method (`phrases_of_opening`).
-/

namespace JupiterMigration.Java

open Rule

/-- The tokens of a class up to the parameters of its first member, a method without a result. -/
def opening (name : String) : List Token :=
  [⟨"", "class", .word⟩, ⟨" ", "__Synthesized__", .word⟩, ⟨" ", "\x7b", .symbol⟩,
    ⟨"\n", "public", .word⟩, ⟨" ", "void", .word⟩, ⟨" ", name, .word⟩, ⟨"", "(", .symbol⟩]

/-- What is known of the tokens of an opening, whatever the name is. -/
def openingSketch : List Sketch :=
  [.exact ⟨"", "class", .word⟩, .exact ⟨" ", "__Synthesized__", .word⟩,
    .exact ⟨" ", "\x7b", .symbol⟩, .exact ⟨"\n", "public", .word⟩, .exact ⟨" ", "void", .word⟩,
    .word, .exact ⟨"", "(", .symbol⟩]

theorem opening_fits (name : String) : List.Forall₂ Sketch.Fits openingSketch (opening name) := by
  simp [openingSketch, opening, Sketch.Fits]

/-- The rule for a method that begins as in the opening. -/
def openingMethod (parameters back : Rule Category) : Rule Category :=
  .node .declaration (.seq (.node .modifiers (.seq (.word "public") .done))
    (.node .methodDeclaration (.seq .done (.seq (.node .type (.seq (.word "void") .done))
      (.seq (.name []) (.seq (.node .parameters (.seq (.symbol "(") parameters)) back))))))

/-- The rule for a class with a given rule for its first member. -/
def openingClass (member : Rule Category) : Rule Category :=
  .node .declaration (.node .classDeclaration
    (.seq (.word "class") (.seq (.name []) (.seq .done (.seq .done (.seq .done (.seq .done
      (.node .classBody (.seq (.symbol "\x7b") (.seq
        (.either (.seq member (.many (.call .classMember))) .done) (.symbol "\x7d")))))))))))

theorem resolve_opening :
    ∃ parameters back,
      resolve Category.rule 100 (.many (.call .topLevel)) openingSketch =
        .either (.seq (openingClass (openingMethod parameters back)) (.many (.call .topLevel)))
          .done :=
  ⟨_, _, rfl⟩

/-! ## The phrases of an opening -/

/-- The phrase of a method without a result. -/
def methodPhrase (modifier void name : Token) (list back : List Phrase) : Phrase :=
  .node .declaration [.node .modifiers [.leaf false modifier],
    .node .methodDeclaration (.node .type [.leaf false void] :: .leaf true name ::
      .node .parameters list :: back)]

/-- The phrase of a class with the given members. -/
def classPhrase (keyword name first last : Token) (members : List Phrase) : Phrase :=
  .node .declaration [.node .classDeclaration [.leaf false keyword, .leaf true name,
    .node .classBody (.leaf false first :: (members ++ [.leaf false last]))]]

theorem Rule.Derives.of_openingMethod
    {parameters back : Rule Category}
    {phrases : List Phrase}
    (derived : Derives Category.rule (openingMethod parameters back) phrases) :
    ∃ modifier void name list rest, phrases = [methodPhrase modifier void name list rest] := by
  obtain ⟨_, rfl, declared⟩ := derived.of_node
  obtain ⟨_, _, rfl, derivedModifiers, derivedMethod⟩ := declared.of_seq
  obtain ⟨_, rfl, modifiers⟩ := derivedModifiers.of_node
  obtain ⟨_, _, rfl, derivedModifier, noModifier⟩ := modifiers.of_seq
  obtain ⟨modifier, rfl⟩ := derivedModifier.of_word
  obtain rfl := noModifier.eq_nil
  obtain ⟨_, rfl, parts⟩ := derivedMethod.of_node
  obtain ⟨_, _, rfl, noGenerics, afterGenerics⟩ := parts.of_seq
  obtain rfl := noGenerics.eq_nil
  obtain ⟨_, _, rfl, derivedType, afterType⟩ := afterGenerics.of_seq
  obtain ⟨_, rfl, type⟩ := derivedType.of_node
  obtain ⟨_, _, rfl, derivedVoid, noDimensions⟩ := type.of_seq
  obtain ⟨void, rfl⟩ := derivedVoid.of_word
  obtain rfl := noDimensions.eq_nil
  obtain ⟨_, _, rfl, derivedName, afterName⟩ := afterType.of_seq
  obtain ⟨name, rfl⟩ := derivedName.of_name
  obtain ⟨_, rest, rfl, derivedParameters, -⟩ := afterName.of_seq
  obtain ⟨list, rfl, -⟩ := derivedParameters.of_node
  exact ⟨modifier, void, name, list, rest, rfl⟩

theorem Rule.Derives.of_openingClass
    {member : Rule Category}
    {phrases : List Phrase}
    (derived : Derives Category.rule (openingClass member) phrases) :
    ∃ keyword name first last members,
      phrases = [classPhrase keyword name first last members] ∧ last.text = "\x7d" ∧
        (members = [] ∨
          ∃ front others, members = front ++ others ∧ Derives Category.rule member front) := by
  obtain ⟨_, rfl, declared⟩ := derived.of_node
  obtain ⟨_, rfl, parts⟩ := declared.of_node
  obtain ⟨_, _, rfl, derivedKeyword, afterKeyword⟩ := parts.of_seq
  obtain ⟨keyword, rfl⟩ := derivedKeyword.of_word
  obtain ⟨_, _, rfl, derivedName, afterName⟩ := afterKeyword.of_seq
  obtain ⟨name, rfl⟩ := derivedName.of_name
  obtain ⟨_, _, rfl, noParameters, afterParameters⟩ := afterName.of_seq
  obtain rfl := noParameters.eq_nil
  obtain ⟨_, _, rfl, noParent, afterParent⟩ := afterParameters.of_seq
  obtain rfl := noParent.eq_nil
  obtain ⟨_, _, rfl, noInterfaces, afterInterfaces⟩ := afterParent.of_seq
  obtain rfl := noInterfaces.eq_nil
  obtain ⟨_, _, rfl, noPermits, afterPermits⟩ := afterInterfaces.of_seq
  obtain rfl := noPermits.eq_nil
  obtain ⟨_, rfl, body⟩ := afterPermits.of_node
  obtain ⟨_, _, rfl, derivedFirst, afterFirst⟩ := body.of_seq
  obtain ⟨first, rfl, -⟩ := derivedFirst.of_symbol
  obtain ⟨members, _, rfl, derivedMembers, derivedLast⟩ := afterFirst.of_seq
  obtain ⟨last, rfl, closes⟩ := derivedLast.of_symbol
  refine ⟨keyword, name, first, last, members, rfl, closes, ?_⟩
  cases derivedMembers.of_either with
  | inl derivedMembers =>
      obtain ⟨front, others, rfl, derivedFront, -⟩ := derivedMembers.of_seq
      exact .inr ⟨front, others, rfl, derivedFront⟩
  | inr nothing => exact .inl nothing.eq_nil

/-- A program with an opening begins with a class whose first member is the method. -/
theorem phrases_of_opening
    {name : String}
    {more : List Token}
    {phrases : List Phrase}
    (found : readProgram (opening name ++ more) = some phrases) :
    ∃ keyword className first last list back members others,
      phrases = classPhrase keyword className first last
        (methodPhrase ⟨"\n", "public", .word⟩ ⟨" ", "void", .word⟩ ⟨" ", name, .word⟩ list back ::
          members) :: others := by
  have tokens_eq := readProgram_lossless found
  obtain ⟨parameters, back, resolved⟩ := resolve_opening
  unfold readProgram at found
  split at found
  · next readPhrases readAll =>
      cases found
      obtain ⟨spare, steps_eq⟩ : ∃ spare, steps (opening name ++ more) = spare + 100 := by
        refine ⟨2000 * ((opening name ++ more).length + 1) - 100, ?_⟩
        unfold steps
        omega
      rw [steps_eq] at readAll
      have derived := derives_resolve (opening_fits name) readAll
      rw [resolved] at derived
      cases derived.of_either with
      | inr nothing =>
          rw [nothing.eq_nil] at tokens_eq
          cases tokens_eq
      | inl derived =>
          obtain ⟨_, others, rfl, derivedClass, -⟩ := derived.of_seq
          obtain ⟨keyword, className, first, last, members, rfl, closes, inside⟩ :=
            derivedClass.of_openingClass
          rcases inside with rfl | ⟨_, later, rfl, derivedMember⟩
          · simp only [opening, classPhrase, Phrase.tokensOfAll, Phrase.tokens, List.cons_append,
              List.nil_append, List.append_nil, List.cons.injEq] at tokens_eq
            rw [tokens_eq.2.2.2.1] at closes
            exact absurd closes (by decide)
          · obtain ⟨modifier, void, methodName, list, rest, rfl⟩ := derivedMember.of_openingMethod
            refine ⟨keyword, className, first, last, list, rest, later, others, ?_⟩
            simp only [opening, classPhrase, methodPhrase, Phrase.tokensOfAll, Phrase.tokens,
              List.cons_append, List.nil_append, List.append_nil, List.cons.injEq] at tokens_eq
            obtain ⟨-, -, -, rfl, rfl, rfl, -⟩ := tokens_eq
            rfl
  · cases found

end JupiterMigration.Java
