import JupiterMigration.Proofs.Grammar.Filled
import JupiterMigration.Proofs.Grammar.Outcome

/-!
# The gap before the first token

No rule at the beginning of a declaration asks whether its first token follows another one
directly.  So tokens are read in the same way when the first of them has another gap, and that
gap is the only thing that changes in the phrases (`outcome_regap`).
-/

namespace JupiterMigration.Java

open Rule

/-- The tokens with another gap before the first one. -/
def regapTokens (gap : String) : List Token → List Token
  | [] => []
  | first :: rest => { first with gap } :: rest

namespace Phrase

mutual

/-- The phrase with another gap before its first token. -/
def regap (gap : String) : Phrase → Phrase
  | leaf isName token => leaf isName { token with gap }
  | node label parts => node label (regapAll gap parts)

/-- The phrases with another gap before the first of them. -/
def regapAll (gap : String) : List Phrase → List Phrase
  | [] => []
  | first :: rest => regap gap first :: rest

end

@[simp]
theorem label?_regap (gap : String) (phrase : Phrase) :
    (phrase.regap gap).label? = phrase.label? := by
  cases phrase <;> rfl

@[simp]
theorem isA_regap (gap : String) (label : Label) (phrase : Phrase) :
    (phrase.regap gap).isA label = phrase.isA label := by
  rw [isA, isA, label?_regap]

theorem regapTokens_append
    {front : List Token}
    (gap : String)
    (some : front ≠ [])
    (back : List Token) : regapTokens gap (front ++ back) = regapTokens gap front ++ back := by
  cases front with
  | nil => exact absurd rfl some
  | cons first rest => rfl

/-- A filled phrase with another gap has the same tokens but for the gap. -/
theorem tokens_regap
    (gap : String)
    (phrase : Phrase)
    (filled : Filled phrase) : (phrase.regap gap).tokens = regapTokens gap phrase.tokens := by
  match phrase with
  | .leaf isName token => rfl
  | .node label [] => rfl
  | .node label (first :: rest) =>
      have firstFilled : Filled first := filled.2.1
      have first_eq := tokens_regap gap first firstFilled
      rw [regap, regapAll, tokens, tokens, tokensOfAll, tokensOfAll, first_eq,
        regapTokens_append gap firstFilled.tokens_ne_nil]

theorem tokensOfAll_regapAll
    (gap : String)
    {phrases : List Phrase}
    (filled : FilledAll phrases) :
    tokensOfAll (regapAll gap phrases) = regapTokens gap (tokensOfAll phrases) := by
  cases phrases with
  | nil => rfl
  | cons first rest =>
      rw [regapAll, tokensOfAll, tokensOfAll, tokens_regap gap first filled.1,
        regapTokens_append gap filled.1.tokens_ne_nil]

end Phrase

open Phrase

/-! ## Reading after another gap -/

/--
Whether a rule reads its first token whatever the gap before it is, and writes no labelled phrase
before it has read one.
-/
def ignoresGap {C : Type} (table : C → Rule C) : Rule C → Bool
  | .gluedWord _ | .glued _ => false
  | .node _ inner => !canBeEmpty table callDepth inner && ignoresGap table inner
  | .many inner => ignoresGap table inner
  | .seq first second =>
    ignoresGap table first && (!canBeEmpty table callDepth first || ignoresGap table second)
  | .either first second => ignoresGap table first && ignoresGap table second
  | .guarded guard yes no =>
    ignoresGap table guard && ignoresGap table yes && ignoresGap table no
  | _ => true

/-- What is read after another gap: the gap is in the phrases, if there are any. -/
def regapFound (gap : String) : List Phrase × List Token → List Phrase × List Token
  | ([], rest) => ([], regapTokens gap rest)
  | (first :: others, rest) => (first.regap gap :: others, rest)

section Reading

variable {C : Type} {table : C → Rule C} {gap : String}

theorem regapFound_of_ne_nil
    {front : List Phrase}
    (some : front ≠ [])
    (rest : List Token) : regapFound gap (front, rest) = (regapAll gap front, rest) := by
  cases front with
  | nil => exact absurd rfl some
  | cons first others => rfl

theorem take_regap
    {isName : Bool}
    {accepts : Token → Bool}
    (ignores : ∀ token : Token, accepts { token with gap } = accepts token)
    (tokens : List Token) :
    take isName accepts (regapTokens gap tokens) =
      (take isName accepts tokens).map (regapFound gap) := by
  cases tokens with
  | nil => rfl
  | cons first rest =>
      rw [regapTokens, take, take, ignores]
      split <;> rfl

/-- Two rules in a row, of which the second one matters only if the first has taken no token. -/
theorem regap_andThen
    {found : Option (List Phrase × List Token)}
    (otherwise : Option (List Phrase × List Token))
    {resume : List Token → Option (List Phrase × List Token)}
    (later : ∀ middle, found = some ([], middle) →
      resume (regapTokens gap middle) = (resume middle).map (regapFound gap)) :
    (match found.map (regapFound gap) with
      | some (front, middle) =>
        match resume middle with
        | some (back, rest) => some (front ++ back, rest)
        | none => none
      | none => otherwise.map (regapFound gap)) =
    (match found with
      | some (front, middle) =>
        match resume middle with
        | some (back, rest) => some (front ++ back, rest)
        | none => none
      | none => otherwise).map (regapFound gap) := by
  cases found with
  | none => rfl
  | some result =>
      obtain ⟨front, middle⟩ := result
      cases front with
      | nil =>
          rw [Option.map_some, regapFound]
          dsimp only
          rw [later middle rfl]
          cases resume middle with
          | none => rfl
          | some back => rfl
      | cons first others =>
          rw [Option.map_some, regapFound]
          dsimp only
          cases resume middle <;> rfl

/-- Reading goes on in the same way when the first token has another gap. -/
theorem read_regap
    (table_ignores : ∀ category, ignoresGap table (table category) = true)
    (count : Nat)
    {rule : Rule C}
    (ignores : ignoresGap table rule = true)
    (tokens : List Token) :
    Rule.read table count rule (regapTokens gap tokens) =
      (Rule.read table count rule tokens).map (regapFound gap) := by
  induction count generalizing rule tokens with
  | zero => rfl
  | succ count inductionHypothesis =>
      cases rule with
      | done => rfl
      | word | name | symbol | kind => exact take_regap (fun _ => rfl) tokens
      | gluedWord | glued => cases ignores
      | call category => exact inductionHypothesis (table_ignores category) tokens
      | node label inner =>
          simp only [ignoresGap, Bool.and_eq_true, Bool.not_eq_true'] at ignores
          rw [Rule.read, Rule.read, inductionHypothesis ignores.2]
          cases innerFound : Rule.read table count inner tokens with
          | none => rfl
          | some found =>
              obtain ⟨parts, rest⟩ := found
              have some : parts ≠ [] := by
                rintro rfl
                exact (derives_of_read innerFound).tokens_ne_nil callDepth ignores.1 rfl
              rw [Option.map_some, regapFound_of_ne_nil some]
              rfl
      | seq first second =>
          simp only [ignoresGap, Bool.and_eq_true, Bool.or_eq_true, Bool.not_eq_true'] at ignores
          rw [Rule.read, Rule.read, inductionHypothesis ignores.1]
          refine regap_andThen none fun middle firstFound => ?_
          cases ignores.2 with
          | inl consumes =>
              exact absurd rfl ((derives_of_read firstFound).tokens_ne_nil callDepth consumes)
          | inr secondIgnores => exact inductionHypothesis secondIgnores middle
      | either first second =>
          simp only [ignoresGap, Bool.and_eq_true] at ignores
          rw [Rule.read, Rule.read, inductionHypothesis ignores.1, inductionHypothesis ignores.2]
          cases Rule.read table count first tokens <;> rfl
      | guarded guard yes no =>
          simp only [ignoresGap, Bool.and_eq_true] at ignores
          rw [Rule.read, Rule.read, inductionHypothesis ignores.1.1,
            inductionHypothesis ignores.1.2, inductionHypothesis ignores.2]
          cases Rule.read table count guard tokens <;> rfl
      | many inner =>
          have innerIgnores : ignoresGap table inner = true := ignores
          rw [Rule.read, Rule.read, inductionHypothesis innerIgnores]
          exact regap_andThen (some ([], tokens)) fun middle _ => inductionHypothesis ignores middle

end Reading

/-! ## The grammar of Java -/

theorem ignoresGap_rule (category : Category) :
    ignoresGap Category.rule (Category.rule category) = true := by
  cases category with
  | expression arrows | operand arrows | primary arrows | selectors arrows | assignable arrows =>
      cases arrows <;> decide
  | _ => decide

theorem length_regapTokens (gap : String) (tokens : List Token) :
    (regapTokens gap tokens).length = tokens.length := by
  cases tokens <;> rfl

/-- What a rule reads after another gap. -/
theorem outcome_regap
    {rule : Rule Category}
    (ignores : ignoresGap Category.rule rule = true)
    (gap : String)
    (tokens : List Token) :
    outcome rule (regapTokens gap tokens) = (outcome rule tokens).map (regapFound gap) := by
  rw [outcome, outcome, steps, length_regapTokens]
  exact read_regap ignoresGap_rule _ ignores tokens

end JupiterMigration.Java
