import JupiterMigration.Java.Rule

/-!
# Derivations

`Derives table rule phrases` says that a rule can give rise to some phrases when the order of
alternatives, the guards and the tokens that follow are left aside.  Whatever is read is derived
(`derives_of_read`), so that facts about the form of phrases follow from the rules alone.

Two questions about what a rule can derive are answered by computation: whether a phrase with a
given label can be among the phrases (`canGive`), and whether there can be no token at all
(`canBeEmpty`).  Both follow the calls of a rule to a bounded depth and say yes beyond it.
-/

namespace JupiterMigration.Java
namespace Rule

variable {C : Type}

/-- The phrases that a rule can derive. -/
inductive Derives (table : C → Rule C) : Rule C → List Phrase → Prop
  | done : Derives table .done []
  | word {text : String} {token : Token} :
      token.kind = .word → token.text = text →
      Derives table (.word text) [.leaf false token]
  | gluedWord {text : String} {token : Token} :
      token.kind = .word → token.text = text →
      Derives table (.gluedWord text) [.leaf false token]
  | name {except : List String} {token : Token} :
      token.kind = .word → token.text ∉ except →
      Derives table (.name except) [.leaf true token]
  | symbol {text : String} {token : Token} :
      token.kind = .symbol → token.text = text →
      Derives table (.symbol text) [.leaf false token]
  | glued {text : String} {token : Token} :
      token.kind = .symbol → token.text = text →
      Derives table (.glued text) [.leaf false token]
  | kind {accepts : TokenKind → Bool} {token : Token} :
      accepts token.kind = true →
      Derives table (.kind accepts) [.leaf false token]
  | call {category : C} {phrases : List Phrase} :
      Derives table (table category) phrases →
      Derives table (.call category) phrases
  | node {label : Label} {rule : Rule C} {parts : List Phrase} :
      Derives table rule parts →
      Derives table (.node label rule) [.node label parts]
  | seq {first second : Rule C} {front back : List Phrase} :
      Derives table first front → Derives table second back →
      Derives table (.seq first second) (front ++ back)
  | first {first second : Rule C} {phrases : List Phrase} :
      Derives table first phrases →
      Derives table (.either first second) phrases
  | second {first second : Rule C} {phrases : List Phrase} :
      Derives table second phrases →
      Derives table (.either first second) phrases
  | yes {guard yes no : Rule C} {phrases : List Phrase} :
      Derives table yes phrases →
      Derives table (.guarded guard yes no) phrases
  | no {guard yes no : Rule C} {phrases : List Phrase} :
      Derives table no phrases →
      Derives table (.guarded guard yes no) phrases
  | stop {rule : Rule C} : Derives table (.many rule) []
  | more {rule : Rule C} {front back : List Phrase} :
      Derives table rule front → Derives table (.many rule) back →
      Derives table (.many rule) (front ++ back)

/-- A token that is taken becomes a leaf. -/
theorem eq_leaf_of_take
    {isName : Bool}
    {accepts : Token → Bool}
    {tokens rest : List Token}
    {phrases : List Phrase}
    (taken : take isName accepts tokens = some (phrases, rest)) :
    ∃ token, phrases = [.leaf isName token] ∧ accepts token = true := by
  cases tokens with
  | nil => simp [take] at taken
  | cons token more =>
      simp only [take] at taken
      split at taken
      · next accepted =>
          simp only [Option.some.injEq, Prod.mk.injEq] at taken
          exact ⟨token, taken.1.symm, accepted⟩
      · simp at taken

/-- Whatever is read is derived. -/
theorem derives_of_read
    {table : C → Rule C}
    {steps : Nat}
    {rule : Rule C}
    {tokens rest : List Token}
    {phrases : List Phrase}
    (found : read table steps rule tokens = some (phrases, rest)) :
    Derives table rule phrases := by
  induction steps generalizing rule tokens rest phrases with
  | zero => simp [read] at found
  | succ steps inductionHypothesis =>
      cases rule with
      | done =>
          simp only [read, Option.some.injEq, Prod.mk.injEq] at found
          rw [← found.1]
          exact .done
      | word text =>
          obtain ⟨token, rfl, accepted⟩ := eq_leaf_of_take found
          simp only [Bool.and_eq_true, beq_iff_eq] at accepted
          exact .word accepted.1 accepted.2
      | gluedWord text =>
          obtain ⟨token, rfl, accepted⟩ := eq_leaf_of_take found
          simp only [Bool.and_eq_true, beq_iff_eq] at accepted
          exact .gluedWord accepted.1.1 accepted.2
      | name except =>
          obtain ⟨token, rfl, accepted⟩ := eq_leaf_of_take found
          simp only [Bool.and_eq_true, beq_iff_eq, Bool.not_eq_true', List.contains_eq_mem,
            decide_eq_false_iff_not] at accepted
          exact .name accepted.1 accepted.2
      | symbol text =>
          obtain ⟨token, rfl, accepted⟩ := eq_leaf_of_take found
          simp only [Bool.and_eq_true, beq_iff_eq] at accepted
          exact .symbol accepted.1 accepted.2
      | glued text =>
          obtain ⟨token, rfl, accepted⟩ := eq_leaf_of_take found
          simp only [Bool.and_eq_true, beq_iff_eq] at accepted
          exact .glued accepted.1.1 accepted.2
      | kind accepts =>
          obtain ⟨token, rfl, accepted⟩ := eq_leaf_of_take found
          exact .kind accepted
      | call category => exact .call (inductionHypothesis found)
      | node label inner =>
          simp only [read] at found
          split at found
          · next parts left readInner =>
              simp only [Option.some.injEq, Prod.mk.injEq] at found
              rw [← found.1]
              exact .node (inductionHypothesis readInner)
          · simp at found
      | seq first second =>
          simp only [read] at found
          split at found
          · next front middle readFirst =>
              split at found
              · next back left readSecond =>
                  simp only [Option.some.injEq, Prod.mk.injEq] at found
                  rw [← found.1]
                  exact .seq (inductionHypothesis readFirst) (inductionHypothesis readSecond)
              · simp at found
          · simp at found
      | either first second =>
          simp only [read] at found
          split at found
          · next result readFirst =>
              simp only [Option.some.injEq] at found
              subst found
              exact .first (inductionHypothesis readFirst)
          · exact .second (inductionHypothesis found)
      | guarded guard yes no =>
          simp only [read] at found
          split at found
          · exact .yes (inductionHypothesis found)
          · exact .no (inductionHypothesis found)
      | many inner =>
          simp only [read] at found
          split at found
          · next front middle readFirst =>
              split at found
              · next back left readMore =>
                  simp only [Option.some.injEq, Prod.mk.injEq] at found
                  rw [← found.1]
                  exact .more (inductionHypothesis readFirst) (inductionHypothesis readMore)
              · simp at found
          · simp only [Option.some.injEq, Prod.mk.injEq] at found
            rw [← found.1]
            exact .stop

/-! ## Taking derivations apart -/

section Inversion

variable {table : C → Rule C} {phrases : List Phrase}

theorem Derives.eq_nil (derived : Derives table .done phrases) : phrases = [] := by
  cases derived
  rfl

theorem Derives.of_call
    {category : C}
    (derived : Derives table (.call category) phrases) :
    Derives table (table category) phrases := by
  cases derived with
  | call inner => exact inner

theorem Derives.of_node
    {label : Label}
    {rule : Rule C}
    (derived : Derives table (.node label rule) phrases) :
    ∃ parts, phrases = [.node label parts] ∧ Derives table rule parts := by
  cases derived with
  | node inner => exact ⟨_, rfl, inner⟩

theorem Derives.of_seq
    {first second : Rule C}
    (derived : Derives table (.seq first second) phrases) :
    ∃ front back, phrases = front ++ back ∧
      Derives table first front ∧ Derives table second back := by
  cases derived with
  | seq derivedFirst derivedSecond => exact ⟨_, _, rfl, derivedFirst, derivedSecond⟩

theorem Derives.of_either
    {first second : Rule C}
    (derived : Derives table (.either first second) phrases) :
    Derives table first phrases ∨ Derives table second phrases := by
  cases derived with
  | first derivedFirst => exact .inl derivedFirst
  | second derivedSecond => exact .inr derivedSecond

theorem Derives.of_guarded
    {guard yes no : Rule C}
    (derived : Derives table (.guarded guard yes no) phrases) :
    Derives table yes phrases ∨ Derives table no phrases := by
  cases derived with
  | yes derivedYes => exact .inl derivedYes
  | no derivedNo => exact .inr derivedNo

theorem Derives.of_word
    {text : String}
    (derived : Derives table (.word text) phrases) :
    ∃ token, phrases = [.leaf false token] := by
  cases derived with
  | word _ _ => exact ⟨_, rfl⟩

theorem Derives.of_symbol
    {text : String}
    (derived : Derives table (.symbol text) phrases) :
    ∃ token, phrases = [.leaf false token] ∧ token.text = text := by
  cases derived with
  | symbol _ same => exact ⟨_, rfl, same⟩

theorem Derives.of_name
    {except : List String}
    (derived : Derives table (.name except) phrases) :
    ∃ token, phrases = [.leaf true token] := by
  cases derived with
  | name _ _ => exact ⟨_, rfl⟩

/-- What a repeated rule derives is derived piece by piece. -/
theorem Derives.of_many
    {rule : Rule C}
    (derived : Derives table (.many rule) phrases) :
    ∃ pieces : List (List Phrase), phrases = pieces.flatten ∧
      ∀ piece ∈ pieces, Derives table rule piece := by
  generalize many_eq : Rule.many rule = repeated at derived
  induction derived with
  | stop => exact ⟨[], rfl, by simp⟩
  | more derivedFront _ _ inductionHypothesis =>
      cases many_eq
      obtain ⟨pieces, rfl, derivedPieces⟩ := inductionHypothesis rfl
      refine ⟨_ :: pieces, rfl, ?_⟩
      intro piece member
      cases List.mem_cons.mp member with
      | inl same => exact same ▸ derivedFront
      | inr later => exact derivedPieces piece later
  | _ => cases many_eq

end Inversion

/-! ## What a rule can derive -/

/-- Whether a phrase with the label can be among the phrases that a rule derives. -/
def canGive (table : C → Rule C) (label : Label) : Nat → Rule C → Bool
  | 0, _ => true
  | depth + 1, rule =>
    match rule with
    | .call category => canGive table label depth (table category)
    | .node found _ => found = label
    | .seq first second | .either first second | .guarded _ first second =>
      canGive table label depth first || canGive table label depth second
    | .many inner => canGive table label depth inner
    | _ => false

/-- Whether a rule can derive phrases without any token. -/
def canBeEmpty (table : C → Rule C) : Nat → Rule C → Bool
  | 0, _ => true
  | depth + 1, rule =>
    match rule with
    | .done | .many _ => true
    | .call category => canBeEmpty table depth (table category)
    | .node _ inner => canBeEmpty table depth inner
    | .seq first second => canBeEmpty table depth first && canBeEmpty table depth second
    | .either first second | .guarded _ first second =>
      canBeEmpty table depth first || canBeEmpty table depth second
    | _ => false

theorem Derives.not_isA
    {table : C → Rule C}
    {label : Label}
    {rule : Rule C}
    {phrases : List Phrase}
    (derived : Derives table rule phrases)
    (depth : Nat)
    (excluded : canGive table label depth rule = false) :
    ∀ phrase ∈ phrases, phrase.isA label = false := by
  induction derived generalizing depth with
  | done | stop => simp
  | word | gluedWord | name | symbol | glued | kind => simp [Phrase.isA, Phrase.label?]
  | call _ inductionHypothesis =>
      cases depth with
      | zero => simp [canGive] at excluded
      | succ depth => exact inductionHypothesis depth excluded
  | node _ _ =>
      cases depth with
      | zero => simp [canGive] at excluded
      | succ depth => simpa [canGive, Phrase.isA, Phrase.label?] using excluded
  | seq _ _ firstHypothesis secondHypothesis =>
      cases depth with
      | zero => simp [canGive] at excluded
      | succ depth =>
          simp only [canGive, Bool.or_eq_false_iff] at excluded
          intro phrase member
          cases List.mem_append.mp member with
          | inl inFront => exact firstHypothesis depth excluded.1 phrase inFront
          | inr inBack => exact secondHypothesis depth excluded.2 phrase inBack
  | first _ inductionHypothesis | yes _ inductionHypothesis =>
      cases depth with
      | zero => simp [canGive] at excluded
      | succ depth =>
          simp only [canGive, Bool.or_eq_false_iff] at excluded
          exact inductionHypothesis depth excluded.1
  | second _ inductionHypothesis | no _ inductionHypothesis =>
      cases depth with
      | zero => simp [canGive] at excluded
      | succ depth =>
          simp only [canGive, Bool.or_eq_false_iff] at excluded
          exact inductionHypothesis depth excluded.2
  | more _ _ frontHypothesis backHypothesis =>
      intro phrase member
      cases List.mem_append.mp member with
      | inr inBack => exact backHypothesis depth excluded phrase inBack
      | inl inFront =>
          cases depth with
          | zero => simp [canGive] at excluded
          | succ depth => exact frontHypothesis depth excluded phrase inFront

theorem Derives.tokens_ne_nil
    {table : C → Rule C}
    {rule : Rule C}
    {phrases : List Phrase}
    (derived : Derives table rule phrases)
    (depth : Nat)
    (excluded : canBeEmpty table depth rule = false) :
    Phrase.tokensOfAll phrases ≠ [] := by
  induction derived generalizing depth with
  | done | stop | more => cases depth <;> simp [canBeEmpty] at excluded
  | word | gluedWord | name | symbol | glued | kind =>
      simp [Phrase.tokensOfAll, Phrase.tokens]
  | call _ inductionHypothesis =>
      cases depth with
      | zero => simp [canBeEmpty] at excluded
      | succ depth => exact inductionHypothesis depth excluded
  | node _ inductionHypothesis =>
      cases depth with
      | zero => simp [canBeEmpty] at excluded
      | succ depth =>
          simpa [Phrase.tokensOfAll, Phrase.tokens] using inductionHypothesis depth excluded
  | seq _ _ firstHypothesis secondHypothesis =>
      cases depth with
      | zero => simp [canBeEmpty] at excluded
      | succ depth =>
          simp only [canBeEmpty, Bool.and_eq_false_iff] at excluded
          rw [Phrase.tokensOfAll_append]
          cases excluded with
          | inl notFirst =>
              exact List.append_ne_nil_of_left_ne_nil (firstHypothesis depth notFirst) _
          | inr notSecond =>
              exact List.append_ne_nil_of_right_ne_nil _ (secondHypothesis depth notSecond)
  | first _ inductionHypothesis | yes _ inductionHypothesis =>
      cases depth with
      | zero => simp [canBeEmpty] at excluded
      | succ depth =>
          simp only [canBeEmpty, Bool.or_eq_false_iff] at excluded
          exact inductionHypothesis depth excluded.1
  | second _ inductionHypothesis | no _ inductionHypothesis =>
      cases depth with
      | zero => simp [canBeEmpty] at excluded
      | succ depth =>
          simp only [canBeEmpty, Bool.or_eq_false_iff] at excluded
          exact inductionHypothesis depth excluded.2

end Rule
end JupiterMigration.Java
