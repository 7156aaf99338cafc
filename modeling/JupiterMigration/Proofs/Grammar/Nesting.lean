import JupiterMigration.Proofs.Grammar.Written
import JupiterMigration.Proofs.Tokens.Nesting

/-!
# How phrases nest and end

Whatever the grammar derives from a category closes what it opens (`nested_of_derives`), and a
statement ends with a semicolon or a closing brace (`endsOnly_rule`).  Both are seen from the rules:
what a rule leaves open follows from what its parts leave open (`Rule.nest`), and its last tokens
are those of its last parts (`Rule.endsOnly`).
-/

namespace JupiterMigration.Java

open Rule

section Rules

variable {C : Type} {table : C → Rule C}

/-! ## What is left open -/

/--
What is open behind the tokens of a rule, if that much is open before them and every category closes
what it opens; none if this cannot be told from the rule.
-/
def Rule.nest : Rule C → List Bracket → Option (List Bracket)
  | .done, stack | .word _, stack | .gluedWord _, stack | .name _, stack | .call _, stack =>
    some stack
  | .symbol text, stack | .glued text, stack => Token.nest stack ⟨"", text, .symbol⟩
  | .kind accepts, stack =>
    if accepts .symbol then none
    else
      match (tokenKinds.filter accepts).map fun kind => Token.nest stack ⟨"", "", kind⟩ with
      | [] => some stack
      | first :: rest => if rest.all (· == first) then first else none
  | .node _ inner, stack => inner.nest stack
  | .seq first second, stack => (first.nest stack).bind second.nest
  | .either first second, stack | .guarded _ first second, stack =>
    if first.nest stack = second.nest stack then first.nest stack else none
  | .many inner, stack => if inner.nest stack = some stack then some stack else none

theorem nest_of_accepts
    {accepts : TokenKind → Bool}
    {token : Token}
    {stack after : List Bracket}
    (accepted : accepts token.kind = true)
    (nests : (Rule.kind accepts : Rule C).nest stack = some after) :
    token.nest stack = some after := by
  unfold Rule.nest at nests
  split at nests
  · cases nests
  · next noSymbol =>
      have noSymbol : token.kind ≠ .symbol := by
        rintro same
        exact noSymbol (same ▸ accepted)
      have among : token.nest stack ∈ (tokenKinds.filter accepts).map fun kind =>
          Token.nest stack ⟨"", "", kind⟩ := by
        refine List.mem_map.mpr ⟨token.kind, ?_, ?_⟩
        · exact List.mem_filter.mpr ⟨mem_tokenKinds token.kind, accepted⟩
        · exact Token.nest_congr noSymbol ..
      split at nests
      · next none_eq =>
          rw [none_eq] at among
          cases among
      · next first rest all_eq =>
          rw [all_eq] at among
          split at nests
          · next same =>
              rw [← nests]
              cases among with
              | head => rfl
              | tail _ later => exact beq_iff_eq.mp (List.all_eq_true.mp same _ later)
          · cases nests

theorem nestAll_leaf
    {isName : Bool}
    {token : Token}
    {stack after : List Bracket}
    (nests : token.nest stack = some after) :
    nestAll stack (Phrase.tokensOfAll [.leaf isName token]) = some after := by
  rw [Phrase.tokensOfAll, Phrase.tokens, Phrase.tokensOfAll, List.append_nil, nestAll_cons, nests]
  rfl

/-- What is derived leaves open what its rule does, if all categories close what they open. -/
theorem nestAll_of_derives
    (closed : ∀ category, (table category).nest [] = some [])
    {rule : Rule C}
    {phrases : List Phrase}
    (derived : Derives table rule phrases)
    {stack after : List Bracket}
    (nests : rule.nest stack = some after) :
    nestAll stack (Phrase.tokensOfAll phrases) = some after := by
  induction derived generalizing stack after with
  | done => exact nests
  | stop =>
      unfold Rule.nest at nests
      split at nests
      · exact nests
      · cases nests
  | word isWord _ | gluedWord isWord _ | name isWord _ =>
      refine nestAll_leaf ?_
      unfold Token.nest
      rw [isWord]
      exact nests
  | @symbol text token isSymbol same | @glued text token isSymbol same =>
      refine nestAll_leaf ?_
      have nests : Token.nest stack ⟨"", text, .symbol⟩ = some after := nests
      unfold Token.nest at nests ⊢
      rw [isSymbol, same]
      exact nests
  | kind accepted => exact nestAll_leaf (nest_of_accepts accepted nests)
  | call _ inductionHypothesis =>
      cases nests
      exact Nested.nestAll_eq (inductionHypothesis (closed _)) stack
  | node _ inductionHypothesis =>
      rw [Phrase.tokensOfAll, Phrase.tokens, Phrase.tokensOfAll, List.append_nil]
      exact inductionHypothesis nests
  | seq _ _ firstHypothesis secondHypothesis =>
      obtain ⟨middle, nestsFirst, nestsSecond⟩ := Option.bind_eq_some_iff.mp nests
      rw [Phrase.tokensOfAll_append, nestAll_append, firstHypothesis nestsFirst]
      exact secondHypothesis nestsSecond
  | first _ inductionHypothesis | yes _ inductionHypothesis =>
      unfold Rule.nest at nests
      split at nests
      · exact inductionHypothesis nests
      · cases nests
  | second _ inductionHypothesis | no _ inductionHypothesis =>
      unfold Rule.nest at nests
      split at nests
      · next same => exact inductionHypothesis (same ▸ nests)
      · cases nests
  | more _ _ frontHypothesis backHypothesis =>
      have repeated := nests
      unfold Rule.nest at nests
      split at nests
      · next same =>
          cases nests
          rw [Phrase.tokensOfAll_append, nestAll_append, frontHypothesis same]
          exact backHypothesis repeated
      · cases nests

/-! ## The last token -/

/-- Phrases without tokens, or whose last token is one of some symbols. -/
def EndsWith (texts : List String) (phrases : List Phrase) : Prop :=
  ∀ front last, Phrase.tokensOfAll phrases = front ++ [last] →
    last.kind = .symbol ∧ last.text ∈ texts

theorem endsWith_append
    {texts : List String}
    {front back : List Phrase}
    (backEnds : EndsWith texts back)
    (frontEnds : Phrase.tokensOfAll back = [] → EndsWith texts front) :
    EndsWith texts (front ++ back) := by
  intro tokens last tokens_eq
  rw [Phrase.tokensOfAll_append] at tokens_eq
  rcases List.eq_nil_or_concat (Phrase.tokensOfAll back) with back_eq | ⟨others, final, back_eq⟩
  · rw [back_eq, List.append_nil] at tokens_eq
    exact frontEnds back_eq tokens last tokens_eq
  · rw [back_eq, List.concat_eq_append, ← List.append_assoc] at tokens_eq
    have same := List.append_inj_right' tokens_eq rfl
    obtain rfl := (List.cons.inj same).1
    exact backEnds others final (back_eq.trans List.concat_eq_append)

/--
Whether a rule derives only phrases that end with one of some symbols, or without any token, if this
holds of the known categories.
-/
def Rule.endsOnly (table : C → Rule C) (texts : List String) (known : C → Bool) : Rule C → Bool
  | .done => true
  | .symbol text | .glued text => texts.contains text
  | .word _ | .gluedWord _ | .name _ => false
  | .kind accepts => tokenKinds.all fun kind => !accepts kind
  | .call category => known category
  | .node _ inner | .many inner => inner.endsOnly table texts known
  | .seq first second =>
    second.endsOnly table texts known &&
      (!canBeEmpty table callDepth second || first.endsOnly table texts known)
  | .either first second | .guarded _ first second =>
    first.endsOnly table texts known && second.endsOnly table texts known

theorem endsWith_of_derives
    {texts : List String}
    {known : C → Bool}
    (closed : ∀ category, known category = true →
      (table category).endsOnly table texts known = true)
    {rule : Rule C}
    {phrases : List Phrase}
    (derived : Derives table rule phrases)
    (only : rule.endsOnly table texts known = true) : EndsWith texts phrases := by
  induction derived with
  | done | stop =>
      intro front last tokens_eq
      simp [Phrase.tokensOfAll] at tokens_eq
  | word | gluedWord | name => cases only
  | @kind accepts token accepted =>
      have refused := List.all_eq_true.mp only token.kind (mem_tokenKinds token.kind)
      rw [accepted] at refused
      cases refused
  | @symbol text token isSymbol same | @glued text token isSymbol same =>
      intro front last tokens_eq
      have alone : [] ++ [token] = front ++ [last] := tokens_eq
      obtain rfl := (List.cons.inj (List.append_inj_right' alone rfl)).1
      exact ⟨isSymbol, same ▸ List.contains_iff_mem.mp only⟩
  | call _ inductionHypothesis => exact inductionHypothesis (closed _ only)
  | node _ inductionHypothesis =>
      intro front last tokens_eq
      rw [Phrase.tokensOfAll, Phrase.tokens, Phrase.tokensOfAll, List.append_nil] at tokens_eq
      exact inductionHypothesis only front last tokens_eq
  | seq _ derivedSecond firstHypothesis secondHypothesis =>
      simp only [Rule.endsOnly, Bool.and_eq_true, Bool.or_eq_true, Bool.not_eq_true'] at only
      refine endsWith_append (secondHypothesis only.1) fun empty => ?_
      cases only.2 with
      | inl notEmpty => exact absurd empty (derivedSecond.tokens_ne_nil callDepth notEmpty)
      | inr first => exact firstHypothesis first
  | first _ inductionHypothesis | yes _ inductionHypothesis =>
      simp only [Rule.endsOnly, Bool.and_eq_true] at only
      exact inductionHypothesis only.1
  | second _ inductionHypothesis | no _ inductionHypothesis =>
      simp only [Rule.endsOnly, Bool.and_eq_true] at only
      exact inductionHypothesis only.2
  | more _ _ frontHypothesis backHypothesis =>
      exact endsWith_append (backHypothesis only) fun _ => frontHypothesis only

end Rules

/-! ## The grammar -/

theorem nest_rule (category : Category) : (Category.rule category).nest [] = some [] := by
  cases category with
  | expression arrows | operand arrows | primary arrows | selectors arrows | assignable arrows =>
      cases arrows <;> decide
  | _ => decide

theorem nested_of_derives
    {category : Category}
    {phrases : List Phrase}
    (derived : Derives Category.rule (.call category) phrases) :
    Nested (Phrase.tokensOfAll phrases) :=
  nestAll_of_derives nest_rule derived rfl

/-- The categories that end as statements do. -/
def endsAsStatement : Category → Bool
  | .statement | .block | .classDeclaration | .interfaceDeclaration | .enumDeclaration
  | .recordDeclaration | .annotationDeclaration | .moduleDeclaration | .classBody | .localVariable
  | .switch | .catchClause => true
  | _ => false

/-- The symbols that end statements. -/
def statementEnds : List String := [";", "\x7d"]

theorem endsOnly_rule (category : Category) (ends : endsAsStatement category = true) :
    (Category.rule category).endsOnly Category.rule statementEnds endsAsStatement = true := by
  cases category <;> first | (cases ends; done) | decide

end JupiterMigration.Java
