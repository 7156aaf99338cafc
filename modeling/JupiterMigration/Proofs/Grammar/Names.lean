import JupiterMigration.Proofs.Grammar.Written
import JupiterMigration.Proofs.Usage.Overlooked

/-!
# Words that are read as names

A word that is none of the keywords of a rule has to be read as a name where only names can stand.
`readsAsName` decides this for the word after some known tokens.  A name before the parameters of a
call, alone or selected from `this`, is one that the call uses (`mem_allNamesOf_primary`).
-/

namespace JupiterMigration.Java

/-- The kind and the text of a token. -/
def Token.spelling (token : Token) : TokenKind × String :=
  (token.kind, token.text)

namespace Rule

variable {C : Type} {table : C → Rule C} {keywords : List String}

/--
Whether a rule goes on well with known tokens and a word after them: it takes a known token and the
rest goes on well, or it takes the word, for which it is enough that this is `safe`.
-/
def goesOn
    (accepts : TokenKind × String → Bool)
    (safe : Bool)
    (next : List (TokenKind × String) → Bool) :
    List (TokenKind × String) → Bool
  | first :: rest => !accepts first || next rest
  | [] => safe

/--
Whether a rule, in at most the given number of nested steps, can only read the word after known
tokens as a name, unless the word is a keyword, or `next` takes care of the tokens left over.
-/
def readsAsName (table : C → Rule C) (keywords : List String) :
    Nat → Rule C → (List (TokenKind × String) → Bool) → List (TokenKind × String) → Bool
  | 0, _, _, _ => false
  | depth + 1, rule, next, known =>
    match rule with
    | .done => next known
    | .word text | .gluedWord text =>
      goesOn (· == (.word, text)) (keywords.contains text) next known
    | .name except => goesOn (fun found => !except.contains found.2) true next known
    | .symbol text | .glued text => goesOn (· == (.symbol, text)) true next known
    | .kind accepts => goesOn (fun found => accepts found.1) (!accepts .word) next known
    | .call category => readsAsName table keywords depth (table category) next known
    | .node _ inner => readsAsName table keywords depth inner next known
    | .seq first second =>
      readsAsName table keywords depth first (readsAsName table keywords depth second next) known
    | .either first second | .guarded _ first second =>
      readsAsName table keywords depth first next known &&
        readsAsName table keywords depth second next known
    | .many inner =>
      next known &&
        readsAsName table keywords depth inner
          (readsAsName table keywords depth (.many inner) next) known

/-- A word among some tokens is used as a name, or left over after tokens that `next` expects. -/
def NamedOrLeft
    (next : List (TokenKind × String) → Bool)
    (word : Token)
    (phrases : List Phrase)
    (more : List Token) : Prop :=
  word.text ∈ Phrase.allNamesOf phrases ∨
    ∃ left rest, more = left ++ word :: rest ∧ next (left.map Token.spelling) = true

/-- A single token is a known one, or the word after them. -/
theorem namedOrLeft_leaf
    {next : List (TokenKind × String) → Bool}
    {accepts : TokenKind × String → Bool}
    {safe isName : Bool}
    {token word : Token}
    {known more rest : List Token}
    (accepted : accepts token.spelling = true)
    (good : goesOn accepts safe next (known.map Token.spelling) = true)
    (tokens_eq : token :: more = known ++ word :: rest)
    (named : safe = true → token = word → isName = true) :
    NamedOrLeft next word [.leaf isName token] more := by
  cases known with
  | nil =>
      obtain ⟨rfl, -⟩ := List.cons.inj tokens_eq
      have isNamed := named good rfl
      subst isNamed
      exact .inl (List.mem_singleton_self _)
  | cons first others =>
      obtain ⟨rfl, rfl⟩ := List.cons.inj tokens_eq
      simp only [List.map_cons, goesOn, accepted, Bool.not_true, Bool.false_or] at good
      exact .inr ⟨others, rest, rfl, good⟩

/-- What is derived from a rule uses a word as a name wherever the rule can only read it so. -/
theorem namedOrLeft_of_derives
    {rule : Rule C}
    {phrases : List Phrase}
    {next : List (TokenKind × String) → Bool}
    {depth : Nat}
    {word : Token}
    {known more rest : List Token}
    (derived : Derives table rule phrases)
    (isWord : word.kind = .word)
    (noKeyword : word.text ∉ keywords)
    (reads : readsAsName table keywords depth rule next (known.map Token.spelling) = true)
    (tokens_eq : Phrase.tokensOfAll phrases ++ more = known ++ word :: rest) :
    NamedOrLeft next word phrases more := by
  induction derived generalizing depth next known more rest with
  | done =>
      cases depth with
      | zero => cases reads
      | succ depth => exact .inr ⟨known, rest, tokens_eq, reads⟩
  | word isKeyword same | gluedWord isKeyword same =>
      cases depth with
      | zero => cases reads
      | succ depth =>
          refine namedOrLeft_leaf (by simp [Token.spelling, isKeyword, same]) reads tokens_eq ?_
          rintro isSafe rfl
          rw [same] at noKeyword
          exact absurd (List.contains_iff_mem.mp isSafe) noKeyword
  | name _ allowed =>
      cases depth with
      | zero => cases reads
      | succ depth =>
          exact namedOrLeft_leaf (by simp [Token.spelling, allowed]) reads tokens_eq fun _ _ => rfl
  | symbol isSymbol same | glued isSymbol same =>
      cases depth with
      | zero => cases reads
      | succ depth =>
          refine namedOrLeft_leaf (by simp [Token.spelling, isSymbol, same]) reads tokens_eq ?_
          rintro - rfl
          rw [isSymbol] at isWord
          cases isWord
  | kind accepted =>
      cases depth with
      | zero => cases reads
      | succ depth =>
          refine namedOrLeft_leaf (by simpa [Token.spelling] using accepted) reads tokens_eq ?_
          rintro isSafe rfl
          rw [isWord] at accepted
          simp [accepted] at isSafe
  | call _ inductionHypothesis =>
      cases depth with
      | zero => cases reads
      | succ depth => exact inductionHypothesis reads tokens_eq
  | node _ inductionHypothesis =>
      cases depth with
      | zero => cases reads
      | succ depth =>
          rw [Phrase.tokensOfAll, Phrase.tokens, Phrase.tokensOfAll, List.append_nil] at tokens_eq
          refine (inductionHypothesis reads tokens_eq).imp_left fun named => ?_
          simpa using named
  | seq _ _ firstHypothesis secondHypothesis =>
      cases depth with
      | zero => cases reads
      | succ depth =>
          rw [Phrase.tokensOfAll_append, List.append_assoc] at tokens_eq
          rcases firstHypothesis reads tokens_eq with named | ⟨left, _, left_eq, readsLeft⟩
          · exact .inl (by simp [named])
          · refine (secondHypothesis readsLeft left_eq).imp_left fun named => ?_
            simp [named]
  | first _ inductionHypothesis | yes _ inductionHypothesis =>
      cases depth with
      | zero => cases reads
      | succ depth =>
          simp only [readsAsName, Bool.and_eq_true] at reads
          exact inductionHypothesis reads.1 tokens_eq
  | second _ inductionHypothesis | no _ inductionHypothesis =>
      cases depth with
      | zero => cases reads
      | succ depth =>
          simp only [readsAsName, Bool.and_eq_true] at reads
          exact inductionHypothesis reads.2 tokens_eq
  | stop =>
      cases depth with
      | zero => cases reads
      | succ depth =>
          simp only [readsAsName, Bool.and_eq_true] at reads
          exact .inr ⟨known, rest, tokens_eq, reads.1⟩
  | more _ _ frontHypothesis backHypothesis =>
      cases depth with
      | zero => cases reads
      | succ depth =>
          simp only [readsAsName, Bool.and_eq_true] at reads
          rw [Phrase.tokensOfAll_append, List.append_assoc] at tokens_eq
          rcases frontHypothesis reads.2 tokens_eq with named | ⟨left, _, left_eq, readsLeft⟩
          · exact .inl (by simp [named])
          · refine (backHypothesis readsLeft left_eq).imp_left fun named => ?_
            simp [named]

end Rule

/-! ## Receivers -/

/-- The tokens before a name that is taken from the object itself. -/
def ownObject : List (TokenKind × String) :=
  [(.word, "this"), (.symbol, ".")]

theorem readsAsName_primary
    {known : List (TokenKind × String)}
    (isReceiver : known = [] ∨ known = ownObject)
    (arrows : Bool) :
    Rule.readsAsName Category.rule Category.operandWords callDepth (.call (.primary arrows))
      (fun _ => true) known = true := by
  rcases isReceiver with rfl | rfl <;> cases arrows <;> decide

/--
A chain of selections that begins with a word, alone or selected from the object itself, uses the
word as a name, if it is no keyword there.
-/
theorem mem_allNamesOf_primary
    {links : List Phrase}
    {rest : List Token}
    (known : List Token)
    (word : Token)
    (written : Written (.node .primary links))
    (tokens_eq : Phrase.tokensOfAll links = known ++ word :: rest)
    (isReceiver : known.map Token.spelling = [] ∨ known.map Token.spelling = ownObject)
    (isWord : word.kind = .word)
    (noKeyword : word.text ∉ Category.operandWords) :
    word.text ∈ Phrase.allNamesOf links := by
  obtain ⟨category, isWriter, derived⟩ := written.1 (List.cons_ne_nil _ _)
  obtain ⟨arrows, rfl⟩ : ∃ arrows, category = .primary arrows := by
    simp only [writers, List.mem_cons, List.not_mem_nil, or_false] at isWriter
    exact isWriter.elim (fun same => ⟨_, same⟩) fun same => ⟨_, same⟩
  have whole : Phrase.tokensOfAll [.node .primary links] ++ [] = known ++ word :: rest := by
    simpa [Phrase.tokensOfAll, Phrase.tokens] using tokens_eq
  rcases Rule.namedOrLeft_of_derives derived isWord noKeyword
    (readsAsName_primary isReceiver arrows)
    whole with named | ⟨left, _, nothing, -⟩
  · simpa using named
  · simp at nothing

end JupiterMigration.Java
