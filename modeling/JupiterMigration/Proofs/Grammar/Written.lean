import JupiterMigration.Proofs.Grammar.Shape

/-!
# Which rules write a phrase

Some labels are given out by few categories only: a phrase with such a label is derived from one of
them, wherever it stands in a program (`writtenAll_of_readProgram`).  Whoever finds such a phrase
takes its derivation apart and need not know what is around it.
-/

namespace JupiterMigration.Java

open Rule

/-- The categories whose phrases have a label, for labels that no other rule gives out. -/
def writers : Label → List Category
  | .type => [.type, .codeType]
  | .fieldDeclaration => [.field]
  | .parameter => [.parameter]
  | .parameters => [.parameters]
  | .primary => [.primary true, .primary false]
  | .block => [.block]
  | .constructorBody => [.constructorBody]
  | _ => []

/-- The form that the rules for a label give to its parts. -/
def IsWritten : Label → List Phrase → Prop
  | .classLiteral, parts => ∃ type rest, parts = type :: rest ∧ type.isA .type = true
  | .call, parts => ∃ front list, parts = front ++ [list] ∧
    Derives Category.rule (.call .arguments) [list]
  | label, parts => writers label ≠ [] →
    ∃ category ∈ writers label, Derives Category.rule (.call category) [.node label parts]

mutual

/-- The phrase and every phrase below it is written by one of the rules for its label. -/
def Written : Phrase → Prop
  | .leaf .. => True
  | .node label parts => IsWritten label parts ∧ WrittenAll parts

/-- All of some phrases are written. -/
def WrittenAll : List Phrase → Prop
  | [] => True
  | first :: rest => Written first ∧ WrittenAll rest

end

theorem writtenAll_iff {phrases : List Phrase} :
    WrittenAll phrases ↔ ∀ phrase ∈ phrases, Written phrase := by
  induction phrases with
  | nil => simp [WrittenAll]
  | cons first rest inductionHypothesis => simp [WrittenAll, inductionHypothesis]

theorem writtenAll_append {front back : List Phrase} :
    WrittenAll (front ++ back) ↔ WrittenAll front ∧ WrittenAll back := by
  simp only [writtenAll_iff, List.mem_append]
  grind

/-! ## From rules to phrases -/

/-- Every labelled phrase that the rule writes itself is written as its label asks. -/
def NodesAreWritten : Rule Category → Prop
  | .node label inner =>
    (∀ parts, Derives Category.rule inner parts → IsWritten label parts) ∧ NodesAreWritten inner
  | .seq first second | .either first second | .guarded _ first second =>
    NodesAreWritten first ∧ NodesAreWritten second
  | .many inner => NodesAreWritten inner
  | _ => True

/-- What is derived is written if every rule writes its phrases as their labels ask. -/
theorem writtenAll_of_derives
    (formed : ∀ category, NodesAreWritten (Category.rule category))
    {rule : Rule Category}
    {phrases : List Phrase}
    (derived : Derives Category.rule rule phrases)
    (ruleFormed : NodesAreWritten rule) : WrittenAll phrases := by
  induction derived with
  | done | stop => trivial
  | word | gluedWord | name | symbol | glued | kind => simp [WrittenAll, Written]
  | call _ inductionHypothesis => exact inductionHypothesis (formed _)
  | node inner inductionHypothesis =>
      simp only [WrittenAll, Written, and_true]
      exact ⟨ruleFormed.1 _ inner, inductionHypothesis ruleFormed.2⟩
  | seq _ _ firstHypothesis secondHypothesis =>
      exact writtenAll_append.mpr
        ⟨firstHypothesis ruleFormed.1, secondHypothesis ruleFormed.2⟩
  | first _ inductionHypothesis | yes _ inductionHypothesis =>
      exact inductionHypothesis ruleFormed.1
  | second _ inductionHypothesis | no _ inductionHypothesis =>
      exact inductionHypothesis ruleFormed.2
  | more _ _ frontHypothesis backHypothesis =>
      exact writtenAll_append.mpr ⟨frontHypothesis ruleFormed, backHypothesis ruleFormed⟩

/-- Whether a rule ends with arguments. -/
def endsInArguments : Rule Category → Bool
  | .seq _ second => endsInArguments second
  | .call .arguments => true
  | _ => false

/-- Whether a rule may stand for a label other than at the root of a category. -/
def mayWrite : Label → Rule Category → Bool
  | .classLiteral, .seq (.call .codeType) _ => true
  | .classLiteral, _ => false
  | .call, rule => endsInArguments rule
  | label, _ => (writers label).isEmpty

/-- Whether all labelled phrases that the rule writes itself may be written so. -/
def isFree : Rule Category → Bool
  | .node label inner => mayWrite label inner && isFree inner
  | .seq first second | .either first second | .guarded _ first second =>
    isFree first && isFree second
  | .many inner => isFree inner
  | _ => true

theorem exists_of_endsInArguments
    {rule : Rule Category}
    {parts : List Phrase}
    (ends : endsInArguments rule = true)
    (derived : Derives Category.rule rule parts) :
    ∃ front list, parts = front ++ [list] ∧ Derives Category.rule (.call .arguments) [list] := by
  fun_induction endsInArguments rule generalizing parts with
  | case1 first second inductionHypothesis =>
      obtain ⟨front, back, rfl, -, derivedSecond⟩ := derived.of_seq
      obtain ⟨middle, list, rfl, derivedList⟩ := inductionHypothesis ends derivedSecond
      exact ⟨front ++ middle, list, (List.append_assoc _ _ _).symm, derivedList⟩
  | case2 =>
      obtain ⟨list, rfl, -⟩ := derived.of_call.of_node
      exact ⟨[], _, rfl, derived⟩
  | case3 => cases ends

theorem isWritten_of_mayWrite
    {label : Label}
    {rule : Rule Category}
    {parts : List Phrase}
    (may : mayWrite label rule = true)
    (derived : Derives Category.rule rule parts) : IsWritten label parts := by
  unfold mayWrite at may
  split at may
  · obtain ⟨front, rest, rfl, derivedType, -⟩ := derived.of_seq
    obtain ⟨inner, rfl, -⟩ := derivedType.of_call.of_node
    exact ⟨_, rest, rfl, rfl⟩
  · cases may
  · exact exists_of_endsInArguments may derived
  · next noLiteral noCall _ =>
      unfold IsWritten
      split
      · exact absurd rfl noLiteral
      · exact absurd rfl noCall
      · intro some
        exact absurd (List.isEmpty_iff.mp may) some

theorem nodesAreWritten_of_isFree
    {rule : Rule Category}
    (free : isFree rule = true) : NodesAreWritten rule := by
  induction rule with
  | node label inner inductionHypothesis =>
      simp only [isFree, Bool.and_eq_true] at free
      exact ⟨fun _ => isWritten_of_mayWrite free.1, inductionHypothesis free.2⟩
  | seq first second firstHypothesis secondHypothesis
  | either first second firstHypothesis secondHypothesis
  | guarded _ first second _ firstHypothesis secondHypothesis =>
      simp only [isFree, Bool.and_eq_true] at free
      exact ⟨firstHypothesis free.1, secondHypothesis free.2⟩
  | many inner inductionHypothesis => exact inductionHypothesis free
  | _ => trivial

theorem nodesAreWritten_of_isWriter
    {category : Category}
    {label : Label}
    {inner : Rule Category}
    (rule_eq : Category.rule category = .node label inner)
    (isWriter : category ∈ writers label)
    (free : isFree inner = true) : NodesAreWritten (Category.rule category) := by
  rw [rule_eq]
  refine ⟨fun parts derived => ?_, nodesAreWritten_of_isFree free⟩
  unfold IsWritten
  split
  · cases isWriter
  · cases isWriter
  · intro _
    exact ⟨category, isWriter, .call (rule_eq ▸ .node derived)⟩

theorem nodesAreWritten_rule (category : Category) :
    NodesAreWritten (Category.rule category) := by
  cases category with
  | type | codeType | field | parameter | parameters | block | constructorBody =>
      exact nodesAreWritten_of_isWriter rfl (by decide) (by decide)
  | primary arrows =>
      cases arrows <;> exact nodesAreWritten_of_isWriter rfl (by decide) (by decide)
  | expression arrows | operand arrows | selectors arrows | assignable arrows =>
      exact nodesAreWritten_of_isFree (by cases arrows <;> decide)
  | _ => exact nodesAreWritten_of_isFree (by decide)

/-- The phrases of a program are written by the rules for their labels. -/
theorem writtenAll_of_readProgram
    {tokens : List Token}
    {phrases : List Phrase}
    (found : readProgram tokens = some phrases) : WrittenAll phrases := by
  unfold readProgram at found
  split at found
  · next readAll =>
      simp only [Option.some.injEq] at found
      subst found
      exact writtenAll_of_derives nodesAreWritten_rule (derives_of_read readAll) trivial
  · simp at found

/-! ## How a type begins -/

/-- Phrases without tokens, or whose first token has one of the texts. -/
def OpensWith (texts : List String) (phrases : List Phrase) : Prop :=
  ∀ token rest, Phrase.tokensOfAll phrases = token :: rest → token.text ∈ texts

theorem opensWith_append
    {texts : List String}
    {front back : List Phrase}
    (frontOpens : OpensWith texts front)
    (backOpens : Phrase.tokensOfAll front = [] → OpensWith texts back) :
    OpensWith texts (front ++ back) := by
  intro token rest tokens_eq
  rw [Phrase.tokensOfAll_append] at tokens_eq
  cases front_eq : Phrase.tokensOfAll front with
  | nil =>
      rw [front_eq, List.nil_append] at tokens_eq
      exact backOpens front_eq token rest tokens_eq
  | cons first others =>
      rw [front_eq] at tokens_eq
      obtain ⟨rfl, -⟩ := List.cons.inj tokens_eq
      exact frontOpens _ _ front_eq

/-- All kinds of tokens. -/
def tokenKinds : List TokenKind :=
  [.word, .integer .decimal, .integer .hexadecimal, .integer .octal, .integer .binary, .floating,
    .character, .string, .stringHead, .stringMiddle, .stringTail, .symbol]

theorem mem_tokenKinds (kind : TokenKind) : kind ∈ tokenKinds := by
  cases kind with
  | integer radix => cases radix <;> decide
  | _ => decide

/-- Whether a rule derives only phrases that begin with one of some texts, or no token. -/
def opensOnly {C : Type} (table : C → Rule C) (texts : List String) : Nat → Rule C → Bool
  | 0, _ => false
  | depth + 1, rule =>
    match rule with
    | .done => true
    | .word text | .gluedWord text | .symbol text | .glued text => texts.contains text
    | .name _ => false
    | .kind accepts => tokenKinds.all fun kind => !accepts kind
    | .call category => opensOnly table texts depth (table category)
    | .node _ inner | .many inner => opensOnly table texts depth inner
    | .seq first second =>
      opensOnly table texts depth first &&
        (!canBeEmpty table depth first || opensOnly table texts depth second)
    | .either first second | .guarded _ first second =>
      opensOnly table texts depth first && opensOnly table texts depth second

theorem opensWith_of_derives
    {C : Type}
    {table : C → Rule C}
    {texts : List String}
    {rule : Rule C}
    {phrases : List Phrase}
    (derived : Derives table rule phrases)
    (depth : Nat)
    (only : opensOnly table texts depth rule = true) : OpensWith texts phrases := by
  induction derived generalizing depth with
  | done | stop =>
      intro token rest tokens_eq
      cases tokens_eq
  | name => cases depth <;> simp [opensOnly] at only
  | @kind accepts token accepted =>
      cases depth with
      | zero => simp [opensOnly] at only
      | succ depth =>
          have refused := List.all_eq_true.mp only token.kind (mem_tokenKinds token.kind)
          rw [accepted] at refused
          cases refused
  | word _ same | gluedWord _ same | symbol _ same | glued _ same =>
      intro token rest tokens_eq
      obtain ⟨rfl, -⟩ := List.cons.inj tokens_eq
      cases depth with
      | zero => simp [opensOnly] at only
      | succ depth => simpa [opensOnly, same] using only
  | call _ inductionHypothesis =>
      cases depth with
      | zero => simp [opensOnly] at only
      | succ depth => exact inductionHypothesis depth only
  | node _ inductionHypothesis =>
      cases depth with
      | zero => simp [opensOnly] at only
      | succ depth =>
          have inner := inductionHypothesis depth only
          intro token rest tokens_eq
          rw [Phrase.tokensOfAll, Phrase.tokens, Phrase.tokensOfAll, List.append_nil] at tokens_eq
          exact inner token rest tokens_eq
  | seq derivedFirst _ firstHypothesis secondHypothesis =>
      cases depth with
      | zero => simp [opensOnly] at only
      | succ depth =>
          simp only [opensOnly, Bool.and_eq_true, Bool.or_eq_true, Bool.not_eq_true'] at only
          refine opensWith_append (firstHypothesis depth only.1) fun empty => ?_
          cases only.2 with
          | inl notEmpty => exact absurd empty (derivedFirst.tokens_ne_nil depth notEmpty)
          | inr second => exact secondHypothesis depth second
  | first _ inductionHypothesis | yes _ inductionHypothesis =>
      cases depth with
      | zero => simp [opensOnly] at only
      | succ depth =>
          simp only [opensOnly, Bool.and_eq_true] at only
          exact inductionHypothesis depth only.1
  | second _ inductionHypothesis | no _ inductionHypothesis =>
      cases depth with
      | zero => simp [opensOnly] at only
      | succ depth =>
          simp only [opensOnly, Bool.and_eq_true] at only
          exact inductionHypothesis depth only.2
  | more _ _ frontHypothesis backHypothesis =>
      cases depth with
      | zero => simp [opensOnly] at only
      | succ depth =>
          exact opensWith_append (frontHypothesis depth only) fun _ =>
            backHypothesis (depth + 1) only

/-- The symbols that can follow the first word of a type within the type. -/
def typeMarks : List String := ["<", ".", "@", "["]

theorem eq_leaf_of_words
    {C : Type}
    {table : C → Rule C}
    {texts : List String}
    {phrases : List Phrase}
    (derived : Derives table (oneOf (texts.map .word)) phrases) :
    ∃ token, phrases = [.leaf false token] ∧ token.text ∈ texts := by
  induction texts with
  | nil => cases derived with
    | kind never => cases never
  | cons text rest inductionHypothesis =>
      have head (single : Derives table (.word text) phrases) :
          ∃ token, phrases = [.leaf false token] ∧ token.text ∈ text :: rest := by
        cases single with
        | word _ same => exact ⟨_, rfl, by simp [same]⟩
      cases rest with
      | nil => exact head derived
      | cons next others =>
          cases derived.of_either with
          | inl first => exact head first
          | inr later =>
              obtain ⟨token, rfl, among⟩ := inductionHypothesis later
              exact ⟨token, rfl, List.mem_cons_of_mem _ among⟩

theorem type_parts_of_seq
    {except : List String}
    {typeArguments selected dimensions : Rule Category}
    {parts : List Phrase}
    (derived : Derives Category.rule
      (.seq (.either (oneOf (Category.primitiveWords.map .word))
        (.seq (.name except) (.seq typeArguments selected))) dimensions) parts)
    (only : [typeArguments, selected, dimensions].all
      (opensOnly Category.rule typeMarks callDepth) = true) :
    ∃ isName first rest, parts = .leaf isName first :: rest ∧
      (isName = true ∨ first.text ∈ Category.primitiveWords) ∧ OpensWith typeMarks rest := by
  simp only [List.all_cons, List.all_nil, Bool.and_true, Bool.and_eq_true] at only
  obtain ⟨front, back, rfl, derivedSimple, derivedDimensions⟩ := derived.of_seq
  have backOpens := opensWith_of_derives derivedDimensions callDepth only.2.2
  cases derivedSimple.of_either with
  | inl primitive =>
      obtain ⟨token, rfl, isPrimitive⟩ := eq_leaf_of_words primitive
      exact ⟨false, token, back, rfl, .inr isPrimitive, backOpens⟩
  | inr named =>
      obtain ⟨_, rest, rfl, derivedName, derivedRest⟩ := named.of_seq
      obtain ⟨token, rfl⟩ := derivedName.of_name
      obtain ⟨middle, last, rfl, derivedArguments, derivedSelected⟩ := derivedRest.of_seq
      have middleOpens := opensWith_of_derives derivedArguments callDepth only.1
      have lastOpens := opensWith_of_derives derivedSelected callDepth only.2.1
      refine ⟨true, token, middle ++ last ++ back, rfl, .inl rfl, ?_⟩
      exact opensWith_append (opensWith_append middleOpens fun _ => lastOpens) fun _ => backOpens

/-- A type begins with a name, or with the word for a primitive type. -/
theorem type_parts
    {category : Category}
    {parts : List Phrase}
    (isType : category ∈ writers .type)
    (derived : Derives Category.rule (.call category) [.node .type parts]) :
    ∃ isName first rest, parts = .leaf isName first :: rest ∧
      (isName = true ∨ first.text ∈ Category.primitiveWords) ∧ OpensWith typeMarks rest := by
  simp only [writers, List.mem_cons, List.not_mem_nil, or_false] at isType
  obtain rfl | rfl := isType
  · obtain ⟨_, same, inner⟩ := derived.of_call.of_node
    cases same
    exact type_parts_of_seq inner (by decide)
  · obtain ⟨_, same, inner⟩ := derived.of_call.of_node
    cases same
    exact type_parts_of_seq inner (by decide)

end JupiterMigration.Java
