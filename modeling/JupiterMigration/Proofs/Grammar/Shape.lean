import JupiterMigration.Java.Grammar
import JupiterMigration.Proofs.Grammar.Derivation

/-!
# The shape of phrases

The grammar gives the parts of a declaration a fixed form: annotations and types hold tokens, a
class ends in its body, braces and parentheses stand around bodies and parameter lists, and a method
has a type, a name and parameters in this order.  A phrase is shaped if this holds of it and of
every phrase below it, and every name in it is a word.

All phrases of a program are shaped (`shaped_of_readProgram`).  Whoever reads declarations off
phrases relies on this and needs no rule of the grammar.
-/

namespace JupiterMigration.Java

open Rule

/-- No part has one of the labels. -/
def Avoids (labels : List Label) (parts : List Phrase) : Prop :=
  ∀ part ∈ parts, ∀ label ∈ labels, part.isA label = false

/-- The labels of a class and of the body of one. -/
def classLabels : List Label := [.classDeclaration, .classBody]

/-- The parts stand between two tokens that name nothing. -/
def Enclosed
    (opening closing : String)
    (Inside : List Phrase → Prop)
    (parts : List Phrase) : Prop :=
  ∃ first inner last,
    parts = .leaf false first :: (inner ++ [.leaf false last]) ∧
      first.text = opening ∧ last.text = closing ∧ Inside inner

/-- Phrases with a comma between any two of them. -/
inductive CommaSeparated : List Phrase → Prop
  | none : CommaSeparated []
  | one (phrase : Phrase) : CommaSeparated [phrase]
  | more {phrase : Phrase} {comma : Token} {rest : List Phrase} :
      comma.text = "," → rest ≠ [] → CommaSeparated rest →
      CommaSeparated (phrase :: .leaf false comma :: rest)

/--
What stands behind the parameter list of a method: at its end a body, or a token alone, and no other
parameter list.
-/
def EndsInBody (body : Label) (parts : List Phrase) : Prop :=
  ∃ front last, parts = front ++ [last] ∧ Avoids [.parameters] front ∧
    ((∃ token, last = .leaf false token) ∨ last.isA body = true)

/-- A method: some parts without a type, its type, its name, its parameters, and the rest. -/
def MethodForm (parts : List Phrase) : Prop :=
  ∃ front type name list back,
    parts = front ++ type :: .leaf true name :: .node .parameters list :: back ∧
      Avoids [.type, .parameters] front ∧ type.isA .type = true ∧ EndsInBody .block back

/-- A constructor: some labelled parts, its name, its parameters, and the rest. -/
def ConstructorForm (parts : List Phrase) : Prop :=
  ∃ front name list back,
    parts = front ++ .leaf true name :: .node .parameters list :: back ∧
      (∀ part ∈ front, part.label?.isSome = true) ∧ Avoids [.parameters] front ∧
      EndsInBody .constructorBody back

/-- The form of the parts of a labelled phrase. -/
def HasForm : Label → List Phrase → Prop
  | .annotationUse, parts | .type, parts => Phrase.tokensOfAll parts ≠ []
  | .declaration, parts => ∃ front last, parts = front ++ [last] ∧ Avoids classLabels front
  | .classDeclaration, parts =>
    ∃ front body, parts = front ++ [.node .classBody body] ∧ Avoids classLabels front
  | .classBody, parts | .block, parts | .constructorBody, parts =>
    Enclosed "\x7b" "\x7d" (fun _ => True) parts
  | .parameters, parts => Enclosed "(" ")" CommaSeparated parts
  | .methodDeclaration, parts => MethodForm parts
  | .constructorDeclaration, parts => ConstructorForm parts
  | _, _ => True

mutual

/-- The phrase and every phrase below it has the form of its label, and names are words. -/
def Shaped : Phrase → Prop
  | .leaf isName token => isName = true → token.kind = .word
  | .node label parts => HasForm label parts ∧ ShapedAll parts

/-- All of some phrases are shaped. -/
def ShapedAll : List Phrase → Prop
  | [] => True
  | first :: rest => Shaped first ∧ ShapedAll rest

end

theorem shapedAll_iff {phrases : List Phrase} :
    ShapedAll phrases ↔ ∀ phrase ∈ phrases, Shaped phrase := by
  induction phrases with
  | nil => simp [ShapedAll]
  | cons first rest inductionHypothesis => simp [ShapedAll, inductionHypothesis]

theorem shapedAll_append {front back : List Phrase} :
    ShapedAll (front ++ back) ↔ ShapedAll front ∧ ShapedAll back := by
  simp only [shapedAll_iff, List.mem_append]
  grind

/-! ## From rules to shapes -/

/-- The labels whose phrases have a form. -/
def formedLabels : List Label :=
  [.annotationUse, .type, .declaration, .classDeclaration, .classBody, .block, .constructorBody,
    .parameters, .methodDeclaration, .constructorDeclaration]

theorem hasForm_of_not_mem
    {label : Label}
    (free : label ∉ formedLabels)
    (parts : List Phrase) : HasForm label parts := by
  cases label <;> trivial

section Rules

variable {C : Type} {table : C → Rule C}

/-- Every labelled phrase that the rule writes itself has the form of its label. -/
def NodesHaveForm (table : C → Rule C) : Rule C → Prop
  | .node label inner =>
    (∀ parts, Derives table inner parts → HasForm label parts) ∧ NodesHaveForm table inner
  | .seq first second | .either first second | .guarded _ first second =>
    NodesHaveForm table first ∧ NodesHaveForm table second
  | .many inner => NodesHaveForm table inner
  | _ => True

/-- What is derived is shaped if every rule gives its phrases their form. -/
theorem shapedAll_of_derives
    (formed : ∀ category, NodesHaveForm table (table category))
    {rule : Rule C}
    {phrases : List Phrase}
    (derived : Derives table rule phrases)
    (ruleFormed : NodesHaveForm table rule) : ShapedAll phrases := by
  induction derived with
  | done | stop => trivial
  | word | gluedWord | symbol | glued | kind => simp [ShapedAll, Shaped]
  | name isWord _ => exact ⟨fun _ => isWord, trivial⟩
  | call _ inductionHypothesis => exact inductionHypothesis (formed _)
  | node inner inductionHypothesis =>
      simp only [ShapedAll, Shaped, and_true]
      exact ⟨ruleFormed.1 _ inner, inductionHypothesis ruleFormed.2⟩
  | seq _ _ firstHypothesis secondHypothesis =>
      exact shapedAll_append.mpr
        ⟨firstHypothesis ruleFormed.1, secondHypothesis ruleFormed.2⟩
  | first _ inductionHypothesis | yes _ inductionHypothesis =>
      exact inductionHypothesis ruleFormed.1
  | second _ inductionHypothesis | no _ inductionHypothesis =>
      exact inductionHypothesis ruleFormed.2
  | more _ _ frontHypothesis backHypothesis =>
      exact shapedAll_append.mpr ⟨frontHypothesis ruleFormed, backHypothesis ruleFormed⟩

/-- Whether a rule derives exactly one phrase, as far as its calls are followed. -/
def isSingle (table : C → Rule C) : Nat → Rule C → Bool
  | 0, _ => false
  | depth + 1, rule =>
    match rule with
    | .done | .seq .. | .many _ => false
    | .call category => isSingle table depth (table category)
    | .either first second | .guarded _ first second =>
      isSingle table depth first && isSingle table depth second
    | _ => true

theorem Rule.Derives.eq_singleton
    {rule : Rule C}
    {phrases : List Phrase}
    (derived : Derives table rule phrases)
    (depth : Nat)
    (single : isSingle table depth rule = true) : ∃ phrase, phrases = [phrase] := by
  induction derived generalizing depth with
  | done | stop | seq | more => cases depth <;> simp [isSingle] at single
  | word | gluedWord | name | symbol | glued | kind | node => exact ⟨_, rfl⟩
  | call _ inductionHypothesis =>
      cases depth with
      | zero => simp [isSingle] at single
      | succ depth => exact inductionHypothesis depth single
  | first _ inductionHypothesis | yes _ inductionHypothesis =>
      cases depth with
      | zero => simp [isSingle] at single
      | succ depth =>
          simp only [isSingle, Bool.and_eq_true] at single
          exact inductionHypothesis depth single.1
  | second _ inductionHypothesis | no _ inductionHypothesis =>
      cases depth with
      | zero => simp [isSingle] at single
      | succ depth =>
          simp only [isSingle, Bool.and_eq_true] at single
          exact inductionHypothesis depth single.2

/-- How deep the questions about the rules of the grammar follow calls. -/
def callDepth : Nat := 40

/-- Whether the rule derives no phrase with one of the labels. -/
def givesNone (table : C → Rule C) (labels : List Label) (rule : Rule C) : Bool :=
  labels.all fun label => !canGive table label callDepth rule

theorem Rule.Derives.avoids
    {labels : List Label}
    {rule : Rule C}
    {phrases : List Phrase}
    (derived : Derives table rule phrases)
    (none : givesNone table labels rule = true) : Avoids labels phrases := by
  intro phrase member label among
  simp only [givesNone, List.all_eq_true, Bool.not_eq_true'] at none
  exact derived.not_isA callDepth (none label among) phrase member

theorem Avoids.append
    {labels : List Label}
    {front back : List Phrase}
    (frontAvoids : Avoids labels front)
    (backAvoids : Avoids labels back) : Avoids labels (front ++ back) := by
  intro part member
  cases List.mem_append.mp member with
  | inl inFront => exact frontAvoids part inFront
  | inr inBack => exact backAvoids part inBack

/-- In a row of rules the last one derives what follows the phrases of the others. -/
theorem Rule.Derives.of_all_concat
    {labels : List Label}
    {phrases : List Phrase}
    {last : Rule C}
    (rules : List (Rule C))
    (derived : Derives table (all (rules ++ [last])) phrases)
    (none : rules.all (givesNone table labels) = true) :
    ∃ front back, phrases = front ++ back ∧ Avoids labels front ∧ Derives table last back := by
  induction rules generalizing phrases with
  | nil => exact ⟨[], phrases, rfl, by simp [Avoids], derived⟩
  | cons first rules inductionHypothesis =>
      have row : all (first :: rules ++ [last]) = .seq first (all (rules ++ [last])) := by
        cases rules <;> rfl
      rw [row] at derived
      simp only [List.all_cons, Bool.and_eq_true] at none
      obtain ⟨front, rest, rfl, derivedFirst, derivedRest⟩ := derived.of_seq
      obtain ⟨middle, back, rfl, middleAvoids, derivedLast⟩ :=
        inductionHypothesis derivedRest none.2
      refine ⟨front ++ middle, back, by simp, ?_, derivedLast⟩
      exact (derivedFirst.avoids none.1).append middleAvoids

/-- Whether a rule derives one phrase after others that are no classes. -/
def endsAlone (table : C → Rule C) : Rule C → Bool
  | .seq first second => givesNone table classLabels first && endsAlone table second
  | rule => isSingle table callDepth rule

theorem Rule.Derives.declaration_form
    {rule : Rule C}
    {phrases : List Phrase}
    (derived : Derives table rule phrases)
    (alone : endsAlone table rule = true) : HasForm .declaration phrases := by
  induction rule generalizing phrases with
  | seq first second _ secondHypothesis =>
      simp only [endsAlone, Bool.and_eq_true] at alone
      obtain ⟨front, back, rfl, derivedFirst, derivedSecond⟩ := derived.of_seq
      obtain ⟨middle, last, rfl, middleAvoids⟩ := secondHypothesis derivedSecond alone.2
      refine ⟨front ++ middle, last, by simp, ?_⟩
      exact (derivedFirst.avoids alone.1).append middleAvoids
  | _ =>
      obtain ⟨phrase, rfl⟩ := derived.eq_singleton callDepth alone
      exact ⟨[], phrase, rfl, by simp [Avoids]⟩

/-- Whether all phrases that the rule writes have no form, or are declarations of theirs. -/
def isPlain (table : C → Rule C) : Rule C → Bool
  | .node label inner =>
    (!formedLabels.contains label || label == .declaration && endsAlone table inner) &&
      isPlain table inner
  | .seq first second | .either first second | .guarded _ first second =>
    isPlain table first && isPlain table second
  | .many inner => isPlain table inner
  | _ => true

theorem nodesHaveForm_of_isPlain
    {rule : Rule C}
    (plain : isPlain table rule = true) : NodesHaveForm table rule := by
  induction rule with
  | node label inner inductionHypothesis =>
      simp only [isPlain, Bool.and_eq_true, Bool.or_eq_true, beq_iff_eq, Bool.not_eq_true',
        List.contains_eq_mem, decide_eq_false_iff_not] at plain
      refine ⟨?_, inductionHypothesis plain.2⟩
      intro parts derived
      cases plain.1 with
      | inl free => exact hasForm_of_not_mem free parts
      | inr declared => exact declared.1 ▸ derived.declaration_form declared.2
  | seq first second firstHypothesis secondHypothesis
  | either first second firstHypothesis secondHypothesis
  | guarded _ first second _ firstHypothesis secondHypothesis =>
      simp only [isPlain, Bool.and_eq_true] at plain
      exact ⟨firstHypothesis plain.1, secondHypothesis plain.2⟩
  | many inner inductionHypothesis => exact inductionHypothesis plain
  | _ => trivial

theorem Rule.Derives.enclosed
    {opening closing : String}
    {inside : Rule C}
    {parts : List Phrase}
    {Inside : List Phrase → Prop}
    (derived : Derives table (.seq (.symbol opening) (.seq inside (.symbol closing))) parts)
    (insideHolds : ∀ phrases, Derives table inside phrases → Inside phrases) :
    Enclosed opening closing Inside parts := by
  obtain ⟨front, back, rfl, derivedOpening, derivedRest⟩ := derived.of_seq
  obtain ⟨inner, end', rfl, derivedInside, derivedClosing⟩ := derivedRest.of_seq
  obtain ⟨first, rfl, opens⟩ := derivedOpening.of_symbol
  obtain ⟨last, rfl, closes⟩ := derivedClosing.of_symbol
  exact ⟨first, inner, last, rfl, opens, closes, insideHolds inner derivedInside⟩

theorem commaSeparated_of_pieces
    {element : Rule C}
    {pieces : List (List Phrase)}
    (single : isSingle table callDepth element = true)
    (derived : ∀ piece ∈ pieces, Derives table (.seq (.symbol ",") element) piece)
    (first : Phrase) : CommaSeparated (first :: pieces.flatten) := by
  induction pieces generalizing first with
  | nil => exact .one first
  | cons piece pieces inductionHypothesis =>
      obtain ⟨separator, next, rfl, derivedSeparator, derivedNext⟩ :=
        (derived piece (by simp)).of_seq
      obtain ⟨comma, rfl, isComma⟩ := derivedSeparator.of_symbol
      obtain ⟨following, rfl⟩ := derivedNext.eq_singleton callDepth single
      refine .more isComma (by simp) ?_
      exact inductionHypothesis (fun later member => derived later (by simp [member])) following

/-- A list whose elements are single phrases. -/
theorem Rule.Derives.commaSeparated
    {element : Rule C}
    {phrases : List Phrase}
    (derived : Derives table (separated element (.symbol ",")) phrases)
    (single : isSingle table callDepth element = true) :
    phrases ≠ [] ∧ CommaSeparated phrases := by
  obtain ⟨front, back, rfl, derivedFirst, derivedMore⟩ := derived.of_seq
  obtain ⟨first, rfl⟩ := derivedFirst.eq_singleton callDepth single
  obtain ⟨pieces, rfl, derivedPieces⟩ := derivedMore.of_many
  exact ⟨by simp, commaSeparated_of_pieces single derivedPieces first⟩

end Rules

/-! ## The shapes of programs -/

/-- A labelled phrase whose form follows from the rule for its parts. -/
theorem nodesHaveForm_node
    {label : Label}
    {rule : Rule Category}
    (form : ∀ parts, Derives Category.rule rule parts → HasForm label parts)
    (plain : isPlain Category.rule rule = true) :
    NodesHaveForm Category.rule (.node label rule) :=
  ⟨form, nodesHaveForm_of_isPlain plain⟩

theorem block_form
    {parts : List Phrase}
    {inside : Rule Category}
    (derived : Derives Category.rule
      (.seq (.symbol "\x7b") (.seq inside (.symbol "\x7d"))) parts) :
    Enclosed "\x7b" "\x7d" (fun _ => True) parts :=
  derived.enclosed fun _ _ => trivial

theorem classDeclaration_form
    {parts : List Phrase}
    (rules : List (Rule Category))
    (derived : Derives Category.rule (all (rules ++ [.call .classBody])) parts)
    (none : rules.all (givesNone Category.rule classLabels) = true) :
    HasForm .classDeclaration parts := by
  obtain ⟨front, back, rfl, frontAvoids, derivedBody⟩ := derived.of_all_concat rules none
  obtain ⟨body, rfl, _⟩ := derivedBody.of_call.of_node
  exact ⟨front, body, rfl, frontAvoids⟩

theorem parameters_inside_form
    {guard receiver : Rule Category}
    {parts : List Phrase}
    (derived : Derives Category.rule
      (.guarded guard
        (.seq (.node .receiver receiver)
          (optional (.seq (.symbol ",") (separated (.call .parameter) (.symbol ",")))))
        (optional (separated (.call .parameter) (.symbol ",")))) parts) :
    CommaSeparated parts := by
  cases derived.of_guarded with
  | inl withReceiver =>
      obtain ⟨front, back, rfl, derivedReceiver, derivedMore⟩ := withReceiver.of_seq
      obtain ⟨inner, rfl, _⟩ := derivedReceiver.of_node
      cases derivedMore.of_either with
      | inl derivedRest =>
          obtain ⟨separator, list, rfl, derivedComma, derivedList⟩ := derivedRest.of_seq
          obtain ⟨comma, rfl, isComma⟩ := derivedComma.of_symbol
          have listed := derivedList.commaSeparated (by decide)
          exact .more isComma listed.1 listed.2
      | inr nothing =>
          rw [nothing.eq_nil]
          exact .one _
  | inr withoutReceiver =>
      cases withoutReceiver.of_either with
      | inl derivedList => exact (derivedList.commaSeparated (by decide)).2
      | inr nothing =>
          rw [nothing.eq_nil]
          exact .none

theorem method_form
    {generics dimensions throws : Rule Category}
    {parts : List Phrase}
    (derived : Derives Category.rule
      (all [generics, .call .type, .name [], .call .parameters, dimensions, throws,
        .either (.call .block) (.symbol ";")]) parts)
    (noType : givesNone Category.rule [.type, .parameters] generics = true)
    (noParameters : [dimensions, throws].all (givesNone Category.rule [.parameters]) = true) :
    MethodForm parts := by
  obtain ⟨front, _, rfl, derivedGenerics, afterGenerics⟩ := derived.of_seq
  obtain ⟨_, _, rfl, derivedType, afterType⟩ := afterGenerics.of_seq
  obtain ⟨_, _, rfl, derivedName, afterName⟩ := afterType.of_seq
  obtain ⟨_, back, rfl, derivedParameters, derivedBack⟩ := afterName.of_seq
  obtain ⟨type, rfl, _⟩ := derivedType.of_call.of_node
  obtain ⟨name, rfl⟩ := derivedName.of_name
  obtain ⟨list, rfl, _⟩ := derivedParameters.of_call.of_node
  refine ⟨front, .node .type type, name, list, back, by simp, derivedGenerics.avoids noType, rfl,
    ?_⟩
  obtain ⟨middle, last, rfl, middleAvoids, derivedLast⟩ :=
    derivedBack.of_all_concat [dimensions, throws] noParameters
  cases derivedLast.of_either with
  | inl derivedBlock =>
      obtain ⟨body, rfl, _⟩ := derivedBlock.of_call.of_node
      exact ⟨middle, .node .block body, rfl, middleAvoids, .inr rfl⟩
  | inr derivedSemicolon =>
      obtain ⟨semicolon, rfl, _⟩ := derivedSemicolon.of_symbol
      exact ⟨middle, .leaf false semicolon, rfl, middleAvoids, .inl ⟨semicolon, rfl⟩⟩

theorem constructor_form
    {throws : Rule Category}
    {parts : List Phrase}
    (derived : Derives Category.rule
      (all [optional (.call .typeParameters), .name [], .call .parameters, throws,
        .call .constructorBody]) parts)
    (noParameters : givesNone Category.rule [.parameters] throws = true) :
    ConstructorForm parts := by
  obtain ⟨front, _, rfl, derivedGenerics, afterGenerics⟩ := derived.of_seq
  obtain ⟨_, _, rfl, derivedName, afterName⟩ := afterGenerics.of_seq
  obtain ⟨_, back, rfl, derivedParameters, derivedBack⟩ := afterName.of_seq
  obtain ⟨middle, _, rfl, derivedThrows, derivedBody⟩ := derivedBack.of_seq
  obtain ⟨name, rfl⟩ := derivedName.of_name
  obtain ⟨list, rfl, _⟩ := derivedParameters.of_call.of_node
  obtain ⟨body, rfl, _⟩ := derivedBody.of_call.of_node
  have back : EndsInBody .constructorBody (middle ++ [.node .constructorBody body]) :=
    ⟨middle, .node .constructorBody body, rfl, derivedThrows.avoids noParameters, .inr rfl⟩
  cases derivedGenerics.of_either with
  | inl derivedParameters =>
      obtain ⟨inner, rfl, _⟩ := derivedParameters.of_call.of_node
      refine ⟨[.node .typeParameters inner], name, list, _, by simp, ?_, ?_, back⟩
      · simp [Phrase.label?]
      · simp [Avoids, Phrase.isA, Phrase.label?]
  | inr nothing =>
      obtain rfl := nothing.eq_nil
      refine ⟨[], name, list, _, by simp, ?_, ?_, back⟩
      · simp
      · simp [Avoids]

theorem nodesHaveForm_rule (category : Category) :
    NodesHaveForm Category.rule (Category.rule category) := by
  cases category with
  | annotationUse | type | codeType =>
      exact nodesHaveForm_node (fun parts derived =>
        derived.tokens_ne_nil callDepth (by decide)) (by decide)
  | classDeclaration =>
      exact nodesHaveForm_node (fun parts derived =>
        classDeclaration_form [_, _, _, _, _, _] derived (by decide))
        (by decide)
  | classBody | block | constructorBody =>
      exact nodesHaveForm_node (fun parts => block_form) (by decide)
  | parameters =>
      exact nodesHaveForm_node (fun parts derived =>
        derived.enclosed fun _ => parameters_inside_form) (by decide)
  | method =>
      exact nodesHaveForm_node (fun parts derived =>
        method_form derived (by decide) (by decide)) (by decide)
  | constructor =>
      exact nodesHaveForm_node (fun parts derived => constructor_form derived (by decide))
        (by decide)
  | expression arrows | operand arrows | primary arrows | selectors arrows | assignable arrows =>
      exact nodesHaveForm_of_isPlain (by cases arrows <;> decide)
  | _ => exact nodesHaveForm_of_isPlain (by decide)

/-- The phrases of a program are shaped. -/
theorem shaped_of_readProgram
    {tokens : List Token}
    {phrases : List Phrase}
    (found : readProgram tokens = some phrases) : ShapedAll phrases := by
  unfold readProgram at found
  split at found
  · next readAll =>
      simp only [Option.some.injEq] at found
      subst found
      exact shapedAll_of_derives nodesHaveForm_rule (derives_of_read readAll) trivial
  · simp at found

end JupiterMigration.Java
