import JupiterMigration.Proofs.Grammar.Program
import JupiterMigration.Proofs.Tokens.Prefix

/-!
# Ordinary files

An ordinary file has a package declaration, if any, then imports, then types and semicolons that
stand alone (`compilationUnit`).  What stands before the types ends with a semicolon, and every
declaration begins with something that ends the gap before it.
-/

namespace JupiterMigration.Java

open Rule Phrase

/-! ## The rules -/

/-- A package declaration, which may have annotations. -/
def packageDeclaration : Rule Category :=
  .node .declaration (.seq (.many (.call .annotationUse))
    (.node .other (all [.word "package", .call .qualifiedName, .symbol ";"])))

/-- An import, static or not, of a name or on demand. -/
def importDeclaration : Rule Category :=
  .node .importDeclaration
    (all [.word "import", optional (.word "static"), .call .qualifiedName,
      optional (.seq (.symbol ".") (.symbol "*")), .symbol ";"])

/-- A class, interface, enumeration, annotation type or record with its modifiers. -/
def typeDeclaration : Rule Category :=
  .node .declaration (.seq (optional (.call .modifiers))
    (oneOf [.call .classDeclaration, .call .interfaceDeclaration, .call .enumDeclaration,
      .call .annotationDeclaration, .call .recordDeclaration]))

/-- A type, or a semicolon that stands alone. -/
def typeOrSemicolon : Rule Category :=
  .either typeDeclaration (.node .statement (.symbol ";"))

/-- An ordinary file: a package declaration, if any, imports, and types. -/
def compilationUnit : Rule Category :=
  all [optional packageDeclaration, .many importDeclaration, .many typeOrSemicolon]

/-- Phrases that make up an ordinary file, at least one. -/
def IsOrdinary (phrases : List Phrase) : Prop :=
  phrases ≠ [] ∧ Derives Category.rule compilationUnit phrases

/-! ## The declarations of an ordinary file -/

section Parts

variable {phrase : Phrase} {phrases : List Phrase}

theorem forall_of_many
    {rule : Rule Category}
    (derived : Derives Category.rule (.many rule) phrases)
    (single : isSingle Category.rule callDepth rule = true) :
    ∀ phrase ∈ phrases, Derives Category.rule rule [phrase] := by
  obtain ⟨pieces, rfl, derivedPieces⟩ := derived.of_many
  intro phrase inside
  obtain ⟨piece, isPiece, inPiece⟩ := List.mem_flatten.mp inside
  have derivedPiece := derivedPieces piece isPiece
  obtain ⟨only, rfl⟩ := derivedPiece.eq_singleton callDepth single
  rw [List.mem_singleton] at inPiece
  exact inPiece ▸ derivedPiece

/-- The declarations of an ordinary file: those before the types, and the types. -/
theorem exists_of_compilationUnit (derived : Derives Category.rule compilationUnit phrases) :
    ∃ front back, phrases = front ++ back ∧
      (∀ phrase ∈ front, Derives Category.rule (.either packageDeclaration importDeclaration)
        [phrase]) ∧
      ∀ phrase ∈ back, Derives Category.rule typeOrSemicolon [phrase] := by
  obtain ⟨package, _, rfl, derivedPackage, derivedRest⟩ := derived.of_seq
  obtain ⟨imports, types, rfl, derivedImports, derivedTypes⟩ := derivedRest.of_seq
  refine ⟨package ++ imports, types, by simp, fun phrase inside => ?_,
    forall_of_many derivedTypes (by decide)⟩
  rcases List.mem_append.mp inside with inPackage | inImports
  · cases derivedPackage.of_either with
    | inl derivedPackage =>
        obtain ⟨only, rfl⟩ := derivedPackage.eq_singleton callDepth (by decide)
        rw [List.mem_singleton] at inPackage
        exact .first (inPackage ▸ derivedPackage)
    | inr nothing =>
        rw [nothing.eq_nil] at inPackage
        cases inPackage
  · exact .second (forall_of_many derivedImports (by decide) phrase inImports)

/-! ## Semicolons at the end -/

/-- What is derived from rules in a row up to a semicolon ends with it. -/
theorem exists_stop_of_all
    (rules : List (Rule Category))
    (derived : Derives Category.rule (all (rules ++ [.symbol ";"])) phrases) :
    ∃ front stop, tokensOfAll phrases = front ++ [stop] ∧ IsEnd stop := by
  induction rules generalizing phrases with
  | nil =>
      cases derived with
      | symbol isSymbol same => exact ⟨[], _, rfl, isSymbol, same⟩
  | cons first rules inductionHypothesis =>
      have row :
          all (first :: rules ++ [.symbol ";"]) = .seq first (all (rules ++ [.symbol ";"])) := by
        cases rules <;> rfl
      rw [row] at derived
      obtain ⟨begins, rest, rfl, -, derivedRest⟩ := derived.of_seq
      obtain ⟨front, stop, tokens_eq, isEnd⟩ := inductionHypothesis derivedRest
      exact ⟨tokensOfAll begins ++ front, stop, by rw [tokensOfAll_append, tokens_eq]; simp, isEnd⟩

theorem endsInSemicolon_of_package
    (derived : Derives Category.rule packageDeclaration [phrase]) : EndsInSemicolon phrase := by
  obtain ⟨_, same, declared⟩ := derived.of_node
  cases same
  obtain ⟨uses, _, rfl, -, derivedLast⟩ := declared.of_seq
  obtain ⟨parts, rfl, derivedParts⟩ := derivedLast.of_node
  obtain ⟨front, stop, tokens_eq, isEnd⟩ :=
    exists_stop_of_all [.word "package", .call .qualifiedName] derivedParts
  refine ⟨tokensOfAll uses ++ front, stop, ?_, isEnd⟩
  simp [tokensOfAll_append, tokensOfAll, tokens, tokens_eq]

theorem endsInSemicolon_of_import
    (derived : Derives Category.rule importDeclaration [phrase]) : EndsInSemicolon phrase := by
  obtain ⟨parts, same, derivedParts⟩ := derived.of_node
  cases same
  exact exists_stop_of_all [.word "import", optional (.word "static"), .call .qualifiedName,
    optional (.seq (.symbol ".") (.symbol "*"))] derivedParts

/-! ## First tokens -/

/-- What a package declaration or an import begins with. -/
def frontTexts : List String := ["@", "package", "import"]

/-- What a type begins with, or a semicolon is. -/
def typeTexts : List String :=
  ["@", "class", "interface", "enum", "record", "sealed", "non", ";"] ++ Category.modifierWords

theorem opensWith_of_front
    (derived : Derives Category.rule (.either packageDeclaration importDeclaration) [phrase]) :
    OpensWith frontTexts [phrase] :=
  opensWith_of_derives derived callDepth (by decide)

theorem opensWith_of_type (derived : Derives Category.rule typeOrSemicolon [phrase]) :
    OpensWith typeTexts [phrase] :=
  opensWith_of_derives derived callDepth (by decide)

/-- Texts that end the gap before them do so before a phrase that begins with one of them. -/
theorem OpensWith.endsGap
    {texts : List String}
    (opens : OpensWith texts [phrase])
    (ends : texts.all Java.endsGap = true) :
    ∀ first ∈ phrase.tokens.head?, Java.endsGap first.text = true := by
  intro first begins
  obtain ⟨rest, tokens_eq⟩ := List.head?_eq_some_iff.mp begins
  refine List.all_eq_true.mp ends _ (opens first rest ?_)
  rw [tokensOfAll, tokensOfAll, List.append_nil, tokens_eq]

/-! ## Plain tokens -/

/-- Whether a rule derives words and plain symbols only. -/
def isPlainOnly {C : Type} (table : C → Rule C) : Nat → Rule C → Bool
  | 0, _ => false
  | depth + 1, rule =>
    match rule with
    | .done | .word _ | .gluedWord _ | .name _ => true
    | .symbol text | .glued text => text != "\x7b" && text != "\x7d"
    | .kind _ => false
    | .call category => isPlainOnly table depth (table category)
    | .node _ inner | .many inner => isPlainOnly table depth inner
    | .seq first second | .either first second | .guarded _ first second =>
      isPlainOnly table depth first && isPlainOnly table depth second

theorem isPlain_of_derives
    {C : Type}
    {table : C → Rule C}
    {rule : Rule C}
    (derived : Derives table rule phrases)
    (depth : Nat)
    (only : isPlainOnly table depth rule = true) :
    ∀ token ∈ tokensOfAll phrases, token.IsPlain := by
  have single {token : Token} (isName : Bool) (plain : token.IsPlain) :
      ∀ other ∈ tokensOfAll [.leaf isName token], other.IsPlain := by
    simpa [tokensOfAll, tokens] using plain
  have append {front back : List Phrase} (plainFront : ∀ token ∈ tokensOfAll front, token.IsPlain)
      (plainBack : ∀ token ∈ tokensOfAll back, token.IsPlain) :
      ∀ token ∈ tokensOfAll (front ++ back), token.IsPlain := by
    rw [tokensOfAll_append, List.forall_mem_append]
    exact ⟨plainFront, plainBack⟩
  induction derived generalizing depth with
  | done | stop =>
      intro token inside
      cases inside
  | word isWord _ | gluedWord isWord _ => exact single _ (.inl isWord)
  | name isWord _ => exact single _ (.inl isWord)
  | symbol isSymbol same | glued isSymbol same =>
      cases depth with
      | zero => cases only
      | succ depth =>
          simp only [isPlainOnly, Bool.and_eq_true, bne_iff_ne] at only
          exact single _ (.inr ⟨isSymbol, same ▸ only⟩)
  | kind => cases depth <;> cases only
  | call _ inductionHypothesis =>
      cases depth with
      | zero => cases only
      | succ depth => exact inductionHypothesis depth only
  | node _ inductionHypothesis =>
      cases depth with
      | zero => cases only
      | succ depth => simpa [tokensOfAll, tokens] using inductionHypothesis depth only
  | seq _ _ firstHypothesis secondHypothesis =>
      cases depth with
      | zero => cases only
      | succ depth =>
          simp only [isPlainOnly, Bool.and_eq_true] at only
          exact append (firstHypothesis depth only.1) (secondHypothesis depth only.2)
  | first _ inductionHypothesis | yes _ inductionHypothesis =>
      cases depth with
      | zero => cases only
      | succ depth =>
          simp only [isPlainOnly, Bool.and_eq_true] at only
          exact inductionHypothesis depth only.1
  | second _ inductionHypothesis | no _ inductionHypothesis =>
      cases depth with
      | zero => cases only
      | succ depth =>
          simp only [isPlainOnly, Bool.and_eq_true] at only
          exact inductionHypothesis depth only.2
  | more _ _ frontHypothesis backHypothesis =>
      cases depth with
      | zero => cases only
      | succ depth => exact append (frontHypothesis depth only) (backHypothesis (depth + 1) only)

theorem isPlain_of_import (derived : Derives Category.rule importDeclaration [phrase]) :
    ∀ token ∈ phrase.tokens, token.IsPlain := by
  have plain := isPlain_of_derives derived callDepth (by decide)
  simpa [tokensOfAll] using plain

end Parts

end JupiterMigration.Java
