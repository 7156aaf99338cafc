import JupiterMigration.Java.Source
import JupiterMigration.Proofs.Grammar.Shape

/-!
# Reading shaped phrases

What the readers of declarations find in the phrases of a program.  A declaration ends in the part
that is declared.  A class ends in its body, its members are what stands between the braces of the
body, and they are smaller than the class (`sizeOf_lt_of_view`).  At the top of a file, imports and
classes are looked into and all else is kept verbatim.
-/

namespace JupiterMigration.Java

/-! ## Declarations and brackets -/

/-- The last part of a declaration stands behind its leading annotations. -/
theorem getLast?_declared_rest
    {parts : List Phrase}
    {last : Phrase}
    (last_eq : parts.getLast? = some last)
    (notModifiers : last.isA .modifiers = false) :
    ∃ front, (declared parts).rest = front ++ [last] := by
  rw [← List.getLast?_eq_some_iff]
  unfold declared
  split
  · next modifiers rest =>
      cases rest with
      | nil =>
          simp only [List.getLast?_singleton, Option.some.injEq] at last_eq
          subst last_eq
          simp [Phrase.isA, Phrase.label?] at notModifiers
      | cons second others =>
          rw [List.getLast?_append]
          rw [List.getLast?_cons_cons] at last_eq
          rw [last_eq]
          rfl
  · exact last_eq

/-- Phrases that are taken apart stand between two tokens with the given texts. -/
theorem parts_of_bracketed?
    {opening closing : String}
    {parts : List Phrase}
    {list : Bracketed}
    (found : bracketed? opening closing parts = some list) :
    (∃ firstIsName lastIsName, parts =
      .leaf firstIsName list.opening :: (list.inner ++ [.leaf lastIsName list.closing])) ∧
      list.opening.text = opening ∧ list.closing.text = closing := by
  unfold bracketed? at found
  split at found
  · next firstIsName first rest =>
      split at found
      · next lastIsName last last_eq =>
          split at found
          · next texts =>
              simp only [Option.some.injEq] at found
              subst found
              obtain ⟨front, rfl⟩ := List.getLast?_eq_some_iff.mp last_eq
              exact ⟨⟨firstIsName, lastIsName, by simp⟩, texts⟩
          · simp at found
      · simp at found
  · simp at found

theorem bracketed?_inner_subset
    {opening closing : String}
    {parts : List Phrase}
    {list : Bracketed}
    (found : bracketed? opening closing parts = some list) : list.inner ⊆ parts := by
  obtain ⟨⟨_, _, rfl⟩, _⟩ := parts_of_bracketed? found
  intro part member
  simp [member]

/-- Phrases that stand between two tokens are taken apart. -/
theorem bracketed?_of_enclosed
    {opening closing : String}
    {Inside : List Phrase → Prop}
    {parts : List Phrase}
    (enclosed : Enclosed opening closing Inside parts) :
    ∃ list, bracketed? opening closing parts = some list ∧ Inside list.inner ∧
      parts = .leaf false list.opening :: (list.inner ++ [.leaf false list.closing]) := by
  obtain ⟨first, inner, last, rfl, opens, closes, inside⟩ := enclosed
  refine ⟨⟨first, inner, last⟩, ?_, inside, rfl⟩
  simp [bracketed?, opens, closes]

/-! ## Classes -/

namespace ClassDecl

/-- A class ends in its body. -/
theorem view?_eq_some
    {phrase : Phrase}
    {view : View}
    (found : view? phrase = some view) :
    ∃ inner, phrase = .node .classDeclaration (view.front ++ [.node .classBody inner]) ∧
      bracketed? "\x7b" "\x7d" inner = some view.body := by
  unfold view? at found
  split at found
  · next parts =>
      split at found
      · next inner last_eq =>
          obtain ⟨front, rfl⟩ := List.getLast?_eq_some_iff.mp last_eq
          obtain ⟨body, bodyFound, rfl⟩ := Option.map_eq_some_iff.mp found
          refine ⟨inner, ?_, bodyFound⟩
          simp
      · simp at found
  · simp at found

theorem view?_name
    {parts : List Phrase}
    {view : View}
    (found : view? (.node .classDeclaration parts) = some view) :
    view.name = Expression.calledName parts := by
  unfold view? at found
  dsimp only at found
  split at found
  · obtain ⟨body, -, rfl⟩ := Option.map_eq_some_iff.mp found
    rfl
  · cases found

/-- The body of a shaped class is taken apart. -/
theorem exists_view?
    {parts : List Phrase}
    (shaped : Shaped (.node .classDeclaration parts)) :
    ∃ view, view? (.node .classDeclaration parts) = some view ∧
      view.references = namesOutside [.modifiers, .classBody] parts ∧
      parts = view.front ++ [.node .classBody (.leaf false view.body.opening ::
        (view.body.inner ++ [.leaf false view.body.closing]))] := by
  obtain ⟨⟨front, inner, parts_eq, _⟩, allShaped⟩ := shaped
  rw [parts_eq] at allShaped
  have bodyShaped : Shaped (.node .classBody inner) := (shapedAll_append.mp allShaped).2.1
  obtain ⟨body, bodyFound, _, inner_eq⟩ := bracketed?_of_enclosed bodyShaped.1
  have last_eq : parts.getLast? = some (.node .classBody inner) := by simp [parts_eq]
  refine ⟨⟨Expression.calledName parts, namesOutside [.modifiers, .classBody] parts,
    parts.dropLast, body⟩, ?_, rfl, ?_⟩
  · simp only [view?, last_eq, bodyFound, Option.map_some]
  · rw [← inner_eq]
    simp [parts_eq]

end ClassDecl

namespace Member

theorem ofAll_eq_map (parts : List Phrase) : ofAll parts = parts.map ofPhrase := by
  induction parts with
  | nil => rfl
  | cons first rest inductionHypothesis => rw [ofAll, inductionHypothesis, List.map_cons]

theorem declaredIn_append (front back : List Phrase) :
    declaredIn (front ++ back) = declaredIn front ++ declaredIn back := by
  induction front with
  | nil => rfl
  | cons first rest inductionHypothesis => simp [declaredIn, inductionHypothesis]

theorem declaredBy_eq_nil
    {phrase : Phrase}
    (noClass : ∀ label ∈ classLabels, phrase.isA label = false) : declaredBy phrase = [] := by
  unfold declaredBy
  split
  · simp [classLabels, Phrase.isA, Phrase.label?] at noClass
  · simp [classLabels, Phrase.isA, Phrase.label?] at noClass
  · rfl

theorem declaredIn_eq_nil
    {parts : List Phrase}
    (avoids : Avoids classLabels parts) : declaredIn parts = [] := by
  induction parts with
  | nil => rfl
  | cons first rest inductionHypothesis =>
      rw [declaredIn, declaredBy_eq_nil (avoids first (by simp)),
        inductionHypothesis fun part member => avoids part (by simp [member])]
      rfl

/-- The members of a class body are what stands between its braces. -/
theorem declaredBy_classBody
    {inner : List Phrase}
    {body : Bracketed}
    (found : bracketed? "\x7b" "\x7d" inner = some body) :
    declaredBy (.node .classBody inner) = body.inner.map ofPhrase := by
  obtain ⟨⟨_, _, rfl⟩, _⟩ := parts_of_bracketed? found
  rw [declaredBy, ofAll_eq_map, ← List.map_tail, ← List.map_dropLast, List.tail_cons,
    List.dropLast_concat]

/-- The members read from a declaration are those of its class. -/
theorem declaredIn_of_view
    {parts : List Phrase}
    {view : ClassDecl.View}
    (found : parts.getLast?.bind ClassDecl.view? = some view)
    (shaped : Shaped (.node .declaration parts)) :
    declaredIn parts = view.body.inner.map ofPhrase := by
  obtain ⟨last, last_eq, viewFound⟩ := Option.bind_eq_some_iff.mp found
  obtain ⟨inner, rfl, bodyFound⟩ := ClassDecl.view?_eq_some viewFound
  obtain ⟨⟨front, last', rfl, avoids⟩, allShaped⟩ := shaped
  obtain rfl : last' = _ := by simpa using last_eq
  have classShaped := (shapedAll_append.mp allShaped).2.1
  obtain ⟨classFront, classBody, parts_eq, classAvoids⟩ := classShaped.1
  obtain ⟨rfl, -⟩ := List.append_inj' parts_eq rfl
  rw [declaredIn_append, declaredIn_eq_nil avoids]
  simp [declaredIn, declaredBy, declaredIn_append, declaredIn_eq_nil classAvoids]
  exact declaredBy_classBody bodyFound

/-- A class is read with the name and the members of its phrase. -/
theorem ofPhrase_class
    {parts : List Phrase}
    {view : ClassDecl.View}
    (found : parts.getLast?.bind ClassDecl.view? = some view)
    (shaped : Shaped (.node .declaration parts)) :
    ∃ head, ofPhrase (.node .declaration parts) =
      .classDecl head (view.body.inner.map ofPhrase) ∧ head.name = view.name := by
  obtain ⟨last, last_eq, viewFound⟩ := Option.bind_eq_some_iff.mp found
  obtain ⟨inner, rfl, -⟩ := ClassDecl.view?_eq_some viewFound
  have noField : Field.ofParts? (Phrase.node .declaration parts).gap parts = none := by
    simp [Field.ofParts?, last_eq]
  have noMethod : Method.ofParts? (Phrase.node .declaration parts).gap parts = none := by
    simp [Method.ofParts?, last_eq, Method.header?]
  rw [ofPhrase, declaredIn_of_view found shaped]
  simp only [ofClassPart, noField, noMethod, ClassDecl.ofParts?, found, Option.map_some,
    Option.getD_some]
  exact ⟨_, rfl, rfl⟩

/-- What stands in the body of a class is smaller than the declaration of the class. -/
theorem sizeOf_lt_of_view
    {parts : List Phrase}
    {view : ClassDecl.View}
    {part : Phrase}
    (found : parts.getLast?.bind ClassDecl.view? = some view)
    (inside : part ∈ view.body.inner) : sizeOf part < sizeOf parts := by
  obtain ⟨last, last_eq, viewFound⟩ := Option.bind_eq_some_iff.mp found
  obtain ⟨inner, rfl, bodyFound⟩ := ClassDecl.view?_eq_some viewFound
  have inBody : part ∈ inner := bracketed?_inner_subset bodyFound inside
  have bodySize := List.sizeOf_lt_of_mem inBody
  have lastSize := List.sizeOf_lt_of_mem (List.mem_of_getLast? last_eq)
  have inLast : Phrase.node .classBody inner ∈ view.front ++ [.node .classBody inner] := by simp
  have classSize := List.sizeOf_lt_of_mem inLast
  simp only [Phrase.node.sizeOf_spec] at lastSize classSize
  omega

/-- The members of a shaped class body are shaped. -/
theorem shaped_of_view
    {parts : List Phrase}
    {view : ClassDecl.View}
    {part : Phrase}
    (found : parts.getLast?.bind ClassDecl.view? = some view)
    (shaped : ShapedAll parts)
    (inside : part ∈ view.body.inner) : Shaped part := by
  obtain ⟨last, last_eq, viewFound⟩ := Option.bind_eq_some_iff.mp found
  obtain ⟨inner, rfl, bodyFound⟩ := ClassDecl.view?_eq_some viewFound
  have classShaped := shapedAll_iff.mp shaped _ (List.mem_of_getLast? last_eq)
  have bodyShaped := (shapedAll_append.mp classShaped.2).2.1
  exact shapedAll_iff.mp bodyShaped.2 part (bracketed?_inner_subset bodyFound inside)

/-! ## The top of a file -/

/-- A class at the top of a file is read like one in another class. -/
theorem ofTopLevel_class
    {parts inner : List Phrase}
    (last_eq : parts.getLast? = some (.node .classDeclaration inner)) :
    ofTopLevel (.node .declaration parts) = ofPhrase (.node .declaration parts) := by
  simp [ofTopLevel, Import.ofPhrase?, ofPhrase, ofClassPart, Field.ofParts?, Method.ofParts?,
    last_eq, Method.header?]

theorem import_eq_none
    {phrase : Phrase}
    (noImport : phrase.isA .importDeclaration = false) : Import.ofPhrase? phrase = none := by
  unfold Import.ofPhrase?
  split
  · simp [Phrase.isA, Phrase.label?] at noImport
  · rfl

/-- What is neither an import nor a class at the top of a file is kept verbatim. -/
theorem ofTopLevel_other
    {phrase : Phrase}
    (noImport : phrase.isA .importDeclaration = false)
    (noClass : ∀ parts inner, phrase = .node .declaration parts →
      parts.getLast? ≠ some (.node .classDeclaration inner)) :
    ofTopLevel phrase = .verbatim (Verbatim.ofPhrase phrase) := by
  unfold ofTopLevel
  rw [import_eq_none noImport]
  dsimp only
  split
  · next parts =>
      have noView : parts.getLast?.bind ClassDecl.view? = none := by
        rw [Option.eq_none_iff_forall_ne_some]
        intro view found
        obtain ⟨last, last_eq, viewFound⟩ := Option.bind_eq_some_iff.mp found
        obtain ⟨inner, rfl, _⟩ := ClassDecl.view?_eq_some viewFound
        exact noClass parts _ rfl last_eq
      rw [ClassDecl.ofParts?, noView]
      rfl
  · rfl

/-- What stands at the top of a file is read like a member, or is an import or kept verbatim. -/
theorem ofTopLevel_cases (phrase : Phrase) :
    ofTopLevel phrase = ofPhrase phrase ∨
      (∃ decl, Import.ofPhrase? phrase = some decl ∧ ofTopLevel phrase = .importDecl decl) ∨
      ofTopLevel phrase = .verbatim (Verbatim.ofPhrase phrase) := by
  by_cases isClass : ∃ parts inner, phrase = .node .declaration parts ∧
      parts.getLast? = some (.node .classDeclaration inner)
  · obtain ⟨parts, inner, rfl, last_eq⟩ := isClass
    exact .inl (ofTopLevel_class last_eq)
  · refine .inr ?_
    cases isImport : phrase.isA .importDeclaration with
    | true =>
        cases phrase with
        | leaf isName token => cases isImport
        | node label parts =>
            obtain rfl : label = .importDeclaration := by
              simpa [Phrase.isA, Phrase.label?] using isImport
            exact .inl ⟨_, rfl, rfl⟩
    | false =>
        exact .inr (ofTopLevel_other isImport fun parts inner same last_eq =>
          isClass ⟨parts, inner, same, last_eq⟩)

end Member

end JupiterMigration.Java

namespace JupiterMigration.SourceUnit

open Java

/-- The phrases of a source are read from its tokens. -/
theorem exists_tokens_of_phrases?
    {source : String}
    {phrases : List Phrase}
    {tail : String}
    (found : phrases? source = some (phrases, tail)) :
    ∃ tokens, Token.scan source = some (tokens, tail) ∧ readProgram tokens = some phrases := by
  unfold phrases? at found
  split at found
  · cases found
  · next tokens rest scanned =>
      split at found
      · cases found
      · next readFound =>
          cases found
          exact ⟨tokens, scanned, readFound⟩

/-- The phrases of a source are shaped, and they and the gap after them make up the source. -/
theorem phrases?_sound
    {source : String}
    {phrases : List Phrase}
    {tail : String}
    (found : phrases? source = some (phrases, tail)) :
    ShapedAll phrases ∧ Phrase.sourceOfAll phrases ++ tail = source := by
  obtain ⟨tokens, scanned, readFound⟩ := exists_tokens_of_phrases? found
  refine ⟨shaped_of_readProgram readFound, ?_⟩
  rw [Phrase.sourceOfAll, readProgram_lossless readFound]
  exact Token.scan_lossless scanned

/-- A tree is read off the phrases of its source and then numbered. -/
theorem exists_phrases_of_parse
    {source : String}
    {path : Option String}
    {next : Nat}
    {result : SourceUnit × Nat}
    (parsed : parse source path next = .ok result) :
    ∃ phrases tail, phrases? source = some (phrases, tail) ∧
      result = (numbered ⟨0, "", phrases.map Java.Member.ofTopLevel, tail, path⟩).run next := by
  unfold parse at parsed
  split at parsed
  · next unit unitRead =>
      obtain ⟨⟨phrases, tail⟩, found, rfl⟩ := Option.map_eq_some_iff.mp unitRead
      exact ⟨phrases, tail, found, (Except.ok.inj parsed).symm⟩
  · simp at parsed

end JupiterMigration.SourceUnit
