import JupiterMigration.Proofs.Grammar.FirstGap
import JupiterMigration.Proofs.Reading

/-!
# Declarations after another gap

The gap before a phrase is the lead of the declaration that it is, and plays no other part in it:
a phrase with another gap is the same declaration with another lead (`ofTopLevel_regap`).
-/

namespace JupiterMigration.Java

/-! ## What does not depend on the gap -/

namespace Phrase

theorem textOf_regap
    (gap : String)
    (phrase : Phrase)
    (back : List Token) :
    textOf ((phrase.regap gap).tokens ++ back) = textOf (phrase.tokens ++ back) := by
  match phrase with
  | .leaf isName token => rfl
  | .node label [] => rfl
  | .node label (first :: rest) =>
      rw [regap, regapAll, tokens, tokens, tokensOfAll, tokensOfAll, List.append_assoc,
        List.append_assoc]
      exact textOf_regap gap first (tokensOfAll rest ++ back)

@[simp]
theorem text_regap (gap : String) (phrase : Phrase) : (phrase.regap gap).text = phrase.text := by
  have same := textOf_regap gap phrase []
  rwa [List.append_nil, List.append_nil] at same

theorem textOf_regapAll
    (gap : String)
    (phrases : List Phrase)
    (back : List Token) :
    textOf (tokensOfAll (regapAll gap phrases) ++ back) = textOf (tokensOfAll phrases ++ back) := by
  cases phrases with
  | nil => rfl
  | cons first rest =>
      rw [regapAll, tokensOfAll, tokensOfAll, List.append_assoc, List.append_assoc]
      exact textOf_regap gap first _

@[simp]
theorem textOfAll_regapAll (gap : String) (phrases : List Phrase) :
    textOfAll (regapAll gap phrases) = textOfAll phrases := by
  have same := textOf_regapAll gap phrases []
  rwa [List.append_nil, List.append_nil] at same

@[simp]
theorem names_regap (gap : String) (skip : Label → Bool) (phrase : Phrase) :
    (phrase.regap gap).names skip = phrase.names skip := by
  match phrase with
  | .leaf isName token => rfl
  | .node label [] => rfl
  | .node label (first :: rest) =>
      rw [regap, regapAll, names, names, namesOfAll, namesOfAll, names_regap gap skip first]

@[simp]
theorem namesOfAll_regapAll (gap : String) (skip : Label → Bool) (phrases : List Phrase) :
    namesOfAll skip (regapAll gap phrases) = namesOfAll skip phrases := by
  cases phrases with
  | nil => rfl
  | cons first rest => rw [regapAll, namesOfAll, namesOfAll, names_regap]

/-- The gap of a filled phrase is the one it has been given. -/
theorem gap_regap
    {phrase : Phrase}
    (gap : String)
    (filled : Filled phrase) : (phrase.regap gap).gap = gap := by
  rw [Phrase.gap, tokens_regap gap phrase filled]
  cases tokens_eq : phrase.tokens with
  | nil => exact absurd tokens_eq filled.tokens_ne_nil
  | cons first rest => rfl

/-- A part that is looked for is found where it was, with the gap if it is the first one. -/
theorem map_find?_regapAll
    {α : Type}
    (view : Phrase → α)
    (gap : String)
    (same : ∀ phrase : Phrase, view (phrase.regap gap) = view phrase)
    (label : Label)
    (phrases : List Phrase) :
    ((regapAll gap phrases).find? (·.isA label)).map view =
      (phrases.find? (·.isA label)).map view := by
  cases phrases with
  | nil => rfl
  | cons first rest =>
      rw [regapAll, List.find?_cons, List.find?_cons, isA_regap]
      cases first.isA label with
      | true => exact congrArg some (same first)
      | false => rfl

theorem any_regapAll
    (test : Phrase → Bool)
    (gap : String)
    (same : ∀ phrase : Phrase, test (phrase.regap gap) = test phrase)
    (phrases : List Phrase) : (regapAll gap phrases).any test = phrases.any test := by
  cases phrases with
  | nil => rfl
  | cons first rest => rw [regapAll, List.any_cons, List.any_cons, same]

end Phrase

open Phrase

@[simp]
theorem nameText_regap (gap : String) (phrase : Phrase) :
    nameText (phrase.regap gap) = nameText phrase := by
  rw [nameText, nameText, text_regap]

@[simp]
theorem namesIn_regap (gap : String) (phrase : Phrase) :
    namesIn [phrase.regap gap] = namesIn [phrase] :=
  congrArg Names.ofList (namesOfAll_regapAll gap _ [phrase])

@[simp]
theorem namesOutside_regapAll (gap : String) (labels : List Label) (phrases : List Phrase) :
    namesOutside labels (regapAll gap phrases) = namesOutside labels phrases := by
  rw [namesOutside, namesOutside, namesOfAll_regapAll]

/-! ## Expressions and annotations -/

namespace Expression

@[simp]
theorem calledName_regapAll (gap : String) (parts : List Phrase) :
    calledName (regapAll gap parts) = calledName parts := by
  match parts with
  | [] => rfl
  | .leaf true token :: rest => rfl
  | .leaf false token :: rest => rfl
  | .node label inner :: rest => rfl

theorem formOfLink_regap (gap : String) (phrase : Phrase) :
    formOfLink (phrase.regap gap) = formOfLink phrase := by
  match phrase with
  | .leaf isName token => rfl
  | .node label [] => rfl
  | .node label (first :: rest) =>
      have text_eq := textOfAll_regapAll gap (first :: rest)
      have name_eq := calledName_regapAll gap (first :: rest)
      rw [regapAll] at text_eq name_eq
      rw [regap, regapAll]
      cases label <;> simp [formOfLink, text_eq, name_eq]

theorem formOf_regap (gap : String) (phrase : Phrase) :
    formOf (phrase.regap gap) = formOf phrase := by
  match phrase with
  | .leaf isName token => rfl
  | .node label [] => cases label <;> rfl
  | .node label (first :: continuation :: rest) =>
      cases label with
      | expression =>
          cases first with
          | leaf isName token => rfl
          | node inner links => cases inner <;> rfl
      | _ => rfl
  | .node label [.leaf isName token] => cases label <;> rfl
  | .node label [.node inner links] =>
      cases label with
      | expression =>
          cases inner with
          | primary =>
              match links with
              | [] => rfl
              | [link] => exact formOfLink_regap gap link
              | link :: next :: others => rfl
          | _ => rfl
      | _ => rfl

@[simp]
theorem ofPhrase_regap (gap : String) (phrase : Phrase) :
    ofPhrase (phrase.regap gap) = ofPhrase phrase := by
  rw [ofPhrase, ofPhrase, formOf_regap, text_regap, namesIn_regap]

end Expression

namespace Annotation

@[simp]
theorem argumentOf_regap (gap : String) (phrase : Phrase) :
    argumentOf (phrase.regap gap) = argumentOf phrase := by
  have plain : (⟨none, Expression.ofPhrase (phrase.regap gap)⟩ : AnnotationArgument) =
      ⟨none, Expression.ofPhrase phrase⟩ := by
    rw [Expression.ofPhrase_regap]
  match phrase with
  | .leaf isName token => rfl
  | .node label [] | .node label [first] | .node label [first, second] =>
      cases label <;> exact plain
  | .node label (key :: second :: value :: rest) =>
      cases label with
      | pair => simp [regap, regapAll, argumentOf]
      | _ => exact plain

theorem map_argumentOf_regap (gap : String) (list : Phrase) :
    (phrasesAmong (list.regap gap).parts).map argumentOf =
      (phrasesAmong list.parts).map argumentOf := by
  match list with
  | .leaf isName token => rfl
  | .node label [] => rfl
  | .node label (first :: rest) =>
      simp only [regap, regapAll, Phrase.parts, phrasesAmong, List.filter_cons, label?_regap]
      split <;> simp

@[simp]
theorem ofPhrase_regap (gap lead : String) (phrase : Phrase) :
    ofPhrase lead (phrase.regap gap) = ofPhrase lead phrase := by
  have parts_eq : (phrase.regap gap).parts = regapAll gap phrase.parts := by
    cases phrase <;> rfl
  have name_eq := map_find?_regapAll nameText gap (nameText_regap gap) .qualifiedName phrase.parts
  have arguments_eq := map_find?_regapAll (fun list => (phrasesAmong list.parts).map argumentOf)
    gap (map_argumentOf_regap gap) .arguments phrase.parts
  rw [ofPhrase, ofPhrase, parts_eq, name_eq, text_regap, namesIn_regap]
  generalize (regapAll gap phrase.parts).find? (·.isA .arguments) = list at arguments_eq ⊢
  generalize phrase.parts.find? (·.isA .arguments) = original at arguments_eq ⊢
  cases list <;> cases original <;> simp_all

@[simp]
theorem leading_regapAll (gap : String) (uses : List Phrase) :
    leading (regapAll gap uses) = leading uses := by
  cases uses with
  | nil => rfl
  | cons first rest => rw [regapAll, leading, leading, ofPhrase_regap]

end Annotation

/-! ## Declarations -/

/-- The gap is before the leading annotations or, if there are none, before what follows. -/
theorem declared_regapAll
    {parts : List Phrase}
    (gap : String)
    (filled : FilledAll parts) :
    declared (regapAll gap parts) =
      ⟨regapAll gap (declared parts).annotations,
        if (declared parts).annotations.isEmpty then regapAll gap (declared parts).rest
        else (declared parts).rest⟩ := by
  match parts with
  | [] => rfl
  | .leaf isName token :: rest => rfl
  | .node label inner :: rest =>
      cases label with
      | modifiers =>
          cases inner with
          | nil => exact absurd rfl filled.1.1
          | cons first others =>
              simp only [regapAll, regap, declared, List.takeWhile_cons, List.dropWhile_cons,
                isA_regap]
              cases first.isA .annotationUse <;> rfl
      | _ => rfl

namespace Member

mutual

/-- The gap before a class is no part of its members. -/
theorem declaredBy_regap
    (gap : String)
    (phrase : Phrase) : declaredBy (phrase.regap gap) = declaredBy phrase := by
  match phrase with
  | .leaf isName token => rfl
  | .node label parts =>
      cases label with
      | classDeclaration => exact declaredIn_regapAll gap parts
      | classBody => cases parts <;> rfl
      | _ => rfl

theorem declaredIn_regapAll
    (gap : String)
    (parts : List Phrase) : declaredIn (regapAll gap parts) = declaredIn parts := by
  match parts with
  | [] => rfl
  | first :: rest => rw [regapAll, declaredIn, declaredIn, declaredBy_regap gap first]

end

/-- An import after another gap. -/
theorem import_regap
    {phrase : Phrase}
    (gap : String)
    (filled : Filled phrase) :
    Import.ofPhrase? (phrase.regap gap) =
      (Import.ofPhrase? phrase).map fun decl => { decl with lead := gap } := by
  cases phrase with
  | leaf isName token => rfl
  | node label parts =>
      cases label with
      | importDeclaration =>
          have gap_eq := gap_regap gap filled
          have text_eq := text_regap gap (.node .importDeclaration parts)
          have name_eq := map_find?_regapAll nameText gap (nameText_regap gap) .qualifiedName parts
          have static_eq := any_regapAll
            (fun part => part.label?.isNone && part.text == "static") gap (by simp) parts
          have wildcard_eq := any_regapAll
            (fun part => part.label?.isNone && part.text == "*") gap (by simp) parts
          rw [regap] at gap_eq text_eq ⊢
          simp only [Import.ofPhrase?, gap_eq, text_eq, name_eq, static_eq, wildcard_eq,
            Option.map_some]
      | _ => rfl

end Member

/-- The gap before a bracketed phrase is the one before its opening token. -/
theorem bracketed?_regapAll (gap opening closing : String) (parts : List Phrase) :
    bracketed? opening closing (regapAll gap parts) =
      (bracketed? opening closing parts).map fun list =>
        { list with opening := { list.opening with gap } } := by
  match parts with
  | [] | .node _ _ :: _ => rfl
  | .leaf isName first :: rest =>
      simp only [regapAll, regap, bracketed?]
      split
      · split <;> rfl
      · rfl

namespace ClassDecl

theorem view?_regapAll (gap : String) (parts : List Phrase) :
    view? (.node .classDeclaration (regapAll gap parts)) =
      (view? (.node .classDeclaration parts)).map fun view =>
        if view.front = [] then
          { view with body := { view.body with opening := { view.body.opening with gap } } }
        else { view with front := regapAll gap view.front } := by
  have name_eq := Expression.calledName_regapAll gap parts
  have references_eq := namesOutside_regapAll gap [.modifiers, .classBody] parts
  match parts with
  | [] | [.leaf _ _] => rfl
  | [.node label inner] =>
      simp only [regapAll, regap] at name_eq references_eq
      cases label with
      | classBody =>
          simp only [regap, regapAll, view?, List.getLast?_singleton, bracketed?_regapAll,
            name_eq, references_eq, Option.map_map]
          rfl
      | _ => rfl
  | first :: second :: rest =>
      simp only [regapAll] at name_eq references_eq
      simp only [regapAll, view?, List.getLast?_cons_cons, List.dropLast_cons_cons, name_eq,
        references_eq]
      split
      · rw [Option.map_map]
        rfl
      · rfl

theorem dropLast_regapAll (gap : String) (parts : List Phrase) :
    (regapAll gap parts).dropLast = regapAll gap parts.dropLast := by
  match parts with
  | [] | [_] | _ :: _ :: _ => rfl

/-- The text after the leading annotations does not depend on the gap of the declaration. -/
theorem textAfter_regapAll
    {parts : List Phrase}
    (gap : String)
    (filled : FilledAll parts)
    (back : List Token) :
    (declared (regapAll gap parts)).textAfter
        (tokensOfAll (declared (regapAll gap parts)).rest.dropLast ++ back) =
      (declared parts).textAfter (tokensOfAll (declared parts).rest.dropLast ++ back) := by
  rw [declared_regapAll gap filled]
  generalize declared parts = decl
  cases annotations_eq : decl.annotations with
  | nil =>
      simp only [Declared.textAfter, annotations_eq, regapAll, List.isEmpty_nil, if_true,
        dropLast_regapAll, textOf_regapAll]
  | cons first others => simp [Declared.textAfter, annotations_eq, regapAll]

/-- A class after another gap. -/
theorem ofParts?_regapAll
    {parts : List Phrase}
    (gap : String)
    (filled : FilledAll parts)
    (lead : String)
    (members : List JupiterMigration.Member) :
    ofParts? gap (regapAll gap parts) members =
      (ofParts? lead parts members).map (·.withLead gap) := by
  have text_eq := textAfter_regapAll gap filled
  have annotations_eq : (declared (regapAll gap parts)).annotations =
      regapAll gap (declared parts).annotations := by
    rw [declared_regapAll gap filled]
  unfold ofParts?
  dsimp only
  simp only [tokensOfAll_append, List.append_assoc, text_eq, annotations_eq,
    Annotation.leading_regapAll]
  match parts with
  | [] | [.leaf _ _] => rfl
  | [.node label inner] =>
      cases label with
      | classDeclaration =>
          simp only [regapAll, regap, List.getLast?_singleton, Option.bind_some, view?_regapAll]
          cases view? (.node .classDeclaration inner) with
          | none => rfl
          | some view =>
              simp only [declared, Option.map_some, Declared.textAfter, List.isEmpty_nil, if_true,
                List.dropLast_singleton, tokensOfAll, List.nil_append]
              split
              · next none => simp [none, tokensOfAll, textOf, sourceOf, Member.withLead]
              · simp [textOf_regapAll, Member.withLead]
      | _ => rfl
  | first :: second :: rest =>
      simp only [regapAll, List.getLast?_cons_cons]
      cases (second :: rest).getLast?.bind view? <;> rfl

end ClassDecl

namespace Member

/-- What stands at the top of a file, after another gap. -/
theorem ofTopLevel_regap
    {phrase : Phrase}
    (gap : String)
    (filled : Filled phrase) :
    ofTopLevel (phrase.regap gap) = (ofTopLevel phrase).withLead gap := by
  have verbatim_eq : .verbatim (Verbatim.ofPhrase (phrase.regap gap)) =
      (JupiterMigration.Member.verbatim (Verbatim.ofPhrase phrase)).withLead gap := by
    rw [Verbatim.ofPhrase, Verbatim.ofPhrase, gap_regap gap filled, text_regap, namesIn_regap]
    rfl
  have gap_eq := gap_regap gap filled
  unfold ofTopLevel
  rw [import_regap gap filled]
  cases Import.ofPhrase? phrase with
  | some decl => rfl
  | none =>
      cases phrase with
      | leaf isName token => exact verbatim_eq
      | node label parts =>
          cases label with
          | declaration =>
              simp only [regap] at gap_eq verbatim_eq
              simp only [Option.map_none, regap, gap_eq, declaredIn_regapAll,
                ClassDecl.ofParts?_regapAll gap filled.2 (Phrase.node .declaration parts).gap,
                verbatim_eq]
              cases ClassDecl.ofParts? _ parts (declaredIn parts) <;> rfl
          | _ => exact verbatim_eq

end Member

end JupiterMigration.Java
