import JupiterMigration.Proofs.Grammar.Opening
import JupiterMigration.Proofs.Tokens.Apart
import JupiterMigration.Proofs.Usage
import JupiterMigration.Template

/-!
# Snippets that open like a method

A snippet is read inside a class.  If it opens like a method without a result, the first tokens of
the class are known (`Java.apart_opening`), and the grammar leaves no choice but to read a class
whose first member is that method (`phrases_of_opening`).  So the snippet is read as a method with
the given name (`Snippet.method_of_readMember`).

Shifting does not change the first line of a snippet (`Layout.shift_append`), so the same goes for a
snippet that is made from a template with such an opening.
-/

namespace JupiterMigration

namespace Java

/-- A method without a result and with parameters that are read is read as such. -/
theorem Member.ofPhrase_void
    {parts list back : List Phrase}
    {void name : Token}
    {bracketed : Bracketed}
    {parameters : List JupiterMigration.Parameter}
    (last_eq : parts.getLast? = some (.node .methodDeclaration (.node .type [.leaf false void] ::
      .leaf true name :: .node .parameters list :: back)))
    (found : bracketed? "(" ")" list = some bracketed)
    (listed : Parameter.ofList bracketed.closing bracketed.inner = some parameters) :
    ∃ decl, ofPhrase (.node .declaration parts) = .method decl ∧ decl.name = name.text ∧
      decl.returnType = some void.text ∧ decl.parameters = parameters ∧
      decl.body = (Method.splitBody back).2.map Block.ofBraced := by
  have header_eq : Method.header? (.node .methodDeclaration (.node .type [.leaf false void] ::
      .leaf true name :: .node .parameters list :: back)) =
      some ⟨[], some (.node .type [.leaf false void]), name, bracketed, (Method.splitBody back).1,
        (Method.splitBody back).2⟩ := by
    simp [Method.header?, Method.headerFrom?, found, Phrase.isA, Phrase.label?]
  simp only [ofPhrase, ofClassPart, Field.ofParts?, Method.ofParts?, last_eq, header_eq, listed]
  refine ⟨_, rfl, rfl, ?_, rfl, rfl⟩
  exact congrArg some (String.append_empty (s := void.text))

/-- The phrase of a method without a result is read as a method with its name. -/
theorem Member.ofPhrase_methodPhrase
    {modifier void name : Token}
    {list back : List Phrase}
    (shaped : Shaped (methodPhrase modifier void name list back)) :
    ∃ decl, ofPhrase (methodPhrase modifier void name list back) = .method decl ∧
      decl.name = name.text ∧ decl.returnType = some void.text := by
  obtain ⟨-, -, methodShaped, -⟩ := shaped
  obtain ⟨-, -, -, listShaped, -⟩ := methodShaped
  obtain ⟨bracketed, found, separated, -⟩ := bracketed?_of_enclosed listShaped.1
  obtain ⟨parameters, listed, -⟩ := Method.read_parameters bracketed.closing separated
  have last_eq (first last : Phrase) : [first, last].getLast? = some last := rfl
  obtain ⟨decl, read_eq, name_eq, isVoid, -⟩ :=
    ofPhrase_void (last_eq (.node .modifiers [.leaf false modifier]) _) found listed
  exact ⟨decl, read_eq, name_eq, isVoid⟩

/-- The tokens of an opening stand apart, whatever follows. -/
theorem apart_opening
    {name : String}
    (spelled : isWord name = true)
    (rest : List Char) : Apart rest (opening name) := by
  have glued : IsGap "" := isGap_of_spaces rfl
  have spaced : IsGap " " := isGap_of_spaces rfl
  have onNewLine : IsGap "\n" := isGap_of_spaces rfl
  have atSpace (more : List Char) :
      (" ".toList ++ more).head?.any Text.isNameContinue = false := rfl
  exact ⟨glued, rfl, spaced, rfl, spaced, rfl, onNewLine, rfl, spaced,
    Token.standsApart_word (by decide) (atSpace _), spaced, Token.standsApart_word spelled rfl,
    glued, Token.standsApart_lone rfl rfl rest, trivial⟩

/-- The class of an opening is read as one whose first member is the method. -/
theorem Member.class?_classPhrase
    {keyword name first last : Token}
    {member : Phrase}
    {members : List Phrase}
    (shaped : Shaped (classPhrase keyword name first last (member :: members))) :
    ∃ head, (ofTopLevel (classPhrase keyword name first last (member :: members))).class? =
      some ⟨head, ofPhrase member :: members.map ofPhrase⟩ := by
  obtain ⟨view, viewFound, -, parts_eq⟩ := ClassDecl.exists_view? shaped.2.1
  obtain ⟨head, read_eq, -⟩ := ofPhrase_class (by simpa using viewFound) shaped
  have inner_eq : view.body.inner = member :: members := by
    have last_eq := congrArg List.getLast? parts_eq
    simp only [List.getLast?_cons_cons, List.getLast?_singleton, List.getLast?_concat,
      Option.some.injEq, Phrase.node.injEq, true_and, List.cons.injEq] at last_eq
    exact (List.append_inj' last_eq.2 rfl).1.symm
  refine ⟨head, ?_⟩
  rw [classPhrase, ofTopLevel_class List.getLast?_singleton, read_eq, inner_eq]
  rfl

end Java

namespace Snippet

open Java

variable {name rest : String}

/-- The class around a snippet that opens like a method begins with the tokens of an opening. -/
theorem toList_inClass (name rest : String) :
    (inClass ("public void " ++ name ++ "(" ++ rest)).toList =
      textBefore (rest ++ "\n\x7d\n").toList (opening name) := by
  have ofClass : "class __Synthesized__ \x7b\n".toList =
      "".toList ++ ("class".toList ++ (" ".toList ++ ("__Synthesized__".toList ++
        (" ".toList ++ ("\x7b".toList ++ "\n".toList))))) := rfl
  have ofMethod : "public void ".toList =
      "public".toList ++ (" ".toList ++ ("void".toList ++ " ".toList)) := rfl
  unfold inClass textBefore opening
  rw [String.toList_append, String.toList_append, String.toList_append, String.toList_append,
    String.toList_append, String.toList_append, ofClass, ofMethod]
  simp only [List.append_assoc]
  rfl

/-- The class around a snippet that opens like a method has the method as its first member. -/
theorem phrases_of_method
    {phrases : List Phrase}
    {tail : String}
    (spelled : isWord name = true)
    (found : SourceUnit.phrases? (inClass ("public void " ++ name ++ "(" ++ rest)) =
      some (phrases, tail)) :
    ∃ keyword className first last list back members others,
      phrases = classPhrase keyword className first last
        (methodPhrase ⟨"\n", "public", .word⟩ ⟨" ", "void", .word⟩ ⟨" ", name, .word⟩ list back ::
          members) :: others := by
  have begins := begins_of_apart (apart_opening spelled (rest ++ "\n\x7d\n").toList)
  have scan_eq : Token.scan (inClass ("public void " ++ name ++ "(" ++ rest)) =
      scanFrom [] (inClass ("public void " ++ name ++ "(" ++ rest)).toList := by
    unfold Token.scan
    rw [toList_inClass]
    rfl
  rw [← toList_inClass] at begins
  obtain ⟨tokens, scanned, readFound⟩ := SourceUnit.exists_tokens_of_phrases? found
  obtain ⟨more, rfl, -⟩ := begins.tokens_eq (scan_eq ▸ scanned)
  exact phrases_of_opening readFound

/-- A snippet that opens like a method without a result is one. -/
theorem method_of_readMember
    {member : Member}
    (spelled : isWord name = true)
    (read : readMember ("public void " ++ name ++ "(" ++ rest) = .ok member) :
    ∃ decl, member = .method decl ∧ decl.name = name ∧ decl.returnType = some "void" := by
  unfold readMember readClass SourceUnit.read? at read
  cases found : SourceUnit.phrases? (inClass ("public void " ++ name ++ "(" ++ rest)) with
  | none =>
      rw [found] at read
      cases read
  | some result =>
      obtain ⟨phrases, tail⟩ := result
      have shaped := (SourceUnit.phrases?_sound found).1
      obtain ⟨keyword, className, first, last, list, back, members, others, rfl⟩ :=
        phrases_of_method spelled found
      obtain ⟨head, class_eq⟩ := Member.class?_classPhrase shaped.1
      rw [found] at read
      simp only [Option.map_some, List.map_cons, List.filterMap_cons_some class_eq] at read
      have methodShaped : Shaped (methodPhrase _ _ _ list back) := shaped.1.2.1.2.2.2.1.2.2.1
      obtain ⟨decl, decl_eq, named⟩ := Member.ofPhrase_methodPhrase methodShaped
      generalize (others.map Member.ofTopLevel).filterMap Member.class? = otherClasses at read
      cases otherClasses with
      | cons => cases read
      | nil =>
          cases members with
          | cons => cases read
          | nil =>
              refine ⟨decl, ?_, named⟩
              cases read
              exact decl_eq

end Snippet

/-! ## Rendered and shifted templates -/

namespace Layout

/-- Shifting does not change the first line. -/
theorem shiftChars_append
    {front : List Char}
    (oneLine : '\n' ∉ front)
    (indent back : List Char) :
    shiftChars indent (front ++ back) = front ++ shiftChars indent back := by
  induction front with
  | nil => rfl
  | cons first rest inductionHypothesis =>
      rw [List.mem_cons, not_or] at oneLine
      rw [List.cons_append, shiftChars, inductionHypothesis oneLine.2, List.cons_append]
      rintro c others ⟨rfl, -⟩
      exact absurd rfl oneLine.1

theorem shift_append
    {front : String}
    (oneLine : '\n' ∉ front.toList)
    (back indent : String) : shift (front ++ back) indent = front ++ shift back indent := by
  unfold shift
  rw [String.toList_append, shiftChars_append oneLine, String.ofList_append, String.ofList_toList]

end Layout

namespace Template

theorem bindAll_cons
    {first : Value}
    {rest : List Value}
    {texts : List String}
    (bound : Value.bindAll (first :: rest) = .ok texts) :
    ∃ text others, Value.bind first = .ok text ∧ Value.bindAll rest = .ok others ∧
      texts = text :: others := by
  rw [Value.bindAll] at bound
  cases head_eq : Value.bind first with
  | error error =>
      rw [head_eq] at bound
      cases bound
  | ok text =>
      rw [head_eq] at bound
      cases tail_eq : Value.bindAll rest with
      | error error =>
          rw [tail_eq] at bound
          cases bound
      | ok others =>
          rw [tail_eq] at bound
          cases bound
          exact ⟨text, others, rfl, rfl, rfl⟩

theorem bindAll_texts (items : List String) : Value.bindAll (items.map .text) = .ok items := by
  induction items with
  | nil => rfl
  | cons first rest inductionHypothesis =>
      rw [List.map_cons, Value.bindAll, inductionHypothesis]
      rfl

theorem weave_cons (piece text : String) (pieces texts : List String) :
    weave (piece :: pieces) (text :: texts) = piece ++ text ++ weave pieces texts := rfl

theorem weave_nil (piece : String) : weave [piece] [] = piece := by
  rw [weave, String.join_cons, String.join_nil, String.append_empty]
  rintro _ _ _ _ - ⟨⟩

/-- A template with a placeholder for each of some texts is rendered. -/
theorem render_texts
    {template : String}
    {pieces : List String}
    (items : List String)
    (split_eq : Text.splitOn template placeholder = pieces)
    (count : pieces.length = items.length + 1) :
    render template (items.map .text) = .ok (weave pieces items) := by
  unfold render
  rw [split_eq, bindAll_texts]
  simp [count, bind, Except.bind, pure, Except.pure]

/-- A rendered template is woven from its pieces and the texts of the values. -/
theorem weave_of_render
    {template : String}
    {values : List Value}
    {text : String}
    (rendered : render template values = .ok text) :
    ∃ texts, Value.bindAll values = .ok texts ∧
      text = weave (Text.splitOn template placeholder) texts := by
  unfold render at rendered
  dsimp only at rendered
  split at rendered
  · cases rendered
  · cases texts_eq : Value.bindAll values with
    | error error =>
        rw [texts_eq] at rendered
        cases rendered
    | ok texts =>
        rw [texts_eq] at rendered
        cases rendered
        exact ⟨texts, rfl, rfl⟩

end Template

end JupiterMigration
