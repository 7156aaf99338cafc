import JupiterMigration.Proofs.Grammar.Written
import JupiterMigration.Proofs.Naming
import JupiterMigration.Proofs.Numbering.Erasure
import JupiterMigration.Proofs.Printing
import JupiterMigration.Proofs.Usage

/-!
# What a tree shows of the types it names

A class literal in an annotation names its type in the text of the annotation.  If the type is a
plain name, the annotation mentions the name; so does a field whose type is one.  This holds of all
nodes of a file that has been read (`SourceUnit.showsTypes_of_parse`).
-/

namespace JupiterMigration

/-! ## Texts within texts -/

namespace Text

theorem occursIn_append (front part back : List Char) :
    occursIn part (front ++ part ++ back) = true := by
  induction front with
  | nil =>
      cases part with
      | nil => cases back <;> rfl
      | cons c rest => simp [occursIn]
  | cons c rest inductionHypothesis =>
      rw [List.cons_append, List.cons_append, occursIn, inductionHypothesis, Bool.or_true]

theorem contains_append (front part back : String) :
    contains (front ++ part ++ back) part = true := by
  unfold contains
  rw [String.toList_append, String.toList_append]
  exact occursIn_append _ _ _

end Text

namespace Java

/-- A phrase that stands within another one: its tokens stand there in a row. -/
structure Within (part whole : Phrase) : Prop where
  tokens : part.tokens <:+: whole.tokens
  names : part.allNames ⊆ whole.allNames

namespace Within

theorem trans
    {first second third : Phrase}
    (inner : Within first second)
    (outer : Within second third) : Within first third :=
  ⟨inner.tokens.trans outer.tokens, List.Subset.trans inner.names outer.names⟩

theorem of_mem
    {part : Phrase}
    {parts : List Phrase}
    (inside : part ∈ parts)
    (label : Label) : Within part (.node label parts) := by
  obtain ⟨front, back, rfl⟩ := List.append_of_mem inside
  constructor
  · rw [Phrase.tokens_node, Phrase.tokensOfAll_append, Phrase.tokensOfAll_cons]
    exact ⟨_, _, List.append_assoc _ _ _⟩
  · intro name isName
    rw [Phrase.allNames_node, Phrase.mem_allNamesOf]
    exact ⟨part, inside, isName⟩

theorem of_mem_parts
    {part whole : Phrase}
    (inside : part ∈ whole.parts) : Within part whole := by
  cases whole with
  | leaf isName token => cases inside
  | node label parts => exact of_mem inside label

/-- The text of a phrase occurs in that of the phrase around it. -/
theorem contains_text
    {part whole : Phrase}
    (within : Within part whole) : Text.contains whole.text part.text = true := by
  obtain ⟨front, back, tokens_eq⟩ := within.tokens
  unfold Phrase.text
  rw [← tokens_eq]
  cases part_eq : part.tokens with
  | nil => exact Text.contains_append "" "" _
  | cons first rest =>
      cases front with
      | nil =>
          rw [List.nil_append, textOf_append (List.cons_ne_nil _ _)]
          exact Text.contains_append "" _ _
      | cons head others =>
          rw [List.append_assoc, textOf_append (List.cons_ne_nil _ _), sourceOf_append,
            sourceOf_eq_gapOf_append_textOf (first :: rest), ← String.append_assoc,
            ← String.append_assoc]
          exact Text.contains_append _ _ _

end Within

/-! ## Types that are a single name -/

/-- A name that cannot be mistaken for a longer type, nor for a primitive one. -/
def isPlainName (name : String) : Bool :=
  typeMarks.all (fun mark => !Text.contains name mark) && !Category.primitiveWords.contains name

/-- A type whose text is a plain name uses the name. -/
theorem mem_names_of_type
    {skip : Label → Bool}
    {phrase : Phrase}
    (counts : skip .type = false)
    (isType : phrase.isA .type = true)
    (written : Written phrase)
    (plain : isPlainName phrase.text = true) : phrase.text ∈ phrase.names skip := by
  cases phrase with
  | leaf isName token => cases isType
  | node label parts =>
      obtain rfl : label = .type := by simpa [Phrase.isA, Phrase.label?] using isType
      obtain ⟨category, isWriter, derived⟩ := written.1 (List.cons_ne_nil _ _)
      obtain ⟨isName, first, rest, rfl, kind, opens⟩ := type_parts isWriter derived
      have text_eq : (Phrase.node .type (.leaf isName first :: rest)).text =
          first.text ++ sourceOf (Phrase.tokensOfAll rest) := rfl
      simp only [isPlainName, Bool.and_eq_true, List.all_eq_true, Bool.not_eq_true',
        List.contains_eq_mem, decide_eq_false_iff_not] at plain
      have alone : Phrase.tokensOfAll rest = [] := by
        cases rest_eq : Phrase.tokensOfAll rest with
        | nil => rfl
        | cons mark others =>
            have noMark := plain.1 mark.text (opens mark others rest_eq)
            rw [text_eq, rest_eq, sourceOf_cons, ← String.append_assoc, ← String.append_assoc,
              Text.contains_append] at noMark
            cases noMark
      have name_eq : (Phrase.node .type (.leaf isName first :: rest)).text = first.text := by
        rw [text_eq, alone]
        exact String.append_empty
      rw [name_eq] at plain ⊢
      rw [kind.resolve_right plain.2]
      simp [Phrase.names, Phrase.namesOfAll, counts]

/-! ## Annotations and fields -/

theorem written_of_mem_parts
    {part whole : Phrase}
    (written : Written whole)
    (inside : part ∈ whole.parts) : Written part := by
  cases whole with
  | leaf isName token => cases inside
  | node label parts => exact writtenAll_iff.mp written.2 part inside

/-- The last link of an expression is a class literal if the expression is one. -/
theorem exists_of_formOf
    {phrase : Phrase}
    {type : String}
    (isLiteral : Expression.formOf phrase = .classLiteral type) :
    ∃ links last, phrase = .node .expression [.node .primary links] ∧
      .node .classLiteral last ∈ links ∧ type = (last.head?.map Phrase.text).getD "" := by
  unfold Expression.formOf at isLiteral
  split at isLiteral
  · next links =>
      split at isLiteral
      · next last last_eq =>
          refine ⟨links, ?_⟩
          unfold Expression.formOfLink at isLiteral
          split at isLiteral
          · next isName token =>
              unfold Expression.formOfToken at isLiteral
              split at isLiteral
              · split at isLiteral <;> cases isLiteral
              · cases isLiteral
              · split at isLiteral <;> cases isLiteral
              · cases isLiteral
          · next label parts =>
              split at isLiteral <;> cases isLiteral
              exact ⟨parts, rfl, List.mem_of_getLast? last_eq, rfl⟩
      · cases isLiteral
  · unfold Expression.formOfRow at isLiteral
    split at isLiteral
    · cases isLiteral
    · split at isLiteral
      · cases isLiteral
      · split at isLiteral <;> cases isLiteral
  · cases isLiteral

/-- The class literal that an expression is names a type in the expression. -/
theorem exists_of_classType?
    {phrase : Phrase}
    {type : String}
    (written : Written phrase)
    (isLiteral : (Expression.ofPhrase phrase).classType? = some type) :
    ∃ part, Within part phrase ∧ Written part ∧ part.isA .type = true ∧ part.text = type := by
  have form_eq : Expression.formOf phrase = .classLiteral type := by
    unfold Expression.classType? at isLiteral
    split at isLiteral
    · next named form_eq =>
        cases isLiteral
        exact form_eq
    · cases isLiteral
  obtain ⟨links, last, rfl, isLink, rfl⟩ := exists_of_formOf form_eq
  have linkWritten := writtenAll_iff.mp written.2.1.2 _ isLink
  obtain ⟨part, rest, rfl, isType⟩ := linkWritten.1
  have inLink := Within.of_mem (List.mem_cons_self : part ∈ part :: rest) .classLiteral
  have inPrimary := inLink.trans (Within.of_mem isLink .primary)
  exact ⟨part, inPrimary.trans (.of_mem (List.mem_singleton_self _) .expression),
    linkWritten.2.1, isType, rfl⟩

/-- An argument of an annotation is an expression in the annotation. -/
theorem exists_of_mem_arguments
    {phrase : Phrase}
    {lead : String}
    {argument : AnnotationArgument}
    (written : Written phrase)
    (inside : argument ∈ ( Annotation.ofPhrase lead phrase).arguments) :
    ∃ value, Within value phrase ∧ Written value ∧ argument.value = Expression.ofPhrase value := by
  unfold Annotation.ofPhrase at inside
  dsimp only at inside
  split at inside
  · next list found =>
      obtain ⟨part, among, rfl⟩ := List.mem_map.mp inside
      have isPart : part ∈ list.parts := List.mem_of_mem_filter among
      have isList := List.mem_of_find?_eq_some found
      have listWithin := Within.of_mem_parts isList
      have partWithin := (Within.of_mem_parts isPart).trans listWithin
      have partWritten := written_of_mem_parts (written_of_mem_parts written isList) isPart
      unfold Annotation.argumentOf
      split
      · next key sign value more =>
          have isValue : value ∈ key :: sign :: value :: more := by simp
          exact ⟨value, (Within.of_mem isValue .pair).trans partWithin,
            writtenAll_iff.mp partWritten.2 value isValue, rfl⟩
      · exact ⟨part, partWithin, partWritten, rfl⟩
  · cases inside

end Java

/-- What a node shows of the types that it names. -/
def Node.ShowsTypes : Node → Prop
  | .annotationUse use => ∀ argument ∈ use.arguments, ∀ type,
      argument.value.classType? = some type → Text.contains use.text type = true ∧
        (Java.isPlainName type = true → type ∈ use.references)
  | .member (.field decl) => Java.isPlainName decl.type = true → decl.type ∈ decl.references
  | _ => True

namespace Java

theorem showsTypes_annotation
    {phrase : Phrase}
    (written : Written phrase)
    (lead : String) : (Node.annotationUse ( Annotation.ofPhrase lead phrase)).ShowsTypes := by
  intro argument inside type isLiteral
  obtain ⟨value, within, valueWritten, value_eq⟩ := exists_of_mem_arguments written inside
  rw [value_eq] at isLiteral
  obtain ⟨part, partWithin, partWritten, isType, rfl⟩ :=
    exists_of_classType? valueWritten isLiteral
  have inAnnotation := partWithin.trans within
  refine ⟨ inAnnotation.contains_text, fun plain => mem_namesIn_singleton.mpr ?_⟩
  exact inAnnotation.names (mem_names_of_type rfl isType partWritten plain)

theorem showsTypes_field
    {lead : String}
    {parts : List Phrase}
    {field : JupiterMigration.Field}
    (written : WrittenAll parts)
    (found : Field.ofParts? lead parts = some field) :
    (Node.member (.field field)).ShowsTypes := by
  unfold Field.ofParts? at found
  split at found
  · next inner last_eq =>
      cases found
      have fieldWritten := writtenAll_iff.mp written _ (List.mem_of_getLast? last_eq)
      obtain ⟨category, isWriter, derived⟩ := fieldWritten.1 (List.cons_ne_nil _ _)
      obtain rfl := List.mem_singleton.mp isWriter
      obtain ⟨_, same, derivedInner⟩ := derived.of_call.of_node
      cases same
      obtain ⟨_, back, rfl, derivedType, -⟩ := derivedInner.of_seq
      obtain ⟨type, rfl, -⟩ := derivedType.of_call.of_node
      intro plain
      have named : (Phrase.node .type type).text ∈
          (Phrase.node .type type).names [Label.modifiers].contains :=
        mem_names_of_type rfl rfl fieldWritten.2.1 plain
      exact mem_namesOutside.mpr (List.mem_append_left _ named)
  · cases found

/-- A node that has been read shows its types if the declaration it belongs to does. -/
theorem showsTypes_of_mem_walk
    {member : JupiterMigration.Member}
    (own : (Node.member member).ShowsTypes)
    (uses : ∀ use ∈ member.annotations, (Node.annotationUse use).ShowsTypes)
    (inner : ∀ head members, member = .classDecl head members →
      ∀ node ∈ JupiterMigration.Member.walkAll members, node.ShowsTypes) :
    ∀ node ∈ member.walk, node.ShowsTypes := by
  intro node inside
  cases member with
  | importDecl decl | verbatim decl =>
      obtain rfl := List.mem_singleton.mp inside
      trivial
  | field decl =>
      cases inside with
      | head => exact own
      | tail _ below =>
          obtain ⟨use, isUse, rfl⟩ := List.mem_map.mp below
          exact uses use isUse
  | method decl =>
      rw [JupiterMigration.Member.walk, List.mem_cons, Method.walkBelow, List.mem_append,
        List.mem_append] at inside
      obtain rfl | (isUse | isParameter) | isBody := inside
      · trivial
      · obtain ⟨use, among, rfl⟩ := List.mem_map.mp isUse
        exact uses use among
      · obtain ⟨parameter, -, rfl⟩ := List.mem_map.mp isParameter
        trivial
      · cases body_eq : decl.body with
        | none =>
            rw [body_eq] at isBody
            cases isBody
        | some block =>
            rw [body_eq] at isBody
            cases isBody with
            | head => trivial
            | tail _ isStatement =>
                obtain ⟨statement, -, rfl⟩ := List.mem_map.mp isStatement
                trivial
  | classDecl head members =>
      rw [JupiterMigration.Member.walk, List.mem_cons, List.mem_append] at inside
      obtain rfl | isUse | below := inside
      · trivial
      · obtain ⟨use, among, rfl⟩ := List.mem_map.mp isUse
        exact uses use among
      · exact inner head members rfl node below

theorem showsTypes_leading
    {uses : List Phrase}
    (written : WrittenAll uses) :
    ∀ use ∈ Annotation.leading uses, (Node.annotationUse use).ShowsTypes := by
  cases uses with
  | nil => exact fun _ none => absurd none List.not_mem_nil
  | cons first rest =>
      intro use inside
      rw [ Annotation.leading] at inside
      cases inside with
      | head => exact showsTypes_annotation written.1 ""
      | tail _ later =>
          obtain ⟨phrase, isLater, rfl⟩ := List.mem_map.mp later
          exact showsTypes_annotation (writtenAll_iff.mp written.2 phrase isLater) phrase.gap

theorem written_declared
    {parts : List Phrase}
    (written : WrittenAll parts) : WrittenAll (declared parts).annotations := by
  unfold declared
  split
  · next modifiers rest =>
      refine writtenAll_iff.mpr fun phrase inside => ?_
      exact writtenAll_iff.mp written.1.2 phrase (List.takeWhile_subset _ inside)
  · trivial

theorem Field.annotations_of_ofParts?
    {lead : String}
    {parts : List Phrase}
    {field : JupiterMigration.Field}
    (found : ofParts? lead parts = some field) :
    field.annotations = Annotation.leading (declared parts).annotations := by
  unfold ofParts? at found
  split at found
  · cases found
    rfl
  · cases found

theorem Method.annotations_of_ofParts?
    {lead : String}
    {parts : List Phrase}
    {method : JupiterMigration.Method}
    (found : ofParts? lead parts = some method) :
    method.annotations = Annotation.leading (declared parts).annotations := by
  unfold ofParts? at found
  split at found
  · cases found
  · split at found
    · cases found
    · split at found
      · cases found
      · cases found
        rfl

theorem ClassDecl.annotations_of_ofParts?
    {lead : String}
    {parts : List Phrase}
    {members : List JupiterMigration.Member}
    {member : JupiterMigration.Member}
    (found : ofParts? lead parts members = some member) :
    member.annotations = Annotation.leading (declared parts).annotations := by
  obtain ⟨view, -, rfl⟩ := Option.map_eq_some_iff.mp found
  rfl

namespace Member

/-- A member has the leading annotations of its phrase, or none. -/
theorem annotations_ofPhrase (phrase : Phrase) :
    (ofPhrase phrase).annotations = [] ∨ ∃ parts, phrase = .node .declaration parts ∧
      (ofPhrase phrase).annotations = Annotation.leading (declared parts).annotations := by
  cases phrase with
  | leaf isName token => exact .inl rfl
  | node label parts =>
      rw [ofPhrase]
      unfold ofClassPart
      split
      · next declarationParts node_eq =>
          cases node_eq
          split
          · next field found => exact .inr ⟨parts, rfl, Field.annotations_of_ofParts? found⟩
          · split
            · next method found => exact .inr ⟨parts, rfl, Method.annotations_of_ofParts? found⟩
            · cases found : ClassDecl.ofParts? (Phrase.node .declaration parts).gap parts
                  (declaredIn parts) with
              | none => exact .inl rfl
              | some member => exact .inr ⟨parts, rfl, ClassDecl.annotations_of_ofParts? found⟩
      · exact .inl rfl

/-- A field is read from a declaration. -/
theorem exists_of_ofPhrase_field
    {phrase : Phrase}
    {field : JupiterMigration.Field}
    (read_eq : ofPhrase phrase = .field field) :
    ∃ lead parts, phrase = .node .declaration parts ∧ Field.ofParts? lead parts = some field := by
  cases phrase with
  | leaf isName token => cases read_eq
  | node label parts =>
      rw [ofPhrase] at read_eq
      unfold ofClassPart at read_eq
      split at read_eq
      · next declarationParts node_eq =>
          cases node_eq
          split at read_eq
          · next found =>
              cases read_eq
              exact ⟨_, parts, rfl, found⟩
          · split at read_eq
            · cases read_eq
            · cases found : ClassDecl.ofParts? (Phrase.node .declaration parts).gap parts
                  (declaredIn parts) with
              | none =>
                  rw [found] at read_eq
                  cases read_eq
              | some member =>
                  obtain ⟨view, -, rfl⟩ := Option.map_eq_some_iff.mp found
                  rw [found] at read_eq
                  cases read_eq
      · cases read_eq

/-- A class is read from a declaration, and its members from what stands in its body. -/
theorem exists_of_ofPhrase_classDecl
    {phrase : Phrase}
    {head : ClassHead}
    {members : List JupiterMigration.Member}
    (shaped : Shaped phrase)
    (read_eq : ofPhrase phrase = .classDecl head members) :
    ∃ parts view, phrase = .node .declaration parts ∧
      parts.getLast?.bind ClassDecl.view? = some view ∧
      members = view.body.inner.map ofPhrase := by
  by_cases noClass : ∀ parts, phrase = .node .declaration parts →
      parts.getLast?.bind ClassDecl.view? = none
  · have none := class?_ofPhrase noClass
    rw [read_eq] at none
    cases none
  · simp only [not_forall] at noClass
    obtain ⟨parts, rfl, isClass⟩ := noClass
    obtain ⟨view, found⟩ := Option.ne_none_iff_exists'.mp isClass
    obtain ⟨_, class_eq, -⟩ := ofPhrase_class found shaped
    rw [class_eq] at read_eq
    cases read_eq
    exact ⟨parts, view, rfl, found, rfl⟩

/-- The members of a written class body are written. -/
theorem written_of_view
    {parts : List Phrase}
    {view : ClassDecl.View}
    {part : Phrase}
    (found : parts.getLast?.bind ClassDecl.view? = some view)
    (written : WrittenAll parts)
    (inside : part ∈ view.body.inner) : Written part := by
  obtain ⟨last, last_eq, viewFound⟩ := Option.bind_eq_some_iff.mp found
  obtain ⟨inner, rfl, bodyFound⟩ := ClassDecl.view?_eq_some viewFound
  have classWritten := writtenAll_iff.mp written _ (List.mem_of_getLast? last_eq)
  have bodyWritten := (writtenAll_append.mp classWritten.2).2.1
  exact writtenAll_iff.mp bodyWritten.2 part (bracketed?_inner_subset bodyFound inside)

/-- All nodes of a member show the types that they name. -/
theorem showsTypes_ofPhrase
    (phrase : Phrase)
    (shaped : Shaped phrase)
    (written : Written phrase) : ∀ node ∈ (ofPhrase phrase).walk, node.ShowsTypes := by
  refine showsTypes_of_mem_walk ?_ ?_ ?_
  · cases read_eq : ofPhrase phrase with
    | field field =>
        obtain ⟨lead, parts, rfl, found⟩ := exists_of_ofPhrase_field read_eq
        exact showsTypes_field written.2 found
    | _ => trivial
  · cases annotations_ofPhrase phrase with
    | inl none =>
        rw [none]
        exact fun _ inside => absurd inside List.not_mem_nil
    | inr some =>
        obtain ⟨parts, rfl, annotations_eq⟩ := some
        rw [annotations_eq]
        exact showsTypes_leading (written_declared written.2)
  · intro head members read_eq node inside
    obtain ⟨parts, view, phrase_eq, found, rfl⟩ := exists_of_ofPhrase_classDecl shaped read_eq
    obtain ⟨_, isMember, below⟩ := JupiterMigration.Member.mem_walkAll.mp inside
    obtain ⟨part, isPart, rfl⟩ := List.mem_map.mp isMember
    have smaller : sizeOf part < sizeOf phrase := by
      have inParts := sizeOf_lt_of_view found isPart
      rw [phrase_eq, Phrase.node.sizeOf_spec]
      omega
    subst phrase_eq
    exact showsTypes_ofPhrase part (shaped_of_view found shaped.2 isPart)
      (written_of_view found written.2 isPart) node below
  termination_by sizeOf phrase

/-- All nodes of a declaration at the top of a file show the types that they name. -/
theorem showsTypes_ofTopLevel
    {phrase : Phrase}
    (shaped : Shaped phrase)
    (written : Written phrase) : ∀ node ∈ (ofTopLevel phrase).walk, node.ShowsTypes := by
  rcases ofTopLevel_cases phrase with same | ⟨_, -, import_eq⟩ | verbatim_eq
  · rw [same]
    exact showsTypes_ofPhrase phrase shaped written
  · rw [import_eq]
    exact List.forall_mem_singleton.mpr trivial
  · rw [verbatim_eq]
    exact List.forall_mem_singleton.mpr trivial

end Member

end Java

/-- Numbers play no part in what a node shows of its types. -/
theorem Node.showsTypes_of_unnumbered_eq
    {original node : Node}
    (same : original.unnumbered = node.unnumbered)
    (shows : original.ShowsTypes) : node.ShowsTypes := by
  cases node with
  | annotationUse use =>
      cases original with
      | annotationUse other =>
          have same_use : other.unnumbered = use.unnumbered := Node.annotationUse.inj same
          have arguments_eq : other.arguments = use.arguments := congrArg (·.arguments) same_use
          have text_eq : other.text = use.text := congrArg (·.text) same_use
          have references_eq : other.references = use.references :=
            congrArg (·.references) same_use
          unfold ShowsTypes at shows ⊢
          dsimp only at shows ⊢
          rwa [arguments_eq, text_eq, references_eq] at shows
      | _ => cases same
  | member decl =>
      cases decl with
      | field field =>
          cases original with
          | member other =>
              cases other with
              | field other =>
                  have same_field : other.unnumbered = field.unnumbered :=
                    Member.field.inj (Node.member.inj same)
                  have type_eq : other.type = field.type := congrArg (·.type) same_field
                  have references_eq : other.references = field.references :=
                    congrArg (·.references) same_field
                  unfold ShowsTypes at shows ⊢
                  dsimp only at shows ⊢
                  rwa [type_eq, references_eq] at shows
              | _ => cases same
          | _ => cases same
      | _ => trivial
  | _ => trivial

namespace SourceUnit

open Java

/-- All nodes of a file that has been read show the types that they name. -/
theorem showsTypes_of_parse
    {source : String}
    {path : Option String}
    {next : Nat}
    {result : SourceUnit × Nat}
    (parsed : parse source path next = .ok result) :
    ∀ node ∈ Member.walkAll result.1.members, node.ShowsTypes := by
  obtain ⟨phrases, tail, found, rfl⟩ := exists_phrases_of_parse parsed
  obtain ⟨tokens, -, readFound⟩ := exists_tokens_of_phrases? found
  have shaped := shaped_of_readProgram readFound
  have written := writtenAll_of_readProgram readFound
  intro node inside
  obtain ⟨original, originalInside, same⟩ := Member.exists_of_mem_walkAll_numberedAll inside
  obtain ⟨_, isMember, below⟩ := Member.mem_walkAll.mp originalInside
  obtain ⟨phrase, isPhrase, rfl⟩ := List.mem_map.mp isMember
  exact original.showsTypes_of_unnumbered_eq same (Java.Member.showsTypes_ofTopLevel
    (shapedAll_iff.mp shaped phrase isPhrase) (writtenAll_iff.mp written phrase isPhrase)
    original below)

end SourceUnit

end JupiterMigration
