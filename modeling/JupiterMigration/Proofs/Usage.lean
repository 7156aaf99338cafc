import JupiterMigration.Proofs.Numbering
import JupiterMigration.Proofs.Reading
import JupiterMigration.Proofs.Usage.Overlooked
import Mathlib.Logic.Basic

/-!
# Which names a tree uses

A name is used in a file if a phrase outside the imports uses the word as a name.  The tree of a
file knows all of these names but those that are overlooked: each other name is mentioned by some
node, and no node mentions a name that its phrases do not use (`mem_allNames_iff`, and for whole
files `mem_sourceNames_iff`).
-/

namespace JupiterMigration

/-! ## The names below a node -/

namespace Member

theorem mem_namesUsed {member : Member} {word : String} :
    word ∈ member.namesUsed ↔ ∃ node ∈ member.walk, word ∈ node.references := by
  simp [namesUsed, Node.namesUsed, Node.walk]

theorem mem_namesUsed_verbatim {decl : Verbatim} {word : String} :
    word ∈ (verbatim decl).namesUsed ↔ word ∈ decl.references := by
  simp [mem_namesUsed, walk, Node.references]

theorem mem_namesUsed_field {decl : Field} {word : String} :
    word ∈ (field decl).namesUsed ↔
      word ∈ decl.references ∨ ∃ use ∈ decl.annotations, word ∈ use.references := by
  simp [mem_namesUsed, walk, Node.references]

/-- The statements of a method; one without a body has none. -/
def bodyStatements (decl : Method) : List Statement :=
  (decl.body.map (·.statements)).getD []

theorem mem_namesUsed_method {decl : Method} {word : String} :
    word ∈ (method decl).namesUsed ↔
      word ∈ decl.references ∨
      (∃ use ∈ decl.annotations, word ∈ use.references) ∨
      (∃ parameter ∈ decl.parameters, word ∈ parameter.references) ∨
      ∃ statement ∈ bodyStatements decl, word ∈ statement.references := by
  rw [mem_namesUsed]
  cases body_eq : decl.body with
  | none =>
      simp [walk, Method.walkBelow, bodyStatements, body_eq, Node.references, or_and_right,
        exists_or]
  | some block =>
      simp [walk, Method.walkBelow, bodyStatements, body_eq, Node.references, Block.walk,
        or_and_right, exists_or]

theorem mem_walkAll {members : List Member} {node : Node} :
    node ∈ walkAll members ↔ ∃ member ∈ members, node ∈ member.walk := by
  induction members with
  | nil => simp [walkAll]
  | cons first rest inductionHypothesis => simp [walkAll, inductionHypothesis]

theorem mem_namesUsed_classDecl {head : ClassHead} {members : List Member} {word : String} :
    word ∈ (classDecl head members).namesUsed ↔
      word ∈ head.references ∨
      (∃ use ∈ head.annotations, word ∈ use.references) ∨
      ∃ member ∈ members, word ∈ member.namesUsed := by
  simp only [mem_namesUsed, walk, List.mem_cons, List.mem_append, List.mem_map, mem_walkAll]
  constructor
  · rintro ⟨node, rfl | ⟨use, member, rfl⟩ | ⟨member, among, below⟩, mentioned⟩
    · exact .inl mentioned
    · exact .inr (.inl ⟨use, member, mentioned⟩)
    · exact .inr (.inr ⟨member, among, node, below, mentioned⟩)
  · rintro (mentioned | ⟨use, member, mentioned⟩ | ⟨member, among, node, below, mentioned⟩)
    · exact ⟨_, .inl rfl, mentioned⟩
    · exact ⟨_, .inr (.inl ⟨use, member, rfl⟩), mentioned⟩
    · exact ⟨node, .inr (.inr ⟨member, among, below⟩), mentioned⟩

end Member

end JupiterMigration

namespace JupiterMigration.Java

open Java.Annotation (leading)

/-! ## What the nodes mention -/

theorem mem_namesIn {phrases : List Phrase} {word : String} :
    word ∈ namesIn phrases ↔ word ∈ Phrase.allNamesOf phrases := by
  simp [namesIn, Phrase.allNamesOf]

theorem mem_namesIn_singleton {phrase : Phrase} {word : String} :
    word ∈ namesIn [phrase] ↔ word ∈ phrase.allNames := by
  simp [mem_namesIn]

theorem mem_namesOutside {labels : List Label} {phrases : List Phrase} {word : String} :
    word ∈ namesOutside labels phrases ↔ word ∈ Phrase.namesOfAll labels.contains phrases := by
  simp [namesOutside]

/-- The leading annotations mention all of their names. -/
theorem mem_references_leading {uses : List Phrase} {word : String} :
    (∃ use ∈ leading uses, word ∈ use.references) ↔
      word ∈ Phrase.allNamesOf uses := by
  rw [Phrase.mem_allNamesOf]
  cases uses with
  | nil => simp [leading]
  | cons first rest =>
      simp [leading, Annotation.ofPhrase, mem_namesIn_singleton]

/-- The names of a declaration stand in its leading annotations or behind them. -/
theorem allNamesOf_declared (parts : List Phrase) :
    Phrase.allNamesOf (declared parts).annotations ++ Phrase.allNamesOf (declared parts).rest =
      Phrase.allNamesOf parts := by
  unfold declared
  split
  · next modifiers rest =>
      rw [Phrase.allNamesOf_append, ← List.append_assoc, ← Phrase.allNamesOf_append,
        List.takeWhile_append_dropWhile, Phrase.allNamesOf_cons, Phrase.allNames_node]
  · rfl

/--
The names of a declaration stand in its leading annotations, in later modifiers, or in its last
part.
-/
theorem mem_allNamesOf_declaration
    {parts : List Phrase}
    {last : Phrase}
    {word : String}
    (last_eq : parts.getLast? = some last)
    (notModifiers : last.isA .modifiers = false) :
    word ∈ Phrase.allNamesOf parts ↔
      word ∈ Phrase.allNamesOf (declared parts).annotations ∨
        word ∈ laterModifierNames parts ∨ word ∈ last.allNames := by
  obtain ⟨front, rest_eq⟩ := getLast?_declared_rest last_eq notModifiers
  rw [← allNamesOf_declared parts, laterModifierNames, rest_eq, List.dropLast_concat]
  simp

/-! ## Fields -/

/-- A field is read, and mentions its leading annotations and what it does not skip. -/
theorem read_field
    {parts inner : List Phrase}
    (lead : String)
    (last_eq : parts.getLast? = some (.node .fieldDeclaration inner)) :
    ∃ field, Field.ofParts? lead parts = some field ∧
      ∀ word, word ∈ (JupiterMigration.Member.field field).namesUsed ↔
        word ∈ Phrase.allNamesOf (declared parts).annotations ∨
          word ∈ Phrase.namesOfAll [Label.modifiers].contains inner := by
  simp only [Field.ofParts?, last_eq, Option.some.injEq, exists_eq_left',
    Member.mem_namesUsed_field, mem_references_leading, mem_namesOutside]
  intro word
  exact or_comm

/-! ## Methods -/

/-- The names that the statements of a body mention. -/
def bodyNames (body : Option Bracketed) : List String :=
  Phrase.allNamesOf ((body.map (·.inner)).getD [])

namespace Method

/-- The parameters of a list mention all names in it. -/
theorem read_parameters
    (closing : Token)
    {inner : List Phrase}
    (separated : CommaSeparated inner) :
    ∃ parameters, Parameter.ofList closing inner = some parameters ∧
      ∀ word, (∃ parameter ∈ parameters, word ∈ parameter.references) ↔
        word ∈ Phrase.allNamesOf inner := by
  induction separated with
  | none => exact ⟨[], rfl, by simp⟩
  | one phrase =>
      refine ⟨_, rfl, ?_⟩
      simp [Parameter.ofPhrase, mem_namesIn_singleton]
  | @more phrase comma rest isComma nonempty _ inductionHypothesis =>
      obtain ⟨others, read, mentioned⟩ := inductionHypothesis
      refine ⟨Parameter.ofPhrase phrase comma.gap :: others, ?_, ?_⟩
      · rw [Parameter.ofList, if_pos ⟨isComma, nonempty⟩, read]
        rfl
      · intro word
        simp [Parameter.ofPhrase, mem_namesIn_singleton, mentioned]

/-- The last part of a method is its body if it names anything. -/
theorem read_body
    {label : Label}
    {parts : List Phrase}
    (isBody : label = .block ∨ label = .constructorBody)
    (ends : EndsInBody label parts)
    (shaped : ShapedAll parts) :
    ∃ front last, parts = front ++ [last] ∧ Avoids [.parameters] front ∧
      last.isA .parameters = false ∧ last.allNames = bodyNames (splitBody parts).2 := by
  obtain ⟨front, last, rfl, avoids, isToken | isLabelled⟩ := ends
  · obtain ⟨token, rfl⟩ := isToken
    refine ⟨front, _, rfl, avoids, rfl, ?_⟩
    simp [splitBody, bodyNames]
  · cases last with
    | leaf isName token => simp [Phrase.isA, Phrase.label?] at isLabelled
    | node found inner =>
        simp only [Phrase.isA, Phrase.label?, Option.some.injEq, decide_eq_true_eq] at isLabelled
        subst isLabelled
        have bodyShaped := (shapedAll_append.mp shaped).2.1.1
        have enclosed : Enclosed "\x7b" "\x7d" (fun _ => True) inner := by
          cases isBody with
          | inl isBlock => exact (isBlock ▸ bodyShaped : HasForm .block inner)
          | inr isConstructor =>
              exact (isConstructor ▸ bodyShaped : HasForm .constructorBody inner)
        obtain ⟨body, bodyFound, _, inner_eq⟩ := bracketed?_of_enclosed enclosed
        refine ⟨front, _, rfl, avoids, ?_, ?_⟩
        · cases isBody with
          | inl isBlock => subst isBlock; rfl
          | inr isConstructor => subst isConstructor; rfl
        · have names_eq : Phrase.allNamesOf inner = Phrase.allNamesOf body.inner := by
            rw [inner_eq]
            simp
          simp [splitBody, bodyFound, bodyNames, names_eq]

theorem not_isA_of_isA
    {label another : Label}
    {phrase : Phrase}
    (labelled : phrase.isA label = true)
    (differ : label ≠ another) : phrase.isA another = false := by
  simp only [Phrase.isA, decide_eq_true_eq] at labelled
  simp [Phrase.isA, labelled, differ]

theorem filter_not_isA
    {label : Label}
    {parts : List Phrase}
    (avoids : Avoids [label] parts) : parts.filter (!·.isA label) = parts := by
  rw [List.filter_eq_self]
  intro part member
  simp [avoids part member label]

/-- The names in the parts of a method, counted around its parameters and its last part. -/
theorem mem_allNamesOf_method
    {parts before list middle : List Phrase}
    {last : Phrase}
    (parts_eq : parts = before ++ .node .parameters list :: (middle ++ [last]))
    (beforeAvoids : Avoids [.parameters] before)
    (middleAvoids : Avoids [.parameters] middle)
    (word : String) :
    word ∈ Phrase.allNamesOf parts ↔
      word ∈ Phrase.namesOfAll headerSkips.contains parts ∨ word ∈ Phrase.allNamesOf list ∨
        word ∈ last.allNames ∨ word ∈ Phrase.namesWithinAll headerSkips (headerParts parts) := by
  have header_eq : headerParts parts = before ++ middle := by
    have whole : parts = (before ++ .node .parameters list :: middle) ++ [last] := by
      simp [parts_eq]
    rw [headerParts, whole, List.dropLast_concat, List.filter_append,
      List.filter_cons_of_neg (by simp [Phrase.isA, Phrase.label?]),
      filter_not_isA beforeAvoids, filter_not_isA middleAvoids]
  have inList := Phrase.mem_allNamesOf_iff_outside_or_within headerSkips list word
  have inLast := Phrase.mem_allNames_iff_outside_or_within headerSkips last word
  have notSkipped : headerSkips.contains .parameters = false := rfl
  rw [Phrase.mem_allNamesOf_iff_outside_or_within headerSkips, header_eq, inList, inLast, parts_eq]
  simp only [Phrase.namesOfAll_append, Phrase.namesWithinAll_append, Phrase.namesOfAll,
    Phrase.namesWithinAll, Phrase.names, Phrase.namesWithin, notSkipped, List.mem_append]
  grind

/-- What a header says of the parts of its method and of the names in them. -/
structure Header.Reads
    (header : Header)
    (parameters : List JupiterMigration.Parameter)
    (parts : List Phrase) : Prop where
  listed : Parameter.ofList header.parameters.closing header.parameters.inner = some parameters
  counted : ∀ word, word ∈ Phrase.allNamesOf parts ↔
    word ∈ Phrase.namesOfAll headerSkips.contains parts ∨
      (∃ parameter ∈ parameters, word ∈ parameter.references) ∨
      word ∈ bodyNames header.body ∨ word ∈ Phrase.namesWithinAll headerSkips (headerParts parts)

theorem read_headerFrom
    {label : Label}
    {before list back : List Phrase}
    {name : Token}
    (front : List Phrase)
    (isBody : label = .block ∨ label = .constructorBody)
    (returnType : Option Phrase)
    (beforeAvoids : Avoids [.parameters] before)
    (enclosed : Enclosed "(" ")" CommaSeparated list)
    (ends : EndsInBody label back)
    (shaped : ShapedAll back) :
    ∃ header parameters,
      headerFrom? front returnType (.leaf true name :: .node .parameters list :: back) =
        some header ∧
      header.Reads parameters (before ++ .node .parameters list :: back) := by
  obtain ⟨bracketed, found, separated, list_eq⟩ := bracketed?_of_enclosed enclosed
  have names_eq : Phrase.allNamesOf list = Phrase.allNamesOf bracketed.inner := by
    rw [list_eq]
    simp
  obtain ⟨parameters, listed, mentioned⟩ := read_parameters bracketed.closing separated
  obtain ⟨middle, last, rfl, middleAvoids, _, body_eq⟩ := read_body isBody ends shaped
  refine ⟨_, parameters, by rw [headerFrom?, found], listed, ?_⟩
  intro word
  rw [mem_allNamesOf_method rfl beforeAvoids middleAvoids word, mentioned, names_eq, body_eq]

/-- The header of a method is read. -/
theorem read_method_header
    {parts : List Phrase}
    (shaped : Shaped (.node .methodDeclaration parts)) :
    ∃ header parameters, header? (.node .methodDeclaration parts) = some header ∧
      header.Reads parameters parts := by
  obtain ⟨⟨front, type, name, list, back, rfl, avoids, isType, ends⟩, allShaped⟩ := shaped
  obtain ⟨_, _, _, listShaped, backShaped⟩ := shapedAll_append.mp allShaped
  have noType : ∀ part ∈ front, (!part.isA .type) = true := by
    intro part member
    simp [avoids part member .type]
  have before : Avoids [.parameters] (front ++ [type, .leaf true name]) := by
    have notParameters := not_isA_of_isA isType (show Label.type ≠ .parameters by decide)
    refine Avoids.append (fun part member label among => avoids part member label ?_) ?_
    · exact List.mem_cons_of_mem _ among
    · simp [Avoids, notParameters]
  obtain ⟨header, parameters, found, reads⟩ := read_headerFrom front (.inl rfl)
    (some type) before listShaped.1 ends backShaped
  refine ⟨header, parameters, ?_, by simpa using reads⟩
  simp only [header?]
  rw [List.takeWhile_append_of_pos noType, List.dropWhile_append_of_pos noType,
    List.takeWhile_cons_of_neg (by simp [isType]), List.dropWhile_cons_of_neg (by simp [isType]),
    List.append_nil]
  exact found

/-- The header of a constructor is read. -/
theorem read_constructor_header
    {parts : List Phrase}
    (shaped : Shaped (.node .constructorDeclaration parts)) :
    ∃ header parameters, header? (.node .constructorDeclaration parts) = some header ∧
      header.Reads parameters parts := by
  obtain ⟨⟨front, name, list, back, rfl, labelled, avoids, ends⟩, allShaped⟩ := shaped
  obtain ⟨_, _, listShaped, backShaped⟩ := shapedAll_append.mp allShaped
  have before : Avoids [.parameters] (front ++ [.leaf true name]) := by
    refine Avoids.append avoids ?_
    simp [Avoids]
  obtain ⟨header, parameters, found, reads⟩ := read_headerFrom front (.inr rfl)
    none before listShaped.1 ends backShaped
  refine ⟨header, parameters, ?_, by simpa using reads⟩
  simp only [header?]
  rw [List.takeWhile_append_of_pos labelled, List.dropWhile_append_of_pos labelled,
    List.takeWhile_cons_of_neg (by simp [Phrase.label?]),
    List.dropWhile_cons_of_neg (by simp [Phrase.label?]), List.append_nil]
  exact found

/-- The statements of a body mention all names in it. -/
theorem mem_references_statements {body : Option Bracketed} {word : String} :
    (∃ statement ∈ ((body.map Block.ofBraced).map (·.statements)).getD [],
      word ∈ statement.references) ↔ word ∈ bodyNames body := by
  cases body with
  | none => simp [bodyNames]
  | some list =>
      simp [bodyNames, Block.ofBraced, Statement.ofPhrase, mem_namesIn_singleton,
        Phrase.mem_allNamesOf]

/-- A method is read, and mentions all that its header does not overlook. -/
theorem read_method
    {parts : List Phrase}
    {last : Phrase}
    {header : Header}
    {parameters : List JupiterMigration.Parameter}
    (lead : String)
    (last_eq : parts.getLast? = some last)
    (found : header? last = some header)
    (reads : header.Reads parameters last.parts) :
    ∃ method, Method.ofParts? lead parts = some method ∧
      ∀ word, word ∈ (JupiterMigration.Member.method method).namesUsed ↔
        word ∈ Phrase.namesOfAll headerSkips.contains last.parts ∨
          word ∈ Phrase.allNamesOf (declared parts).annotations ∨
          (∃ parameter ∈ parameters, word ∈ parameter.references) ∨
          word ∈ bodyNames header.body := by
  have listed := reads.listed
  simp only [Method.ofParts?, last_eq, found, listed, Option.some.injEq, exists_eq_left',
    Member.mem_namesUsed_method, mem_references_leading, mem_namesOutside]
  intro word
  rw [← mem_references_statements]
  rfl

end Method

/-! ## Classes -/

namespace ClassDecl

/--
A class is read.  It mentions its leading annotations and what its header does not skip, and its
members are those of its body.
-/
theorem read_class
    {parts inner : List Phrase}
    {view : View}
    (lead : String)
    (members : List Member)
    (last_eq : parts.getLast? = some (.node .classDeclaration inner))
    (found : view? (.node .classDeclaration inner) = some view)
    (references_eq : view.references = namesOutside [.modifiers, .classBody] inner) :
    ∃ decl, ofParts? lead parts members = some decl ∧
      ∀ word, word ∈ decl.namesUsed ↔
        word ∈ Phrase.namesOfAll [Label.modifiers, Label.classBody].contains inner ∨
          word ∈ Phrase.allNamesOf (declared parts).annotations ∨
          ∃ member ∈ members, word ∈ member.namesUsed := by
  simp only [ofParts?, last_eq, Option.bind_some, found, Option.map_some, Option.some.injEq,
    exists_eq_left', Member.mem_namesUsed_classDecl, mem_references_leading, references_eq,
    mem_namesOutside, implies_true]

/-- The names in a class stand in its header or in its body. -/
theorem mem_allNamesOf_class
    {parts front inner : List Phrase}
    (parts_eq : parts = front ++ [.node .classBody inner])
    (word : String) :
    word ∈ Phrase.allNamesOf parts ↔
      word ∈ Phrase.namesOfAll [Label.modifiers, Label.classBody].contains parts ∨
        word ∈ Phrase.namesWithinAll [.modifiers, .classBody] parts.dropLast ∨
        word ∈ Phrase.allNamesOf inner := by
  have inFront :=
    Phrase.mem_allNamesOf_iff_outside_or_within [.modifiers, .classBody] front word
  have skipped : [Label.modifiers, Label.classBody].contains .classBody = true := rfl
  rw [parts_eq, List.dropLast_concat, Phrase.allNamesOf_append, List.mem_append, inFront]
  simp only [Phrase.namesOfAll_append, Phrase.namesOfAll, Phrase.names, skipped, if_true,
    Phrase.allNamesOf_cons, Phrase.allNames_node, Phrase.allNamesOf_nil, List.append_nil, or_assoc]

/-- What is overlooked in a class body is what stands overlooked between its braces. -/
theorem mem_overlooked_body
    {opening closing : Token}
    {members : List Phrase}
    {word : String} :
    word ∈ overlookedAll (.leaf false opening :: (members ++ [.leaf false closing])) ↔
      ∃ part ∈ members, word ∈ overlooked part := by
  simp [mem_overlookedAll, overlooked]

/-- The names in a class body are the names between its braces. -/
theorem mem_allNamesOf_body
    {opening closing : Token}
    {members : List Phrase}
    {word : String} :
    word ∈ Phrase.allNamesOf (.leaf false opening :: (members ++ [.leaf false closing])) ↔
      ∃ part ∈ members, word ∈ part.allNames := by
  simp [Phrase.mem_allNamesOf]

end ClassDecl

/-! ## Members -/

namespace Member

/-- A verbatim declaration mentions all of its names. -/
theorem mem_namesUsed_verbatim (phrase : Phrase) (word : String) :
    word ∈ (JupiterMigration.Member.verbatim (Verbatim.ofPhrase phrase)).namesUsed ↔
      word ∈ phrase.allNames := by
  rw [JupiterMigration.Member.mem_namesUsed_verbatim]
  exact mem_namesIn_singleton

/-- The names in a class are those that its tree mentions and those that are overlooked. -/
theorem mem_allNames_class
    {parts inner : List Phrase}
    {word : String}
    (last_eq : parts.getLast? = some (.node .classDeclaration inner))
    (shaped : Shaped (.node .declaration parts))
    (within : ∀ view, parts.getLast?.bind ClassDecl.view? = some view →
      ∀ part ∈ view.body.inner,
        (word ∈ part.allNames ↔ word ∈ (ofPhrase part).namesUsed ∨ word ∈ overlooked part)) :
    ∃ decl, ClassDecl.ofParts? (Phrase.node .declaration parts).gap parts (declaredIn parts) =
        some decl ∧
      (word ∈ (Phrase.node .declaration parts).allNames ↔
        word ∈ decl.namesUsed ∨ word ∈ overlooked (.node .declaration parts)) := by
  have classShaped := shapedAll_iff.mp shaped.2 _ (List.mem_of_getLast? last_eq)
  obtain ⟨view, found, references_eq, inner_eq⟩ := ClassDecl.exists_view? classShaped
  obtain ⟨decl, declFound, mentioned⟩ := ClassDecl.read_class
    (Phrase.node .declaration parts).gap (declaredIn parts) last_eq found references_eq
  have viewFound : parts.getLast?.bind ClassDecl.view? = some view := by simp [last_eq, found]
  have overlooked_eq : overlooked (.node .declaration parts) =
      laterModifierNames parts ++ Phrase.namesWithinAll [.modifiers, .classBody] inner.dropLast ++
        overlookedInBody inner := by
    obtain ⟨front, rfl⟩ := List.getLast?_eq_some_iff.mp last_eq
    rw [overlooked, overlookedByLast_concat, overlookedBy]
  have body_eq : overlookedInBody inner = overlookedAll (.leaf false view.body.opening ::
      (view.body.inner ++ [.leaf false view.body.closing])) := by
    rw [inner_eq, overlookedInBody_concat]
  refine ⟨decl, declFound, ?_⟩
  have members : (∃ part ∈ view.body.inner, word ∈ part.allNames) ↔
      (∃ member ∈ declaredIn parts, word ∈ member.namesUsed) ∨
        ∃ part ∈ view.body.inner, word ∈ overlooked part := by
    rw [declaredIn_of_view viewFound shaped]
    simp only [List.mem_map, exists_exists_and_eq_and, ← exists_or, ← and_or_left]
    exact exists_congr fun part => and_congr_right (within view viewFound part)
  rw [Phrase.allNames_node, mem_allNamesOf_declaration last_eq rfl, Phrase.allNames_node,
    ClassDecl.mem_allNamesOf_class inner_eq, mentioned, overlooked_eq, body_eq,
    ClassDecl.mem_allNamesOf_body, members]
  simp only [List.mem_append, ClassDecl.mem_overlooked_body]
  grind

/-- A field mentions its names apart from those that are overlooked. -/
theorem mem_allNames_field
    {parts inner : List Phrase}
    {word : String}
    (last_eq : parts.getLast? = some (.node .fieldDeclaration inner)) :
    word ∈ (Phrase.node .declaration parts).allNames ↔
      word ∈ (ofPhrase (.node .declaration parts)).namesUsed ∨
        word ∈ overlooked (.node .declaration parts) := by
  obtain ⟨field, found, mentioned⟩ := read_field (Phrase.node .declaration parts).gap last_eq
  have overlooked_eq : overlooked (.node .declaration parts) =
      laterModifierNames parts ++ Phrase.namesWithinAll [.modifiers] inner := by
    obtain ⟨front, rfl⟩ := List.getLast?_eq_some_iff.mp last_eq
    rw [overlooked, overlookedByLast_concat, overlookedBy]
  have read_eq : ofPhrase (.node .declaration parts) = .field field := by
    simp only [ofPhrase, ofClassPart, found]
  rw [Phrase.allNames_node, mem_allNamesOf_declaration last_eq rfl, Phrase.allNames_node,
    Phrase.mem_allNamesOf_iff_outside_or_within [.modifiers] inner, read_eq, mentioned,
    overlooked_eq]
  simp only [List.mem_append]
  grind

/-- A method mentions its names apart from those that are overlooked. -/
theorem mem_allNames_method
    {parts inner : List Phrase}
    {label : Label}
    {header : Method.Header}
    {parameters : List JupiterMigration.Parameter}
    {word : String}
    (last_eq : parts.getLast? = some (.node label inner))
    (isMethod : label = .methodDeclaration ∨ label = .constructorDeclaration)
    (found : Method.header? (.node label inner) = some header)
    (reads : header.Reads parameters inner) :
    word ∈ (Phrase.node .declaration parts).allNames ↔
      word ∈ (ofPhrase (.node .declaration parts)).namesUsed ∨
        word ∈ overlooked (.node .declaration parts) := by
  obtain ⟨method, methodFound, mentioned⟩ :=
    Method.read_method (Phrase.node .declaration parts).gap last_eq found reads
  have notModifiers : (Phrase.node label inner).isA .modifiers = false := by
    cases isMethod with
    | inl isMethod => rw [isMethod]; rfl
    | inr isConstructor => rw [isConstructor]; rfl
  have overlooked_eq : overlooked (.node .declaration parts) =
      laterModifierNames parts ++ Phrase.namesWithinAll headerSkips (headerParts inner) := by
    obtain ⟨front, rfl⟩ := List.getLast?_eq_some_iff.mp last_eq
    cases isMethod with
    | inl isMethod => rw [overlooked, overlookedByLast_concat, isMethod, overlookedBy]
    | inr isConstructor => rw [overlooked, overlookedByLast_concat, isConstructor, overlookedBy]
  have noField : Field.ofParts? (Phrase.node .declaration parts).gap parts = none := by
    cases isMethod with
    | inl isMethod => simp [Field.ofParts?, last_eq, isMethod]
    | inr isConstructor => simp [Field.ofParts?, last_eq, isConstructor]
  have read_eq : ofPhrase (.node .declaration parts) = .method method := by
    simp only [ofPhrase, ofClassPart, noField, methodFound]
  rw [Phrase.allNames_node, mem_allNamesOf_declaration last_eq notModifiers, Phrase.allNames_node,
    reads.counted, read_eq, mentioned, overlooked_eq]
  simp only [List.mem_append, Phrase.parts]
  grind

/-- A declaration of another kind is kept verbatim and mentions all of its names. -/
theorem mem_allNames_other
    {parts : List Phrase}
    {last : Phrase}
    {word : String}
    (last_eq : parts.getLast? = some last)
    (noField : Field.ofParts? (Phrase.node .declaration parts).gap parts = none)
    (noMethod : Method.header? last = none)
    (noClass : ClassDecl.view? last = none)
    (nothing : overlookedBy (laterModifierNames parts) last = []) :
    word ∈ (Phrase.node .declaration parts).allNames ↔
      word ∈ (ofPhrase (.node .declaration parts)).namesUsed ∨
        word ∈ overlooked (.node .declaration parts) := by
  have overlooked_eq : overlooked (.node .declaration parts) = [] := by
    obtain ⟨front, rfl⟩ := List.getLast?_eq_some_iff.mp last_eq
    rw [overlooked, overlookedByLast_concat, nothing]
  have read_eq : ofPhrase (.node .declaration parts) =
      .verbatim (Verbatim.ofPhrase (.node .declaration parts)) := by
    simp [ofPhrase, ofClassPart, noField, Method.ofParts?, last_eq, noMethod,
      ClassDecl.ofParts?, noClass]
  rw [overlooked_eq, read_eq, mem_namesUsed_verbatim]
  simp

/-- What is no declaration is kept verbatim and mentions all of its names. -/
theorem mem_allNames_undeclared
    {phrase : Phrase}
    {word : String}
    (noDeclaration : ∀ parts, phrase ≠ .node .declaration parts) :
    word ∈ phrase.allNames ↔
      word ∈ (ofPhrase phrase).namesUsed ∨ word ∈ overlooked phrase := by
  have overlooked_eq : overlooked phrase = [] := by
    unfold overlooked
    split
    · next parts => exact absurd rfl (noDeclaration parts)
    · rfl
  have read_eq : ofPhrase phrase = .verbatim (Verbatim.ofPhrase phrase) := by
    cases phrase with
    | leaf isName token => rfl
    | node label parts =>
        unfold ofPhrase ofClassPart
        split
        · next found => exact absurd found (noDeclaration _)
        · rfl
  rw [overlooked_eq, read_eq, mem_namesUsed_verbatim]
  simp

/-- The names in a member are those that its tree mentions and those that are overlooked. -/
theorem mem_allNames_iff (word : String) :
    (phrase : Phrase) → Shaped phrase →
      (word ∈ phrase.allNames ↔ word ∈ (ofPhrase phrase).namesUsed ∨ word ∈ overlooked phrase)
  | .leaf _ _, _ => mem_allNames_undeclared (by simp)
  | .node label parts, shaped => by
      by_cases isDeclaration : label = .declaration
      · subst isDeclaration
        obtain ⟨front, last, parts_eq, _⟩ := shaped.1
        have last_eq : parts.getLast? = some last := by simp [parts_eq]
        have lastShaped := shapedAll_iff.mp shaped.2 last (List.mem_of_getLast? last_eq)
        cases last with
        | leaf isName token =>
            exact mem_allNames_other last_eq (by simp [Field.ofParts?, last_eq]) rfl rfl rfl
        | node lastLabel inner =>
            cases lastLabel with
            | fieldDeclaration => exact mem_allNames_field last_eq
            | methodDeclaration =>
                obtain ⟨header, parameters, found, reads⟩ := Method.read_method_header lastShaped
                exact mem_allNames_method last_eq (.inl rfl) found reads
            | constructorDeclaration =>
                obtain ⟨header, parameters, found, reads⟩ :=
                  Method.read_constructor_header lastShaped
                exact mem_allNames_method last_eq (.inr rfl) found reads
            | classDeclaration =>
                obtain ⟨decl, found, names_iff⟩ := mem_allNames_class last_eq shaped
                  (fun view viewFound part inside =>
                    have smaller := sizeOf_lt_of_view viewFound inside
                    mem_allNames_iff word part (shaped_of_view viewFound shaped.2 inside))
                have read_eq : ofPhrase (.node .declaration parts) = decl := by
                  simp [ofPhrase, ofClassPart, Field.ofParts?, Method.ofParts?, last_eq,
                    Method.header?, found]
                rw [read_eq]
                exact names_iff
            | _ => exact mem_allNames_other last_eq (by simp [Field.ofParts?, last_eq]) rfl rfl rfl
      · refine mem_allNames_undeclared ?_
        rintro _ ⟨⟩
        exact isDeclaration rfl
  termination_by phrase => sizeOf phrase
  decreasing_by
    simp only [Phrase.node.sizeOf_spec]
    omega

/-! ## Files -/

end Member

/-- The names that a phrase at the top of a file overlooks: only classes are looked into. -/
def overlookedAtTop : Phrase → List String
  | .node .declaration parts =>
    match parts.getLast? with
    | some (.node .classDeclaration _) => overlooked (.node .declaration parts)
    | _ => []
  | _ => []

namespace Member

/-- Exactly the import declarations become imports. -/
theorem isImport_ofTopLevel (phrase : Phrase) :
    (ofTopLevel phrase).isImport = phrase.isA .importDeclaration := by
  cases isImport : phrase.isA .importDeclaration with
  | true =>
      cases phrase with
      | leaf isName token => simp at isImport
      | node label parts =>
          simp only [Phrase.isA, Phrase.label?, Option.some.injEq, decide_eq_true_eq] at isImport
          subst isImport
          rfl
  | false =>
      unfold ofTopLevel
      rw [import_eq_none isImport]
      dsimp only
      split
      · next parts =>
          unfold ClassDecl.ofParts?
          cases parts.getLast?.bind ClassDecl.view? <;> rfl
      · rfl

/-- The names in a phrase at the top of a file. -/
theorem mem_allNames_top_iff
    {phrase : Phrase}
    (shaped : Shaped phrase)
    (noImport : phrase.isA .importDeclaration = false)
    (word : String) :
    word ∈ phrase.allNames ↔
      word ∈ (ofTopLevel phrase).namesUsed ∨ word ∈ overlookedAtTop phrase := by
  unfold overlookedAtTop
  split
  · next parts =>
      split
      · next inner last_eq =>
          rw [ofTopLevel_class last_eq]
          exact mem_allNames_iff word _ shaped
      · next noClass =>
          rw [ofTopLevel_other noImport, mem_namesUsed_verbatim]
          · simp
          · rintro _ inner ⟨⟩ last_eq
            exact noClass inner last_eq
  · next noDeclaration =>
      rw [ofTopLevel_other noImport, mem_namesUsed_verbatim]
      · simp
      · intro parts inner isDeclaration
        exact absurd isDeclaration (noDeclaration parts)

end Member

end JupiterMigration.Java

namespace JupiterMigration.SourceUnit

open Java

/-- The phrases of a source that are no imports. -/
def declarations (source : String) : List Phrase :=
  (((phrases? source).map (·.1)).getD []).filter (!·.isA .importDeclaration)

/-- The words that a source uses as names outside its imports. -/
def sourceNames (source : String) : List String :=
  Phrase.allNamesOf (declarations source)

/-- The names in a source that its tree does not mention. -/
def overlookedNames (source : String) : List String :=
  (declarations source).flatMap overlookedAtTop

/-- The tree of a source knows the names used outside the imports, except for the overlooked. -/
theorem mem_sourceNames_iff
    {source : String}
    {path : Option String}
    {next : Nat}
    {result : SourceUnit × Nat}
    (parsed : parse source path next = .ok result)
    (word : String) :
    word ∈ sourceNames source ↔
      word ∈ result.1.namesUsed ∨ word ∈ overlookedNames source := by
  obtain ⟨phrases, tail, found, rfl⟩ := exists_phrases_of_parse parsed
  obtain ⟨shaped, _⟩ := phrases?_sound found
  have declarations_eq : declarations source = phrases.filter (!·.isA .importDeclaration) := by
    simp [declarations, found]
  have members_eq : (phrases.map Java.Member.ofTopLevel).filter (!·.isImport) =
      (phrases.filter (!·.isA .importDeclaration)).map Java.Member.ofTopLevel := by
    rw [List.filter_map]
    congr 2
    funext phrase
    exact congrArg (!·) (Java.Member.isImport_ofTopLevel phrase)
  rw [namesUsed_numbered, namesUsed, Member.namesUsedByAll, members_eq, sourceNames,
    overlookedNames, declarations_eq, Phrase.mem_allNamesOf, Names.mem_unionAll]
  simp only [List.mem_map, List.mem_flatMap, exists_exists_and_eq_and, ← exists_or,
    ← and_or_left]
  refine exists_congr fun phrase => and_congr_right fun member => ?_
  obtain ⟨among, noImport⟩ := List.mem_filter.mp member
  exact Java.Member.mem_allNames_top_iff (shapedAll_iff.mp shaped phrase among)
    (by simpa using noImport) word

end JupiterMigration.SourceUnit
