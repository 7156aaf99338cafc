import JupiterMigration.Proofs.Numbering
import JupiterMigration.Proofs.Reading
import JupiterMigration.Proofs.Revision.Basic
import JupiterMigration.Proofs.Tokens

/-!
# What classes are called

The name of a class in a file that has been read is made of name characters
(`SourceUnit.namePart_of_parse`).  Revising declarations keeps the names of all classes in them if
rewriting one does (`Member.RevisedAll.classNames_eq`).
-/

namespace JupiterMigration

namespace Member

/-- The names of the classes in some declarations. -/
def classNames (members : List Member) : List String :=
  (classesAll members).map (·.name)

theorem map_name_classes_classDecl (head : ClassHead) (members : List Member) :
    (classDecl head members).classes.map (·.name) = head.name :: classNames members := by
  rw [classes_classDecl, List.map_cons, classNames]

theorem classNames_cons (first : Member) (rest : List Member) :
    classNames (first :: rest) = first.classes.map (·.name) ++ classNames rest := by
  rw [classNames, classesAll_cons, List.map_append, classNames]

theorem classNames_append (front back : List Member) :
    classNames (front ++ back) = classNames front ++ classNames back := by
  induction front with
  | nil => rfl
  | cons first rest inductionHypothesis =>
      rw [List.cons_append, classNames_cons, inductionHypothesis, classNames_cons,
        List.append_assoc]

theorem classNames_filter_isImport (members : List Member) :
    classNames (members.filter (!·.isImport)) = classNames members := by
  rw [classNames, classesAll_filter_isImport, classNames]

/-- A class among the nodes below some declarations is one of their classes. -/
theorem mem_classNames
    {head : ClassHead}
    {members root : List Member}
    (inside : Node.member (classDecl head members) ∈ walkAll root) :
    head.name ∈ classNames root :=
  List.mem_map_of_mem (mem_classesAll.mpr inside)

/-! ## Numbering -/

mutual

theorem map_name_classes_numbered (member : Member) (next : Nat) :
    (member.numbered.run next).1.classes.map (·.name) = member.classes.map (·.name) := by
  cases member with
  | classDecl head members =>
      rw [numbered_classDecl, map_name_classes_classDecl, map_name_classes_classDecl,
        classNames_numberedAll]
      rfl
  | _ => rw [classes_eq_nil rfl, classes_eq_nil rfl]

/-- Numbering keeps the names of classes. -/
theorem classNames_numberedAll (members : List Member) (next : Nat) :
    classNames ((numberedAll members).run next).1 = classNames members := by
  cases members with
  | nil => rfl
  | cons first rest =>
      rw [numberedAll_cons, classNames_cons, classNames_cons, map_name_classes_numbered,
        classNames_numberedAll]

end

/-! ## Revised declarations -/

/-- If each declaration keeps the names of the classes in it, so do all. -/
theorem classNames_eq_of_forall₂
    {Becomes : Member → Member → Prop}
    (keeps : ∀ member other, Becomes member other →
      other.classes.map (·.name) = member.classes.map (·.name))
    {members others : List Member}
    (each : List.Forall₂ Becomes members others) : classNames others = classNames members := by
  induction each with
  | nil => rfl
  | cons head _ inductionHypothesis =>
      rw [classNames_cons, classNames_cons, inductionHypothesis, keeps _ _ head]

/-- Other white space and comments do not change the names of classes. -/
theorem SameButLead.classNames_eq
    {members others : List Member}
    (same : List.Forall₂ SameButLead members others) : classNames others = classNames members := by
  refine classNames_eq_of_forall₂ ?_ same
  rintro member _ ⟨lead, rfl⟩
  exact map_classes_withLead (fun _ _ _ => rfl) lead member

/-- Rewriting a class keeps its name and the names of the classes in it. -/
def KeepsNames (Rewrites : ClassDecl → ClassDecl → ClassDecl → Prop) : Prop :=
  ∀ entered inner result, Rewrites entered inner result →
    result.name = inner.name ∧ classNames result.members = classNames inner.members

variable {Rewrites : ClassDecl → ClassDecl → ClassDecl → Prop}

mutual

theorem Revised.map_name_classes_eq
    (keepsNames : KeepsNames Rewrites)
    {rewritten : List Nat}
    {member other : Member}
    (revised : Revised Rewrites rewritten member other) :
    other.classes.map (·.name) = member.classes.map (·.name) := by
  cases revised with
  | other noClass => rfl
  | kept revised =>
      rw [map_name_classes_classDecl, map_name_classes_classDecl,
        revised.classNames_eq keepsNames]
  | rewritten revised rewrites =>
      obtain ⟨name_eq, classNames_eq⟩ := keepsNames _ _ _ rewrites
      rw [ClassDecl.toMember, map_name_classes_classDecl, map_name_classes_classDecl, name_eq,
        classNames_eq, revised.classNames_eq keepsNames]

/-- Revised declarations keep the names of their classes if rewritten classes do. -/
theorem RevisedAll.classNames_eq
    (keepsNames : KeepsNames Rewrites)
    {rewritten : List Nat}
    {members others : List Member}
    (revised : RevisedAll Rewrites rewritten members others) :
    classNames others = classNames members := by
  cases revised with
  | nil => rfl
  | cons head tail =>
      rw [classNames_cons, classNames_cons, head.map_name_classes_eq keepsNames,
        tail.classNames_eq keepsNames]

end

end Member

/-! ## Files that have been read -/

namespace Java

theorem Spelled.mono
    {tokens fewer : List Token}
    (spelled : Spelled tokens)
    (subset : fewer ⊆ tokens) : Spelled fewer :=
  fun token inside => spelled token (subset inside)

theorem Phrase.tokens_subset
    {part : Phrase}
    {parts : List Phrase}
    (inside : part ∈ parts) : part.tokens ⊆ tokensOfAll parts := by
  obtain ⟨front, back, rfl⟩ := List.append_of_mem inside
  rw [tokensOfAll_append]
  exact fun token isToken => List.mem_append_right _ (List.mem_append_left _ isToken)

/-- The name of a class is one of its tokens, or nothing. -/
theorem isNamePart_calledName
    {parts : List Phrase}
    (shaped : ShapedAll parts)
    (spelled : Spelled (Phrase.tokensOfAll parts)) :
    isNamePart (Expression.calledName parts) = true := by
  unfold Expression.calledName
  generalize found : List.findSome? _ parts = name
  cases name with
  | none => rfl
  | some text =>
      obtain ⟨part, inside, part_eq⟩ := List.exists_of_findSome?_eq_some found
      split at part_eq
      · next token =>
          cases part_eq
          have isWordToken := shapedAll_iff.mp shaped _ inside
          have isToken := Phrase.tokens_subset inside (List.mem_singleton_self token)
          exact isNamePart_of_isWord (spelled token isToken (isWordToken rfl))
      · cases part_eq

namespace ClassDecl

variable {parts : List Phrase} {view : View}

theorem isNamePart_of_view
    (found : parts.getLast?.bind view? = some view)
    (shaped : ShapedAll parts)
    (spelled : Spelled (Phrase.tokensOfAll parts)) : isNamePart view.name = true := by
  obtain ⟨last, last_eq, viewFound⟩ := Option.bind_eq_some_iff.mp found
  have inside := List.mem_of_getLast? last_eq
  have lastShaped := shapedAll_iff.mp shaped last inside
  have lastSpelled := spelled.mono (Phrase.tokens_subset inside)
  obtain ⟨inner, rfl, -⟩ := view?_eq_some viewFound
  rw [view?_name viewFound]
  exact isNamePart_calledName lastShaped.2 lastSpelled

/-- The tokens of a member of a class are tokens of the class. -/
theorem tokens_subset_of_view
    {part : Phrase}
    (found : parts.getLast?.bind view? = some view)
    (inside : part ∈ view.body.inner) : part.tokens ⊆ Phrase.tokensOfAll parts := by
  obtain ⟨last, last_eq, viewFound⟩ := Option.bind_eq_some_iff.mp found
  obtain ⟨inner, rfl, bodyFound⟩ := view?_eq_some viewFound
  have inBody := Phrase.tokens_subset (bracketed?_inner_subset bodyFound inside)
  have inClass := Phrase.tokens_subset (List.mem_concat_self : Phrase.node .classBody inner ∈
    view.front ++ [.node .classBody inner])
  apply List.Subset.trans inBody
  exact List.Subset.trans inClass (Phrase.tokens_subset (List.mem_of_getLast? last_eq))

end ClassDecl

namespace Member

/-- A declaration whose last part is no class is none. -/
theorem class?_ofPhrase
    {phrase : Phrase}
    (noView : ∀ parts, phrase = .node .declaration parts →
      parts.getLast?.bind ClassDecl.view? = none) : (ofPhrase phrase).class? = none := by
  cases phrase with
  | leaf isName token => rfl
  | node label parts =>
      rw [ofPhrase]
      unfold ofClassPart
      split
      · next declarationParts node_eq =>
          rw [ClassDecl.ofParts?, noView declarationParts node_eq]
          split
          · rfl
          · split <;> rfl
      · rfl

theorem mem_classesAll_map
    {read : Phrase → JupiterMigration.Member}
    {phrases : List Phrase}
    {decl : JupiterMigration.ClassDecl} :
    decl ∈ JupiterMigration.Member.classesAll (phrases.map read) ↔
      ∃ phrase ∈ phrases, decl ∈ (read phrase).classes := by
  induction phrases with
  | nil => simp [JupiterMigration.Member.classesAll, JupiterMigration.Member.walkAll]
  | cons first rest inductionHypothesis =>
      rw [List.map_cons, JupiterMigration.Member.classesAll_cons, List.mem_append,
        inductionHypothesis]
      simp

/-- The classes in a member of a class are called by names. -/
theorem namePart_ofPhrase :
    (phrase : Phrase) → Shaped phrase → Spelled phrase.tokens →
      ∀ decl ∈ (ofPhrase phrase).classes, isNamePart decl.name = true
  | .leaf _ _, _, _ => by
      rw [JupiterMigration.Member.classes_eq_nil (class?_ofPhrase fun _ same => by cases same)]
      simp
  | .node label parts, shaped, spelled => by
      by_cases isClass : label = .declaration ∧ (parts.getLast?.bind ClassDecl.view?).isSome
      · obtain ⟨rfl, isSome⟩ := isClass
        obtain ⟨view, found⟩ := Option.isSome_iff_exists.mp isSome
        obtain ⟨head, read_eq, name_eq⟩ := ofPhrase_class found shaped
        rw [read_eq, JupiterMigration.Member.classes_classDecl, List.forall_mem_cons]
        refine ⟨name_eq ▸ ClassDecl.isNamePart_of_view found shaped.2 spelled, ?_⟩
        intro decl inside
        obtain ⟨part, isPart, below⟩ := mem_classesAll_map.mp inside
        have smaller := sizeOf_lt_of_view found isPart
        exact namePart_ofPhrase part (shaped_of_view found shaped.2 isPart)
          (spelled.mono (ClassDecl.tokens_subset_of_view found isPart)) decl below
      · have noClass : (ofPhrase (.node label parts)).class? = none := by
          refine class?_ofPhrase ?_
          rintro _ ⟨⟩
          simpa using isClass
        rw [JupiterMigration.Member.classes_eq_nil noClass]
        simp
  termination_by phrase => sizeOf phrase
  decreasing_by
    simp only [Phrase.node.sizeOf_spec]
    omega

/-- The classes in a declaration at the top of a file are called by names. -/
theorem namePart_ofTopLevel
    {phrase : Phrase}
    (shaped : Shaped phrase)
    (spelled : Spelled phrase.tokens) :
    ∀ decl ∈ (ofTopLevel phrase).classes, isNamePart decl.name = true := by
  rcases ofTopLevel_cases phrase with same | ⟨_, -, import_eq⟩ | verbatim_eq
  · rw [same]
    exact namePart_ofPhrase phrase shaped spelled
  · rw [import_eq, JupiterMigration.Member.classes_eq_nil rfl]
    exact fun _ inside => absurd inside List.not_mem_nil
  · rw [verbatim_eq, JupiterMigration.Member.classes_eq_nil rfl]
    exact fun _ inside => absurd inside List.not_mem_nil

end Member

end Java

namespace SourceUnit

open Java

/-- The classes of a file that has been read are called by names. -/
theorem namePart_of_parse
    {source : String}
    {path : Option String}
    {next : Nat}
    {result : SourceUnit × Nat}
    (parsed : parse source path next = .ok result) :
    ∀ name ∈ Member.classNames result.1.nonImports, isNamePart name = true := by
  obtain ⟨phrases, tail, found, rfl⟩ := exists_phrases_of_parse parsed
  obtain ⟨tokens, scanned, readFound⟩ := exists_tokens_of_phrases? found
  have spelled := spelled_of_scan scanned
  rw [← readProgram_lossless readFound] at spelled
  have shaped := shaped_of_readProgram readFound
  have numbered := Member.classNames_numberedAll (phrases.map Java.Member.ofTopLevel) (next + 1)
  intro name isName
  rw [nonImports, Member.classNames_filter_isImport] at isName
  have isOld : name ∈ Member.classNames (phrases.map Java.Member.ofTopLevel) := numbered ▸ isName
  obtain ⟨decl, inside, rfl⟩ := List.mem_map.mp isOld
  obtain ⟨phrase, isPhrase, below⟩ := Java.Member.mem_classesAll_map.mp inside
  exact Java.Member.namePart_ofTopLevel (shapedAll_iff.mp shaped phrase isPhrase)
    (spelled.mono (Phrase.tokens_subset isPhrase)) decl below

end SourceUnit

/-! ## What migrations rely on -/

namespace Member

/-- No two nodes have the same number, and classes are called by names. -/
structure WellFormed (members : List Member) (next : Nat) : Prop where
  distinct : Distinct members next
  namePart : ∀ name ∈ classNames members, Java.isNamePart name = true

namespace WellFormed

variable {members others : List Member} {next later : Nat}

theorem mono (wellFormed : WellFormed members next) (le : next ≤ later) :
    WellFormed members later :=
  ⟨wellFormed.distinct.mono le, wellFormed.namePart⟩

theorem of_sameButLead
    (same : List.Forall₂ SameButLead members others)
    (wellFormed : WellFormed members next) : WellFormed others next where
  distinct := SameButLead.distinct same wellFormed.distinct
  namePart := SameButLead.classNames_eq same ▸ wellFormed.namePart

/-- Declarations with renewed numbers and the same names of classes. -/
theorem renewed
    (wellFormed : WellFormed members next)
    (renewed : Renewed next later (idsAll members) (idsAll others))
    (names_eq : classNames others = classNames members) : WellFormed others later where
  distinct := wellFormed.distinct.renewed renewed
  namePart := names_eq ▸ wellFormed.namePart

end WellFormed

end Member

theorem SourceUnit.wellFormed_of_parse
    {source : String}
    {path : Option String}
    {next : Nat}
    {result : SourceUnit × Nat}
    (parsed : parse source path next = .ok result) :
    Member.WellFormed result.1.nonImports result.2 :=
  ⟨distinct_of_parse parsed, namePart_of_parse parsed⟩

end JupiterMigration
