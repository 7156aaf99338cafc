import JupiterMigration.Java.Reading

/-!
# Overlooked names

A node of a tree mentions the names that its phrase uses, apart from those in parts with labels that
its kind skips.  Other nodes mention most of what is skipped.  What no node mentions is overlooked:
the modifiers of a declaration from the first keyword on, the modifiers within the variables of a
field, modifiers and blocks within the header of a method, and modifiers and class bodies within the
header of a class (`overlookedBy`).
-/

namespace JupiterMigration.Java

/-! ## The names in phrases -/

namespace Phrase

/-- The words that a phrase uses as names. -/
def allNames (phrase : Phrase) : List String :=
  phrase.names fun _ => false

/-- The words that some phrases use as names. -/
def allNamesOf (phrases : List Phrase) : List String :=
  namesOfAll (fun _ => false) phrases

mutual

/-- The words that a phrase uses as names within parts with one of the labels. -/
def namesWithin (labels : List Label) : Phrase → List String
  | leaf .. => []
  | node label parts =>
    if labels.contains label then allNamesOf parts else namesWithinAll labels parts

/-- The words that some phrases use as names within parts with one of the labels. -/
def namesWithinAll (labels : List Label) : List Phrase → List String
  | [] => []
  | first :: rest => namesWithin labels first ++ namesWithinAll labels rest

end

theorem mem_namesOfAll
    {skip : Label → Bool}
    {phrases : List Phrase}
    {word : String} :
    word ∈ namesOfAll skip phrases ↔ ∃ phrase ∈ phrases, word ∈ phrase.names skip := by
  induction phrases with
  | nil => simp [namesOfAll]
  | cons first rest inductionHypothesis => simp [namesOfAll, inductionHypothesis]

theorem mem_allNamesOf {phrases : List Phrase} {word : String} :
    word ∈ allNamesOf phrases ↔ ∃ phrase ∈ phrases, word ∈ phrase.allNames :=
  mem_namesOfAll

@[simp] theorem namesOfAll_append (skip : Label → Bool) (front back : List Phrase) :
    namesOfAll skip (front ++ back) = namesOfAll skip front ++ namesOfAll skip back := by
  induction front with
  | nil => rfl
  | cons first rest inductionHypothesis => simp [namesOfAll, inductionHypothesis]

@[simp] theorem namesWithinAll_append (labels : List Label) (front back : List Phrase) :
    namesWithinAll labels (front ++ back) =
      namesWithinAll labels front ++ namesWithinAll labels back := by
  induction front with
  | nil => rfl
  | cons first rest inductionHypothesis => simp [namesWithinAll, inductionHypothesis]

@[simp] theorem allNamesOf_nil : allNamesOf [] = [] := rfl

@[simp] theorem allNamesOf_cons (first : Phrase) (rest : List Phrase) :
    allNamesOf (first :: rest) = first.allNames ++ allNamesOf rest := rfl

@[simp] theorem allNamesOf_append (front back : List Phrase) :
    allNamesOf (front ++ back) = allNamesOf front ++ allNamesOf back :=
  namesOfAll_append _ front back

@[simp] theorem allNames_leaf_false (token : Token) : (leaf false token).allNames = [] := rfl

@[simp] theorem allNames_node (label : Label) (parts : List Phrase) :
    (node label parts).allNames = allNamesOf parts := by
  simp [allNames, names, allNamesOf]

@[simp] theorem isA_leaf (label : Label) (isName : Bool) (token : Token) :
    (leaf isName token).isA label = false := rfl

mutual

/-- A name in a phrase stands outside all parts with the labels or within one of them. -/
theorem mem_allNames_iff_outside_or_within (labels : List Label) (phrase : Phrase)
    (word : String) :
    word ∈ phrase.allNames ↔
      word ∈ phrase.names labels.contains ∨ word ∈ phrase.namesWithin labels := by
  cases phrase with
  | leaf isName token => simp [allNames, names, namesWithin]
  | node label parts =>
      rw [allNames_node, names, namesWithin]
      cases labels.contains label with
      | true => simp
      | false =>
          simpa using mem_allNamesOf_iff_outside_or_within labels parts word

theorem mem_allNamesOf_iff_outside_or_within (labels : List Label) (phrases : List Phrase)
    (word : String) :
    word ∈ allNamesOf phrases ↔
      word ∈ namesOfAll labels.contains phrases ∨ word ∈ namesWithinAll labels phrases := by
  cases phrases with
  | nil => simp [allNamesOf, namesOfAll, namesWithinAll]
  | cons first rest =>
      have head := mem_allNames_iff_outside_or_within labels first word
      have tail := mem_allNamesOf_iff_outside_or_within labels rest word
      rw [allNamesOf_cons, namesOfAll, namesWithinAll]
      simp only [List.mem_append, head, tail]
      grind

end

end Phrase

/-! ## Overlooked names -/

/-- What a method's header does not look into. -/
def headerSkips : List Label := [.modifiers, .block, .constructorBody]

/-- The parts of a method's header apart from its parameters; the last part is its body. -/
def headerParts (parts : List Phrase) : List Phrase :=
  parts.dropLast.filter (!·.isA .parameters)

/-- The names in the modifiers of a declaration from the first keyword on. -/
def laterModifierNames (parts : List Phrase) : List String :=
  Phrase.allNamesOf (declared parts).rest.dropLast

mutual

/-- The names in a member of a class that no node of its tree mentions. -/
def overlooked : Phrase → List String
  | .node .declaration parts => overlookedByLast (laterModifierNames parts) parts
  | _ => []

/-- What a declaration with the given names in its later modifiers overlooks. -/
def overlookedByLast (later : List String) : List Phrase → List String
  | [] => []
  | [last] => overlookedBy later last
  | _ :: rest => overlookedByLast later rest

/--
A field overlooks what stands in modifiers within its variables, a method what stands in modifiers
and blocks within its header, and a class what stands in modifiers and class bodies before its own
body and what its members overlook.
-/
def overlookedBy (later : List String) : Phrase → List String
  | .node .fieldDeclaration parts => later ++ Phrase.namesWithinAll [.modifiers] parts
  | .node .methodDeclaration parts | .node .constructorDeclaration parts =>
    later ++ Phrase.namesWithinAll headerSkips (headerParts parts)
  | .node .classDeclaration parts =>
    later ++ Phrase.namesWithinAll [.modifiers, .classBody] parts.dropLast ++ overlookedInBody parts
  | _ => []

/-- What the members of the class that ends in the last part overlook. -/
def overlookedInBody : List Phrase → List String
  | [] => []
  | [.node .classBody members] => overlookedAll members
  | _ :: rest => overlookedInBody rest

/-- The names that some members overlook. -/
def overlookedAll : List Phrase → List String
  | [] => []
  | first :: rest => overlooked first ++ overlookedAll rest

end

theorem overlookedByLast_concat (later : List String) (front : List Phrase) (last : Phrase) :
    overlookedByLast later (front ++ [last]) = overlookedBy later last := by
  induction front with
  | nil => rfl
  | cons first rest inductionHypothesis =>
      cases rest with
      | nil => rfl
      | cons second others => exact inductionHypothesis

theorem overlookedInBody_concat (front members : List Phrase) :
    overlookedInBody (front ++ [.node .classBody members]) = overlookedAll members := by
  induction front with
  | nil => rfl
  | cons first rest inductionHypothesis =>
      cases rest with
      | nil => simp [overlookedInBody]
      | cons second others => simpa [overlookedInBody] using inductionHypothesis

theorem mem_overlookedAll {phrases : List Phrase} {word : String} :
    word ∈ overlookedAll phrases ↔ ∃ phrase ∈ phrases, word ∈ overlooked phrase := by
  induction phrases with
  | nil => simp [overlookedAll]
  | cons first rest inductionHypothesis => simp [overlookedAll, inductionHypothesis]

end JupiterMigration.Java
