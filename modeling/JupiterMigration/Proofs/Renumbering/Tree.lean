import JupiterMigration.Marker
import JupiterMigration.Layout
import JupiterMigration.Tree.Edit
import JupiterMigration.Tree.Usage

/-!
# Trees with other numbers

A function on numbers gives every node of a tree another number (`Member.renumbered`).  Numbers are
not printed and play no part in which names a tree uses, so that these stay the same
(`Member.text_renumbered`, `Member.namesUsed_renumbered`), and a part of a tree is found in the same
place.  What is found by its number is found by the new one if no two nodes get the same
(`AnnotationList.erase_renumbered`).
-/

namespace JupiterMigration

variable (number : Nat → Nat)

/-! ## Nodes -/

/-- The annotation with another number. -/
def Annotation.renumbered (use : Annotation) : Annotation :=
  { use with id := number use.id }

/-- The statement with another number. -/
def Statement.renumbered (statement : Statement) : Statement :=
  { statement with id := number statement.id }

/-- The parameter with another number. -/
def Parameter.renumbered (parameter : Parameter) : Parameter :=
  { parameter with id := number parameter.id }

/-- The block with other numbers in it. -/
def Block.renumbered (block : Block) : Block :=
  { block with
    id := number block.id
    statements := block.statements.map (Statement.renumbered number) }

/-- The field with other numbers in it. -/
def Field.renumbered (field : Field) : Field :=
  { field with
    id := number field.id
    annotations := field.annotations.map ( Annotation.renumbered number) }

/-- The method with other numbers in it. -/
def Method.renumbered (method : Method) : Method :=
  { method with
    id := number method.id
    annotations := method.annotations.map ( Annotation.renumbered number)
    parameters := method.parameters.map (Parameter.renumbered number)
    body := method.body.map (Block.renumbered number) }

/-- The head of a class with other numbers in it. -/
def ClassHead.renumbered (head : ClassHead) : ClassHead :=
  { head with
    id := number head.id
    annotations := head.annotations.map ( Annotation.renumbered number) }

/-- The import with another number. -/
def Import.renumbered (decl : Import) : Import :=
  { decl with id := number decl.id }

namespace Member

mutual

/-- The declaration with other numbers in it. -/
def renumbered : Member → Member
  | importDecl decl => importDecl (decl.renumbered number)
  | verbatim decl => verbatim { decl with id := number decl.id }
  | field decl => field (decl.renumbered number)
  | method decl => method (decl.renumbered number)
  | classDecl head members => classDecl (head.renumbered number) (renumberedAll members)

/-- Some declarations with other numbers in them. -/
def renumberedAll : List Member → List Member
  | [] => []
  | first :: rest => renumbered first :: renumberedAll rest

end

theorem renumberedAll_eq_map (members : List Member) :
    renumberedAll number members = members.map (renumbered number) := by
  induction members with
  | nil => rfl
  | cons first rest inductionHypothesis =>
      rw [renumberedAll, inductionHypothesis, List.map_cons]

theorem renumbered_classDecl (head : ClassHead) (members : List Member) :
    (classDecl head members).renumbered number =
      classDecl (head.renumbered number) (members.map (renumbered number)) := by
  rw [renumbered, renumberedAll_eq_map]

end Member

/-- The class with other numbers in it. -/
def ClassDecl.renumbered (decl : ClassDecl) : ClassDecl :=
  ⟨decl.toClassHead.renumbered number, decl.members.map (Member.renumbered number)⟩

/-- The node with other numbers in it. -/
def Node.renumbered : Node → Node
  | sourceUnit unit => sourceUnit { unit with
      id := number unit.id, members := unit.members.map (Member.renumbered number) }
  | member decl => member (decl.renumbered number)
  | annotationUse use => annotationUse (use.renumbered number)
  | parameter decl => parameter (decl.renumbered number)
  | block body => block (body.renumbered number)
  | statement decl => statement (decl.renumbered number)

/-- The file with a number of its own and other numbers in it. -/
def SourceUnit.renumbered (id : Nat) (unit : SourceUnit) : SourceUnit :=
  { unit with id, members := unit.members.map (Member.renumbered number) }

/-! ## Texts -/

theorem printAll_map
    {α : Type}
    {print : α → String}
    (change : α → α)
    (keeps : ∀ node, print (change node) = print node)
    (nodes : List α) : printAll print (nodes.map change) = printAll print nodes := by
  unfold printAll
  rw [List.map_map]
  exact congrArg String.join (List.map_congr_left fun node _ => keeps node)

theorem Block.print_renumbered (block : Block) : (block.renumbered number).print = block.print := by
  have statements : printAll Statement.print (block.statements.map (Statement.renumbered number)) =
      printAll Statement.print block.statements :=
    printAll_map (Statement.renumbered number) (fun _ => rfl) _
  unfold print text renumbered
  rw [statements]

theorem Field.body_renumbered (field : Field) : (field.renumbered number).body = field.body := by
  have annotations : printAll Annotation.print (field.annotations.map
      ( Annotation.renumbered number)) = printAll Annotation.print field.annotations :=
    printAll_map ( Annotation.renumbered number) (fun _ => rfl) _
  unfold body renumbered
  rw [annotations]

theorem Method.text_renumbered (method : Method) :
    (method.renumbered number).text = method.text := by
  have annotations : printAll Annotation.print (method.annotations.map
      ( Annotation.renumbered number)) = printAll Annotation.print method.annotations :=
    printAll_map ( Annotation.renumbered number) (fun _ => rfl) _
  have parameters : (method.renumbered number).parameterText = method.parameterText := by
    unfold parameterText renumbered
    rw [List.isEmpty_map, List.map_map]
    rfl
  have body : (method.renumbered number).bodyText = method.bodyText := by
    unfold bodyText renumbered
    cases method.body with
    | none => rfl
    | some block => exact block.print_renumbered number
  unfold text
  rw [parameters, body]
  unfold renumbered
  rw [annotations]
  rfl

theorem ClassHead.front_renumbered (head : ClassHead) :
    (head.renumbered number).front = head.front := by
  have annotations : printAll Annotation.print (head.annotations.map
      ( Annotation.renumbered number)) = printAll Annotation.print head.annotations :=
    printAll_map ( Annotation.renumbered number) (fun _ => rfl) _
  unfold front renumbered
  rw [annotations]

namespace Member

theorem lead_renumbered (member : Member) : (member.renumbered number).lead = member.lead := by
  cases member <;> rfl

mutual

theorem text_renumbered (member : Member) : (member.renumbered number).text = member.text := by
  cases member with
  | importDecl decl | verbatim decl => rfl
  | field decl => exact decl.body_renumbered number
  | method decl => exact decl.text_renumbered number
  | classDecl head members =>
      rw [renumbered_classDecl, text, text, head.front_renumbered, printMembers_renumbered]
      rfl

/-- Numbers are not printed. -/
theorem printMembers_renumbered (members : List Member) :
    printMembers (members.map (renumbered number)) = printMembers members := by
  cases members with
  | nil => rfl
  | cons first rest =>
      rw [List.map_cons, printMembers, printMembers, lead_renumbered, text_renumbered,
        printMembers_renumbered]

end

end Member

theorem SourceUnit.print_renumbered (id : Nat) (unit : SourceUnit) :
    (unit.renumbered number id).print = unit.print := by
  unfold print renumbered
  rw [Member.printMembers_renumbered]

/-! ## Walks and names -/

theorem Block.walk_renumbered (block : Block) :
    (block.renumbered number).walk = block.walk.map (Node.renumbered number) := by
  simp [walk, renumbered, Node.renumbered, Function.comp_def]

theorem Method.walkBelow_renumbered (method : Method) :
    (method.renumbered number).walkBelow = method.walkBelow.map (Node.renumbered number) := by
  unfold walkBelow renumbered
  cases method.body with
  | none => simp [Node.renumbered, Function.comp_def]
  | some block => simp [Node.renumbered, Function.comp_def, block.walk_renumbered]

namespace Member

mutual

theorem walk_renumbered (member : Member) :
    (member.renumbered number).walk = member.walk.map (Node.renumbered number) := by
  cases member with
  | importDecl decl | verbatim decl => rfl
  | field decl =>
      simp [renumbered, walk, Node.renumbered, Field.renumbered, Function.comp_def]
  | method decl => simp [renumbered, walk, Node.renumbered, decl.walkBelow_renumbered]
  | classDecl head members =>
      rw [renumbered_classDecl, walk, walk, walkAll_renumbered members]
      simp [renumbered_classDecl, Node.renumbered, ClassHead.renumbered, Function.comp_def]

theorem walkAll_renumbered (members : List Member) :
    walkAll (members.map (renumbered number)) = (walkAll members).map (Node.renumbered number) := by
  cases members with
  | nil => rfl
  | cons first rest =>
      rw [List.map_cons, walkAll, walkAll, List.map_append, walk_renumbered first,
        walkAll_renumbered rest]

end

end Member

theorem Node.references_renumbered (node : Node) :
    (node.renumbered number).references = node.references := by
  cases node with
  | member decl => cases decl <;> rfl
  | _ => rfl

namespace Member

/-- Numbers play no part in which names are used. -/
theorem namesUsed_renumbered (member : Member) :
    (member.renumbered number).namesUsed = member.namesUsed := by
  have walk_eq : (Node.member (member.renumbered number)).walk =
      (Node.member member).walk.map (Node.renumbered number) := member.walk_renumbered number
  unfold namesUsed Node.namesUsed
  rw [walk_eq, List.map_map]
  exact congrArg Names.unionAll
    (List.map_congr_left fun node _ => node.references_renumbered number)

theorem isImport_renumbered (member : Member) :
    (member.renumbered number).isImport = member.isImport := by
  cases member <;> rfl

theorem import?_renumbered (member : Member) :
    (member.renumbered number).import? = member.import?.map (Import.renumbered number) := by
  cases member <;> rfl

theorem method?_renumbered (member : Member) :
    (member.renumbered number).method? = member.method?.map (Method.renumbered number) := by
  cases member <;> rfl

theorem field?_renumbered (member : Member) :
    (member.renumbered number).field? = member.field?.map (Field.renumbered number) := by
  cases member <;> rfl

theorem id_renumbered (member : Member) : (member.renumbered number).id = number member.id := by
  cases member <;> rfl

theorem packageOf_renumbered (member : Member) :
    SourceUnit.packageOf (member.renumbered number) = SourceUnit.packageOf member := by
  cases member <;> rfl

theorem withLead_renumbered (lead : String) (member : Member) :
    (member.renumbered number).withLead lead = (member.withLead lead).renumbered number := by
  cases member <;> rfl

end Member

/-! ## Files -/

namespace SourceUnit

variable (id : Nat) (unit : SourceUnit)

theorem imports_renumbered :
    (unit.renumbered number id).imports = unit.imports.map (Import.renumbered number) := by
  unfold imports renumbered
  rw [List.filterMap_map, List.map_filterMap]
  exact congrArg (fun view => unit.members.filterMap view)
    (funext fun member => member.import?_renumbered number)

theorem namesUsed_renumbered : (unit.renumbered number id).namesUsed = unit.namesUsed := by
  unfold namesUsed renumbered Member.namesUsedByAll
  rw [List.filter_map, List.map_map]
  have kept : (fun member : Member => !member.isImport) ∘ Member.renumbered number =
      fun member => !member.isImport :=
    funext fun member => congrArg not (member.isImport_renumbered number)
  rw [kept]
  exact congrArg Names.unionAll
    (List.map_congr_left fun member _ => member.namesUsed_renumbered number)

theorem package?_renumbered : (unit.renumbered number id).package? = unit.package? := by
  unfold package? renumbered
  rw [List.findSome?_map]
  exact congrArg (fun view => unit.members.findSome? view)
    (funext fun member => member.packageOf_renumbered number)

theorem spells_renumbered (type : String) (node : Node) :
    spells type (node.renumbered number) = spells type node := by
  cases node with
  | member decl => cases decl <;> rfl
  | _ => rfl

theorem usesType_renumbered (type : String) :
    (unit.renumbered number id).usesType type = unit.usesType type := by
  have spelled : (unit.renumbered number id).walk.any (spells type) =
      unit.walk.any (spells type) := by
    have walk_eq : (unit.renumbered number id).walk = .sourceUnit (unit.renumbered number id) ::
        (Member.walkAll unit.members).map (Node.renumbered number) :=
      congrArg (List.cons _) (Member.walkAll_renumbered number unit.members)
    rw [walk_eq, walk, List.any_cons, List.any_cons, List.any_map]
    have same : spells type ∘ Node.renumbered number = spells type :=
      funext (spells_renumbered number type)
    rw [same]
    rfl
  unfold usesType
  dsimp only
  rw [spelled, namesUsed_renumbered, imports_renumbered, List.any_map, List.any_map]
  rfl

end SourceUnit

/-- Numbers play no part in what type names may denote. -/
theorem TypeScope.ofUnit_renumbered (id : Nat) (unit : SourceUnit) :
    TypeScope.ofUnit (unit.renumbered number id) = TypeScope.ofUnit unit := by
  unfold ofUnit ofImports
  rw [SourceUnit.imports_renumbered, SourceUnit.package?_renumbered]
  simp only [List.filter_map, List.map_map]
  rfl

/-! ## Layouts -/

namespace Layout

theorem firstStatement?_renumbered (member : Member) :
    firstStatement? (member.renumbered number) =
      (firstStatement? member).map (Statement.renumbered number) := by
  cases member with
  | method decl =>
      have first_eq (block : Block) : (block.renumbered number).statements.head? =
          block.statements.head?.map (Statement.renumbered number) := List.head?_map
      rw [Member.renumbered, firstStatement?, firstStatement?, Method.renumbered, Option.bind_map,
        Option.map_bind]
      exact congrArg (Option.bind decl.body) (funext first_eq)
  | _ => rfl

theorem unitOfMember?_renumbered (classIndent : String) (member : Member) :
    unitOfMember? classIndent (member.renumbered number) = unitOfMember? classIndent member := by
  have lead_eq (statement : Statement) : (statement.renumbered number).lead = statement.lead := rfl
  unfold unitOfMember?
  simp only [Member.lead_renumbered, firstStatement?_renumbered, Option.bind_map,
    Function.comp_def, lead_eq]

theorem classIndent_renumbered (head : ClassHead) :
    classIndent (head.renumbered number) = classIndent head := by
  unfold classIndent ClassHead.renumbered
  rw [List.isEmpty_map]

theorem unitOfClass?_renumbered (member : Member) :
    unitOfClass? (member.renumbered number) = unitOfClass? member := by
  cases member with
  | classDecl head members =>
      simp only [Member.renumbered_classDecl, unitOfClass?, List.findSome?_map, Function.comp_def,
        classIndent_renumbered, unitOfMember?_renumbered]
  | importDecl _ | verbatim _ | field _ | method _ => rfl

/-- Numbers play no part in the layout of a file. -/
theorem ofUnit_renumbered (id : Nat) (unit : SourceUnit) (override : Option String) :
    ofUnit (unit.renumbered number id) override = ofUnit unit override := by
  have detected : detectUnit (unit.renumbered number id) = detectUnit unit := by
    unfold detectUnit SourceUnit.renumbered
    rw [List.findSome?_map]
    exact congrArg (fun view => (unit.members.findSome? view).getD defaultUnit)
      (funext fun member => unitOfClass?_renumbered number member)
  unfold ofUnit
  rw [detected]

theorem memberIndent_renumbered (layout : Layout) (decl : ClassDecl) :
    layout.memberIndent (decl.renumbered number) = layout.memberIndent decl := by
  obtain ⟨head, members⟩ := decl
  cases members with
  | nil => exact congrArg (· ++ layout.unit) (classIndent_renumbered number head)
  | cons first rest => exact congrArg indentation (first.lead_renumbered number)

theorem statementIndent_renumbered (layout : Layout) (method : Method) (memberIndent : String) :
    layout.statementIndent (method.renumbered number) memberIndent =
      layout.statementIndent method memberIndent := by
  have first_eq : firstStatement? (.method (method.renumbered number)) =
      (firstStatement? (.method method)).map (Statement.renumbered number) :=
    firstStatement?_renumbered number (.method method)
  unfold statementIndent
  rw [first_eq]
  cases firstStatement? (.method method) with
  | none => rfl
  | some first => rfl

end Layout

/-! ## Edits -/

namespace Member

theorem following_renumbered (atHead : Bool) (removed next : Member) :
    following atHead (removed.renumbered number) (next.renumbered number) =
      (following atHead removed next).renumbered number := by
  unfold following leadLines
  rw [lead_renumbered, lead_renumbered, withLead_renumbered]
  split <;> rfl

theorem removeAt_renumbered (position : Nat) (members : List Member) :
    removeAt position (members.map (renumbered number)) =
      (removeAt position members).map (renumbered number) := by
  unfold removeAt
  rw [← List.map_drop, ← List.map_take]
  rcases members.drop position with _ | ⟨removed, _ | ⟨next, rest⟩⟩
  · rfl
  · rfl
  · simp [following_renumbered]

end Member

theorem Marker.find?_renumbered
    (markers : List Marker)
    (scope : TypeScope)
    (uses : List Annotation) :
    find? markers scope (uses.map ( Annotation.renumbered number)) =
      (find? markers scope uses).map ( Annotation.renumbered number) :=
  List.find?_map

section Injective

variable {number} (injective : Function.Injective number)
include injective

/-- An annotation that is taken out by its number is taken out by its new number. -/
theorem AnnotationList.erase_renumbered (id : Nat) (declLead : String) (uses : List Annotation) :
    erase (number id) declLead (uses.map ( Annotation.renumbered number)) =
      ⟨(erase id declLead uses).annotations.map ( Annotation.renumbered number),
        (erase id declLead uses).declLead⟩ := by
  induction uses with
  | nil => rfl
  | cons first rest inductionHypothesis =>
      have same (use : Annotation) : (use.renumbered number).id = number id ↔ use.id = id :=
        injective.eq_iff
      cases rest with
      | nil =>
          simp only [List.map_cons, List.map_nil, erase, same]
          split <;> rfl
      | cons next rest =>
          rw [List.map_cons] at inductionHypothesis
          simp only [List.map_cons, erase, same, inductionHypothesis]
          split <;> rfl

theorem Field.eraseAnnotation_renumbered (id : Nat) (field : Field) :
    Field.eraseAnnotation (number id) (field.renumbered number) =
      (field.eraseAnnotation id).renumbered number := by
  unfold eraseAnnotation renumbered
  dsimp only
  rw [AnnotationList.erase_renumbered injective]

theorem Method.eraseAnnotation_renumbered (id : Nat) (method : Method) :
    Method.eraseAnnotation (number id) (method.renumbered number) =
      (method.eraseAnnotation id).renumbered number := by
  unfold eraseAnnotation renumbered
  dsimp only
  rw [AnnotationList.erase_renumbered injective]

theorem ClassHead.eraseAnnotation_renumbered (id : Nat) (head : ClassHead) :
    ClassHead.eraseAnnotation (number id) (head.renumbered number) =
      (head.eraseAnnotation id).renumbered number := by
  unfold eraseAnnotation renumbered
  dsimp only
  rw [AnnotationList.erase_renumbered injective]

end Injective

end JupiterMigration
