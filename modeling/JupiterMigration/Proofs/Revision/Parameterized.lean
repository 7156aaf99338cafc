import JupiterMigration.Proofs.Collection
import JupiterMigration.Proofs.Naming
import JupiterMigration.Proofs.Snippet

/-!
# What becomes of a parameterized class

The members of a migrated class correspond to those it had, in order, followed by a new initializer
where the plan asks for one, which is a method.  Only the planned constructor, the marked fields,
the factory and the tests differ (`Parameterized.Changed`), and of the class itself only the runner
(`Parameterized.RewrittenBy`).
-/

namespace JupiterMigration

/-- A member that is made from a template. -/
def Template.Made (template : String) (values : List Value) (member : Member) : Prop :=
  ∃ text indent lead unnumbered next,
    render template values = .ok text ∧
      Snippet.readMember (Layout.shift text indent) = .ok unnumbered ∧
      member = ((unnumbered.withLead lead).numbered.run next).1

theorem Template.made_of_makes
    {template : String}
    {values : List Value}
    {indent lead : String}
    {result : Member}
    {earlier later : Session}
    (makes : (member template values indent lead).Makes earlier result later) :
    Made template values result := by
  obtain ⟨unnumbered, read, result_eq, -⟩ := Synthesis.makes_numbered.mp makes
  cases rendered : render template values with
  | error error =>
      rw [rendered] at read
      exact absurd read (by simp [bind, Except.bind])
  | ok text =>
      rw [rendered] at read
      cases snippet : Snippet.readMember (Layout.shift text indent) with
      | error error =>
          exact absurd read (by simp [bind, Except.bind, snippet])
      | ok node =>
          have unnumbered_eq : node.withLead lead = unnumbered := by
            simpa [bind, Except.bind, pure, Except.pure, snippet] using read
          exact ⟨text, indent, lead, node, earlier.nextId, rendered, snippet,
            unnumbered_eq ▸ result_eq⟩

namespace Parameterized

/-- What becomes of a member of a class that is migrated by a plan. -/
inductive Changed (scope : TypeScope) (plan : ClassPlan) : Member → Member → Prop
  | same (member : Member) : Changed scope plan member member
  /-- The planned constructor becomes a method. -/
  | constructor (decl : Method)
      (planned : plan.constructorId = some decl.id)
      (isConstructor : decl.isConstructor = true) :
      Changed scope plan (.method decl) (.method { decl with
        returnType := some "void"
        typeSpace := " "
        name := plan.initializerName })
  /-- The factory loses its mark. -/
  | factory (decl : Method) (mark : Annotation)
      (marked : Marker.find? [.parameters] scope decl.annotations = some mark) :
      Changed scope plan (.method decl) (.method (decl.eraseAnnotation mark.id))
  /-- A test takes the planned parameters. -/
  | test (decl : Method) (mark : Annotation) (annotations : List Annotation) (body : Option Block)
      (marked : Marker.find? [.test, .jupiterTest] scope decl.annotations = some mark) :
      Changed scope plan (.method decl) (.method { decl with
        annotations
        parameters := ClassMigration.testParameters plan.parameters
        emptySpace := ""
        body })
  /-- A planned field loses its mark. -/
  | field (decl : Field) (mark : Annotation)
      (planned : decl.id ∈ plan.fieldIds)
      (marked : Marker.find? [.parameter] scope decl.annotations = some mark) :
      Changed scope plan (.field decl) (.field (decl.eraseAnnotation mark.id))

/-- The members that a plan appends to a class: at most a method, the new initializer. -/
inductive Appended (plan : ClassPlan) : List Member → Prop
  | none (converted : plan.newInitializer = none) : Appended plan []
  | initializer (decl : Method) (lines : List String) (body : String)
      (asked : plan.newInitializer = some lines)
      (named : decl.name = plan.initializerName)
      (isVoid : decl.returnType = some "void")
      (made : Template.Made initializerTemplate
        [.text plan.initializerName,
          .sequence (plan.parameters.map fun parameter => .node (.parameter parameter.node)),
          .text body] (.method decl)) :
      Appended plan [.method decl]

/-- A class after it has been migrated by a plan. -/
structure RewrittenBy (scope : TypeScope) (plan : ClassPlan) (inner result : ClassDecl) : Prop where
  head : result.toClassHead = (withoutRunner scope inner).toClassHead
  members : ∃ changed appended, result.members = changed ++ appended ∧
    List.Forall₂ (Changed scope plan) inner.members changed ∧ Appended plan appended

/--
What becomes of a class that has one of some plans, whose initializer is called after the class.
-/
def Rewrites
    (scope : TypeScope)
    (plans : List (Nat × ClassPlan))
    (entered inner result : ClassDecl) : Prop :=
  ∃ plan, (entered.id, plan) ∈ plans ∧ plan.initializerName = "init" ++ entered.name ∧
    RewrittenBy scope plan inner result

theorem withoutRunner_members (scope : TypeScope) (decl : ClassDecl) :
    (withoutRunner scope decl).members = decl.members := by
  unfold withoutRunner
  split <;> rfl

theorem withoutRunner_lead (scope : TypeScope) (decl : ClassDecl) :
    (withoutRunner scope decl).lead = decl.lead := by
  unfold withoutRunner
  split <;> rfl

theorem withoutRunner_name (scope : TypeScope) (decl : ClassDecl) :
    (withoutRunner scope decl).name = decl.name := by
  unfold withoutRunner
  split <;> rfl

/-! ## The new initializer -/

open Java (isWord isNamePart)

theorem splitOn_initializerTemplate :
    Text.splitOn initializerTemplate Template.placeholder =
      ["public void ", "(", ") \x7b", "\n\x7d"] := by
  decide

theorem text_of_render
    {name text : String}
    {second : Template.Value}
    {more : List Template.Value}
    (rendered : Template.render initializerTemplate (.text name :: second :: more) = .ok text) :
    ∃ rest, text = "public void " ++ name ++ "(" ++ rest := by
  obtain ⟨texts, bound, text_eq⟩ := Template.weave_of_render rendered
  obtain ⟨_, others, first_eq, boundOthers, rfl⟩ := Template.bindAll_cons bound
  obtain ⟨parameters, body, -, -, rfl⟩ := Template.bindAll_cons boundOthers
  cases first_eq
  rw [splitOn_initializerTemplate, Template.weave, Template.weave] at text_eq
  refine ⟨parameters ++ Template.weave [") \x7b", "\n\x7d"] body, ?_⟩
  rw [text_eq, ← String.append_assoc, ← String.append_assoc, ← String.append_assoc]

/-- What is made from the template of initializers is a method with the name of the initializer. -/
theorem method_of_made
    {className : String}
    {second : Template.Value}
    {more : List Template.Value}
    {member : Member}
    (namePart : isNamePart className = true)
    (made : Template.Made initializerTemplate (.text ("init" ++ className) :: second :: more)
      member) :
    ∃ decl, member = .method decl ∧ decl.name = "init" ++ className ∧
      decl.returnType = some "void" := by
  obtain ⟨text, indent, lead, unnumbered, next, rendered, read, rfl⟩ := made
  obtain ⟨rest, rfl⟩ := text_of_render rendered
  have spelled : isWord ("init" ++ className) = true := Java.isWord_append (by decide) namePart
  have oneLine : '\n' ∉ ("public void " ++ ("init" ++ className) ++ "(").toList := by
    have inWord := Java.not_mem_of_isNamePart (Java.isNamePart_of_isWord spelled) (c := '\n')
      (by decide)
    rw [String.toList_append, String.toList_append, List.mem_append, List.mem_append, not_or,
      not_or]
    exact ⟨⟨by decide, inWord⟩, by decide⟩
  rw [Layout.shift_append oneLine] at read
  obtain ⟨decl, rfl, name_eq, isVoid⟩ := Snippet.method_of_readMember spelled read
  obtain ⟨_, _, _, numbered_eq⟩ := { decl with lead }.numbered_run next
  refine ⟨({ decl with lead }.numbered.run next).1, rfl, ?_, ?_⟩
  · rw [numbered_eq]
    exact name_eq
  · rw [numbered_eq]
    exact isVoid

/-! ## The names of classes -/

theorem map_name_classes_of_changed
    {scope : TypeScope}
    {plan : ClassPlan}
    {member other : Member}
    (changed : Changed scope plan member other) :
    other.classes.map (·.name) = member.classes.map (·.name) := by
  cases changed with
  | same => rfl
  | constructor | factory | test | field =>
      rw [Member.classes_eq_nil rfl, Member.classes_eq_nil rfl]

/-- A migrated class keeps its name and the names of the classes in it. -/
theorem keepsNames (scope : TypeScope) (plans : List (Nat × ClassPlan)) :
    Member.KeepsNames (Rewrites scope plans) := by
  rintro entered inner result ⟨plan, -, -, rewrittenBy⟩
  obtain ⟨changed, appended, members_eq, each, appendedBy⟩ := rewrittenBy.members
  have appended_eq : Member.classNames appended = [] := by
    cases appendedBy with
    | none => rfl
    | initializer decl =>
        rw [Member.classNames_cons, Member.classes_eq_nil rfl]
        rfl
  constructor
  · rw [rewrittenBy.head, withoutRunner_name]
  · rw [members_eq, Member.classNames_append, appended_eq, List.append_nil,
      Member.classNames_eq_of_forall₂ (fun _ _ => map_name_classes_of_changed) each]

/-! ## Migrating a class -/

open Synthesis

namespace ClassMigration

variable {migration : ClassMigration} {earlier later : Session}

/-- A migrated test has new annotations in place of its mark, the planned parameters and a body. -/
theorem makes_migrateTest
    {decl result : Method}
    {mark : Annotation}
    (makes : (migration.migrateTest decl mark).Makes earlier result later) :
    ∃ warned replacement annotated body, earlier.nextId ≤ warned.nextId ∧
      (migration.testAnnotations decl mark).Makes warned replacement annotated ∧
      (decl.body.mapM (migration.testBody decl)).Makes annotated body later ∧
      result = { decl with
        annotations := replaceMark mark replacement decl.annotations
        parameters := testParameters migration.plan.parameters
        emptySpace := ""
        body } := by
  have afterWarning {session : Session}
      (rest : (do
        let replacement ← migration.testAnnotations decl mark
        let body ← decl.body.mapM (migration.testBody decl)
        return { decl with
          annotations := replaceMark mark replacement decl.annotations
          parameters := testParameters migration.plan.parameters
          emptySpace := ""
          body } : Synthesis Method).Makes session result later) :
      ∃ replacement annotated body,
        (migration.testAnnotations decl mark).Makes session replacement annotated ∧
        (decl.body.mapM (migration.testBody decl)).Makes annotated body later ∧
        result = { decl with
          annotations := replaceMark mark replacement decl.annotations
          parameters := testParameters migration.plan.parameters
          emptySpace := ""
          body } := by
    obtain ⟨replacement, annotated, makesUses, rest⟩ := makes_bind.mp rest
    obtain ⟨body, last, makesBody, rest⟩ := makes_bind.mp rest
    obtain ⟨rfl, rfl⟩ := makes_pure.mp rest
    exact ⟨replacement, annotated, body, makesUses, makesBody, rfl⟩
  unfold migrateTest at makes
  dsimp only at makes
  split at makes
  · obtain ⟨_, warned, makesWarning, rest⟩ := makes_bind.mp makes
    obtain ⟨-, rfl⟩ := makes_lift.mp makesWarning
    obtain ⟨replacement, annotated, body, parts⟩ := afterWarning rest
    refine ⟨_, replacement, annotated, body, ?_, parts⟩
    exact Nat.le_refl earlier.nextId
  · obtain ⟨replacement, annotated, body, parts⟩ := afterWarning makes
    exact ⟨earlier, replacement, annotated, body, Nat.le_refl _, parts⟩

theorem changed_of_migrateMethod
    {decl result : Method}
    (constructors : migration.plan.constructorId = some decl.id → decl.isConstructor = true)
    (makes : (migration.migrateMethod decl).Makes earlier result later) :
    Changed migration.scope migration.plan (.method decl) (.method result) := by
  unfold migrateMethod at makes
  split at makes
  · next planned =>
      obtain ⟨rfl, -⟩ := makes_pure.mp makes
      exact .constructor decl planned (constructors planned)
  · split at makes
    · next mark marked =>
        obtain ⟨rfl, -⟩ := makes_pure.mp makes
        exact .factory decl mark marked
    · next mark _ marked =>
        obtain ⟨_, replacement, _, body, -, -, -, rfl⟩ := makes_migrateTest makes
        exact .test decl mark _ body marked
    · obtain ⟨rfl, -⟩ := makes_pure.mp makes
      exact .same _

theorem changed_migrateField (decl : Field) :
    Changed migration.scope migration.plan (.field decl)
      (.field (migration.migrateField decl)) := by
  unfold migrateField
  split
  · next planned =>
      split
      · next mark marked => exact .field decl mark (by simpa using planned) marked
      · exact .same _
  · exact .same _

theorem changed_of_migrateMember
    {member result : Member}
    (constructors : ∀ decl, member = .method decl → migration.plan.constructorId = some decl.id →
      decl.isConstructor = true)
    (makes : (migration.migrateMember member).Makes earlier result later) :
    Changed migration.scope migration.plan member result := by
  cases member with
  | method decl =>
      obtain ⟨migrated, middle, makesMethod, rest⟩ := makes_bind.mp makes
      obtain ⟨rfl, -⟩ := makes_pure.mp rest
      exact changed_of_migrateMethod (constructors decl rfl) makesMethod
  | field decl =>
      obtain ⟨rfl, -⟩ := makes_pure.mp makes
      exact changed_migrateField decl
  | importDecl decl | verbatim decl | classDecl head members =>
      obtain ⟨rfl, -⟩ := makes_pure.mp makes
      exact .same _

theorem appended_of_newInitializer
    {results : List Member}
    {className : String}
    (named : migration.plan.initializerName = "init" ++ className)
    (namePart : isNamePart className = true)
    (makes : migration.newInitializer.Makes earlier results later) :
    Appended migration.plan results := by
  unfold newInitializer at makes
  dsimp only at makes
  split at makes
  · next converted =>
      obtain ⟨rfl, -⟩ := makes_pure.mp makes
      exact .none converted
  · next lines asked =>
      obtain ⟨member, middle, makesMember, rest⟩ := makes_bind.mp makes
      obtain ⟨rfl, -⟩ := makes_pure.mp rest
      have made := Template.made_of_makes makesMember
      obtain ⟨decl, rfl, name_eq, isVoid⟩ := method_of_made namePart (named ▸ made)
      exact .initializer decl lines _ asked (name_eq.trans named.symm) isVoid made

end ClassMigration

/-- What the migration of a class makes. -/
theorem rewrittenBy_of_makes
    {scope : TypeScope}
    {layout : Layout}
    {plan : ClassPlan}
    {inner result : ClassDecl}
    {earlier later : Session}
    {className : String}
    (named : plan.initializerName = "init" ++ className)
    (namePart : isNamePart className = true)
    (constructors : ∀ decl, .method decl ∈ inner.members → plan.constructorId = some decl.id →
      decl.isConstructor = true)
    (makes : (migrateClass scope layout plan inner).Makes earlier result later) :
    RewrittenBy scope plan inner result := by
  obtain ⟨changed, middle, makesMembers, rest⟩ := makes_bind.mp makes
  obtain ⟨appended, last, makesInitializer, rest⟩ := makes_bind.mp rest
  obtain ⟨rfl, -⟩ := makes_pure.mp rest
  have each := forall₂_of_mapM makesMembers
  rw [withoutRunner_members] at each
  refine ⟨rfl, changed, appended, rfl, ?_,
    ClassMigration.appended_of_newInitializer named namePart makesInitializer⟩
  have inside := (List.forall₂_and_left _ _).mpr ⟨fun _ member => member, each⟩
  refine inside.imp fun member other makesMember => ?_
  obtain ⟨member_mem, before, after, makes⟩ := makesMember
  refine ClassMigration.changed_of_migrateMember (fun decl same planned => ?_) makes
  exact constructors decl (same ▸ member_mem) planned

/-! ## Deciding about a class -/

theorem decides
    {unit : SourceUnit}
    {next : Nat}
    {plans : List (Nat × ClassPlan)}
    (wellFormed : Member.WellFormed unit.nonImports next)
    (plansIn : ∀ id plan, (id, plan) ∈ plans → plan.IsIn unit.walk id)
    (scope : TypeScope)
    (layout : Layout) :
    Member.Decides (Rewrites scope plans) (decide scope layout plans) unit.nonImports := by
  refine decides_decideByPlan plans _ (records_migrateClass scope layout) ?_
  intro head members inner rewritten plan result earlier later inside revised planned makes
  have classInside := Member.mem_classesAll.mp inside
  have planIn := plansIn head.id plan planned
  obtain ⟨_, ⟨other, otherMembers, otherInside, sameId, rfl⟩, named⟩ := planIn.named
  have otherBelow := SourceUnit.mem_walkAll_nonImports otherInside rfl
  cases wellFormed.distinct.eq_of_id_eq otherBelow classInside rfl rfl sameId
  have namePart := wellFormed.namePart head.name (Member.mem_classNames classInside)
  refine ⟨plan, planned, named,
    rewrittenBy_of_makes named namePart (fun decl member own => ?_) makes⟩
  have declInside : Node.member (.method decl) ∈ Member.walkAll unit.nonImports :=
    (Member.walkAll_sublist_walkAll _ classInside).subset
      (Member.mem_walkAll_of_mem (revised.mem_of_noClass member rfl))
  obtain ⟨constructor, ⟨constructorInside, isConstructor⟩, sameId⟩ := planIn.constructor decl.id own
  have constructorBelow := SourceUnit.mem_walkAll_nonImports constructorInside rfl
  cases wellFormed.distinct.eq_of_id_eq constructorBelow declInside rfl rfl sameId
  exact isConstructor

/-! ## Numbers -/

namespace ClassMigration

theorem replaceMark_cons
    (mark : Annotation)
    (replacement : List Annotation)
    (first : Annotation)
    (rest : List Annotation) :
    replaceMark mark replacement (first :: rest) =
      (if first.id = mark.id then replacement else [first]) ++ replaceMark mark replacement rest :=
  rfl

theorem replaceMark_of_not_mem
    {mark : Annotation}
    {uses : List Annotation}
    (absent : mark.id ∉ uses.map Annotation.id)
    (replacement : List Annotation) : replaceMark mark replacement uses = uses := by
  induction uses with
  | nil => rfl
  | cons first rest inductionHypothesis =>
      rw [List.map_cons, List.mem_cons, not_or] at absent
      rw [replaceMark_cons, if_neg (Ne.symm absent.1), inductionHypothesis absent.2]
      rfl

/-- With new annotations in place of a mark, no number is repeated. -/
theorem renewed_replaceMark
    {low high : Nat}
    {replacement : List Annotation}
    (fresh : Renewed low high [] (replacement.map Annotation.id))
    (mark : Annotation)
    (uses : List Annotation) :
    Renewed low high (uses.map Annotation.id)
      ((replaceMark mark replacement uses).map Annotation.id) := by
  have isFresh (id : Nat) (new : id ∈ replacement.map Annotation.id) : low ≤ id ∧ id < high :=
    (fresh.mem id new).resolve_left List.not_mem_nil
  induction uses with
  | nil => exact (Renewed.refl low []).widen fresh.le
  | cons first rest inductionHypothesis =>
      rw [replaceMark_cons, List.map_append, List.map_cons]
      split
      · next same =>
          refine ⟨fresh.le, fun id member => ?_, fun below distinct => ?_⟩
          · cases List.mem_append.mp member with
            | inl new => exact .inr (isFresh id new)
            | inr later =>
                exact (inductionHypothesis.mem id later).imp_left (List.mem_cons_of_mem _)
          · obtain ⟨absent, distinctRest⟩ := List.nodup_cons.mp distinct
            rw [replaceMark_of_not_mem (same ▸ absent), List.nodup_append]
            refine ⟨fresh.nodup (by simp) List.nodup_nil, distinctRest, ?_⟩
            intro id new other old sameId
            have least := (isFresh id new).1
            have bound := below other (List.mem_cons_of_mem _ old)
            omega
      · have front := Renewed.refl low [first.id]
        exact front.append inductionHypothesis

variable {migration : ClassMigration} {earlier later : Session}

theorem renewed_of_testAnnotations
    {decl : Method}
    {mark : Annotation}
    {results : List Annotation}
    (makes : (migration.testAnnotations decl mark).Makes earlier results later) :
    Renewed earlier.nextId later.nextId [] (results.map Annotation.id) := by
  unfold testAnnotations at makes
  obtain ⟨source, middle, makesSource, rest⟩ := makes_bind.mp makes
  have front := Template.renewed_annotationUse makesSource
  dsimp only at rest
  split at rest
  · obtain ⟨test, last, makesTest, rest⟩ := makes_bind.mp rest
    obtain ⟨rfl, rfl⟩ := makes_pure.mp rest
    exact front.append (Template.renewed_annotationUse makesTest)
  · obtain ⟨test, last, makesTest, rest⟩ := makes_bind.mp rest
    obtain ⟨rfl, rfl⟩ := makes_pure.mp rest
    exact front.append (Template.renewed_annotationUse makesTest)

theorem renewed_of_migrateMethod
    {decl result : Method}
    (makes : (migration.migrateMethod decl).Makes earlier result later) :
    Renewed earlier.nextId later.nextId (Member.method decl).ids (Member.method result).ids := by
  unfold migrateMethod at makes
  split at makes
  · obtain ⟨rfl, rfl⟩ := makes_pure.mp makes
    exact .of_sublist (by simp) _
  · split at makes
    · next mark marked =>
        obtain ⟨rfl, rfl⟩ := makes_pure.mp makes
        exact .of_sublist (Member.ids_eraseAnnotation_sublist mark.id (.method decl)) _
    · next mark _ marked =>
        obtain ⟨warned, replacement, annotated, body, le, makesUses, makesBody, rfl⟩ :=
          makes_migrateTest makes
        have uses := renewed_replaceMark (renewed_of_testAnnotations makesUses) mark
          decl.annotations
        have own := (Renewed.refl earlier.nextId [decl.id]).widen le
        have records := quiet.optionMapM (migration.records_testBody decl) decl.body
        rw [Member.ids_method, Member.ids_method]
        exact (own.append uses).widen (nextId_le_of_makes records makesBody)
    · obtain ⟨rfl, rfl⟩ := makes_pure.mp makes
      exact .refl _ _

theorem renewed_of_migrateMember
    {member result : Member}
    (makes : (migration.migrateMember member).Makes earlier result later) :
    Renewed earlier.nextId later.nextId member.ids result.ids := by
  cases member with
  | method decl =>
      obtain ⟨migrated, middle, makesMethod, rest⟩ := makes_bind.mp makes
      obtain ⟨rfl, rfl⟩ := makes_pure.mp rest
      exact renewed_of_migrateMethod makesMethod
  | field decl =>
      obtain ⟨rfl, rfl⟩ := makes_pure.mp makes
      refine .of_sublist ?_ _
      unfold migrateField
      split
      · split
        · exact Member.ids_eraseAnnotation_sublist _ (.field decl)
        · exact List.Sublist.refl _
      · exact List.Sublist.refl _
  | importDecl decl | verbatim decl | classDecl head members =>
      obtain ⟨rfl, rfl⟩ := makes_pure.mp makes
      exact .refl _ _

theorem renewed_of_newInitializer
    {results : List Member}
    (makes : migration.newInitializer.Makes earlier results later) :
    Renewed earlier.nextId later.nextId [] (Member.idsAll results) := by
  unfold newInitializer at makes
  dsimp only at makes
  split at makes
  · obtain ⟨rfl, rfl⟩ := makes_pure.mp makes
    exact .refl _ _
  · obtain ⟨member, middle, makesMember, rest⟩ := makes_bind.mp makes
    obtain ⟨rfl, rfl⟩ := makes_pure.mp rest
    rw [Member.idsAll_singleton]
    exact Template.renewed_member makesMember

end ClassMigration

theorem ids_withoutRunner_sublist (scope : TypeScope) (decl : ClassDecl) :
    (withoutRunner scope decl).toMember.ids.Sublist decl.toMember.ids := by
  unfold withoutRunner
  split
  · exact Member.ids_eraseAnnotation_sublist _ decl.toMember
  · exact List.Sublist.refl _

theorem renewed_of_migrateClass
    {scope : TypeScope}
    {layout : Layout}
    {plan : ClassPlan}
    {decl result : ClassDecl}
    {earlier later : Session}
    (makes : (migrateClass scope layout plan decl).Makes earlier result later) :
    Renewed earlier.nextId later.nextId decl.toMember.ids result.toMember.ids := by
  obtain ⟨changed, middle, makesMembers, rest⟩ := makes_bind.mp makes
  obtain ⟨appended, last, makesInitializer, rest⟩ := makes_bind.mp rest
  obtain ⟨rfl, rfl⟩ := makes_pure.mp rest
  have head := ids_withoutRunner_sublist scope decl
  have members := renewed_of_mapM
    (fun _ _ _ _ => ClassMigration.renewed_of_migrateMember) makesMembers
  have all := members.append (ClassMigration.renewed_of_newInitializer makesInitializer)
  have front := Renewed.refl earlier.nextId ((withoutRunner scope decl).id ::
    (withoutRunner scope decl).annotations.map Annotation.id)
  refine (Renewed.of_sublist head _).trans ?_
  rw [ClassDecl.toMember, ClassDecl.toMember, Member.ids_classDecl, Member.ids_classDecl,
    Member.idsAll_append]
  rw [List.append_nil] at all
  exact front.append all

theorem renews (scope : TypeScope) (layout : Layout) (plans : List (Nat × ClassPlan)) :
    Member.Renews (decide scope layout plans) :=
  renews_decideByPlan plans _ (records_migrateClass scope layout) fun _ _ _ _ _ makes =>
    renewed_of_migrateClass makes

end Parameterized

end JupiterMigration
