import JupiterMigration.ExpectedException.ClassMigration
import JupiterMigration.Parameterized.ClassMigration
import JupiterMigration.Proofs.Session

/-!
# What traversals keep

A visit is of a kind of steps if its hooks are on the nodes of the tree (`Visitor.holds_visit`).

An editor that changes classes only does what `Member.rewrite` does: it goes through the members of
a class first and then decides about the class (`Editor.apply_editMember_ofClasses`).
-/

namespace JupiterMigration

namespace Visitor

variable {m : Type → Type} [Monad m] (kind : StepKind m) (visitor : Visitor m)

/-- The hooks of a visitor are of a kind on some nodes, below others of them. -/
structure HoldsOn (nodes : List Node) : Prop where
  enter : ∀ above, above ⊆ nodes → ∀ node ∈ nodes, kind.Holds (visitor.enter above node)
  leave : ∀ above, above ⊆ nodes → ∀ node ∈ nodes, kind.Holds (visitor.leave above node)

variable {kind visitor} {nodes above : List Node}

theorem holds_around
    {node : Node}
    {visitChildren : List Node → m Unit}
    (holds : HoldsOn kind visitor nodes)
    (aboveInside : above ⊆ nodes)
    (inside : node ∈ nodes)
    (children : ∀ inner, inner ⊆ nodes → kind.Holds (visitChildren inner)) :
    kind.Holds (visitor.around above node visitChildren) := by
  unfold around
  refine kind.bind (holds.enter above aboveInside node inside) fun enters => ?_
  split
  · exact kind.bind (children _ (List.cons_subset.mpr ⟨inside, aboveInside⟩)) fun _ =>
      holds.leave above aboveInside node inside
  · exact holds.leave above aboveInside node inside

theorem holds_visitLeaf
    {node : Node}
    (holds : HoldsOn kind visitor nodes)
    (aboveInside : above ⊆ nodes)
    (inside : node ∈ nodes) : kind.Holds (visitor.visitLeaf above node) :=
  holds_around holds aboveInside inside fun _ _ => kind.pure _

theorem holds_visitAnnotations
    {uses : List Annotation}
    (holds : HoldsOn kind visitor nodes)
    (aboveInside : above ⊆ nodes)
    (inside : uses.map .annotationUse ⊆ nodes) :
    kind.Holds (visitor.visitAnnotations above uses) :=
  kind.forM fun _ isUse => holds_visitLeaf holds aboveInside (inside (List.mem_map_of_mem isUse))

theorem holds_visitBlock
    {block : Block}
    (holds : HoldsOn kind visitor nodes)
    (aboveInside : above ⊆ nodes)
    (inside : block.walk ⊆ nodes) : kind.Holds (visitor.visitBlock above block) := by
  rw [Block.walk, List.cons_subset] at inside
  refine holds_around holds aboveInside inside.1 fun inner innerInside => kind.forM ?_
  intro statement isStatement
  exact holds_visitLeaf holds innerInside (inside.2 (List.mem_map_of_mem isStatement))

theorem holds_visitInMethod
    {method : Method}
    (holds : HoldsOn kind visitor nodes)
    (aboveInside : above ⊆ nodes)
    (inside : method.walkBelow ⊆ nodes) : kind.Holds (visitor.visitInMethod method above) := by
  rw [Method.walkBelow, List.append_subset, List.append_subset] at inside
  obtain ⟨⟨annotations, parameters⟩, body⟩ := inside
  unfold visitInMethod
  refine kind.bind (holds_visitAnnotations holds aboveInside annotations) fun _ => ?_
  refine kind.bind (kind.forM fun parameter isParameter => ?_) fun _ => ?_
  · exact holds_visitLeaf holds aboveInside (parameters (List.mem_map_of_mem isParameter))
  · cases body_eq : method.body with
    | none => exact kind.pure _
    | some block =>
        rw [body_eq] at body
        exact holds_visitBlock holds aboveInside body

mutual

theorem holds_visitMember
    (holds : HoldsOn kind visitor nodes)
    (member : Member)
    (inside : member.walk ⊆ nodes)
    {above : List Node}
    (aboveInside : above ⊆ nodes) : kind.Holds (visitor.visitMember above member) := by
  cases member with
  | importDecl decl | verbatim decl =>
      exact holds_visitLeaf holds aboveInside (inside List.mem_cons_self)
  | field decl =>
      rw [Member.walk, List.cons_subset] at inside
      exact holds_around holds aboveInside inside.1 fun inner innerInside =>
        holds_visitAnnotations holds innerInside inside.2
  | method decl =>
      rw [Member.walk, List.cons_subset] at inside
      exact holds_around holds aboveInside inside.1 fun inner innerInside =>
        holds_visitInMethod holds innerInside inside.2
  | classDecl head members =>
      rw [Member.walk, List.cons_subset, List.append_subset] at inside
      rw [visitMember]
      refine holds_around holds aboveInside inside.1 fun inner innerInside => ?_
      exact kind.bind (holds_visitAnnotations holds innerInside inside.2.1) fun _ =>
        holds_visitMembers holds members inside.2.2 innerInside

theorem holds_visitMembers
    (holds : HoldsOn kind visitor nodes)
    (members : List Member)
    (inside : Member.walkAll members ⊆ nodes)
    {above : List Node}
    (aboveInside : above ⊆ nodes) : kind.Holds (visitor.visitMembers above members) := by
  cases members with
  | nil => exact kind.pure _
  | cons first rest =>
      rw [Member.walkAll, List.append_subset] at inside
      rw [visitMembers]
      exact kind.bind (holds_visitMember holds first inside.1 aboveInside) fun _ =>
        holds_visitMembers holds rest inside.2 aboveInside

end

/-- A visit is of a kind of steps if the hooks are on the nodes of the file. -/
theorem holds_visit
    {unit : SourceUnit}
    (holds : HoldsOn kind visitor unit.walk) : kind.Holds (visitor.visit unit) :=
  holds_around holds (List.nil_subset _) List.mem_cons_self fun _ innerInside =>
    holds_visitMembers holds unit.members (List.subset_cons_self _ _) innerInside

end Visitor

/-! ## Editors that change classes only -/

namespace Member

variable {m : Type → Type} [Monad m]

mutual

/--
Rewrites the classes in a declaration, the nested ones first; `change` decides about a class as it
was and as its rewritten members make it.
-/
def rewrite (change : ClassDecl → ClassDecl → m (Edit Member)) : Member → m (Option Member)
  | classDecl head members => do
    let inner ← rewriteAll change members
    let edit ← change ⟨head, members⟩ ⟨head, inner⟩
    return edit.apply (classDecl head inner)
  | member => return some member

/-- Rewrites the classes in some declarations. -/
def rewriteAll (change : ClassDecl → ClassDecl → m (Edit Member)) :
    List Member → m (List Member)
  | [] => return []
  | first :: rest => do
    let head ← rewrite change first
    let others ← rewriteAll change rest
    return head.toList ++ others

end

variable {kind : StepKind m} {change : ClassDecl → ClassDecl → m (Edit Member)}

mutual

theorem holds_rewrite
    (each : ∀ entered decl, kind.Holds (change entered decl))
    (member : Member) : kind.Holds (rewrite change member) := by
  cases member with
  | classDecl head members =>
      rw [rewrite]
      refine kind.bind (holds_rewriteAll each members) fun inner => ?_
      exact kind.bind (each _ _) fun _ => kind.pure _
  | _ => exact kind.pure _

/-- Rewriting classes is of a kind of steps if every decision about a class is. -/
theorem holds_rewriteAll
    (each : ∀ entered decl, kind.Holds (change entered decl))
    (members : List Member) : kind.Holds (rewriteAll change members) := by
  cases members with
  | nil => exact kind.pure _
  | cons first rest =>
      rw [rewriteAll]
      refine kind.bind (holds_rewrite each first) fun _ => ?_
      exact kind.bind (holds_rewriteAll each rest) fun _ => kind.pure _

end

end Member

namespace Editor

variable {m : Type → Type} [Monad m]

/-- The editor that decides about classes and keeps everything else. -/
def ofClasses (change : ClassDecl → ClassDecl → m (Edit Member)) : Editor m :=
  { identity with
    leaveMember := fun leaving =>
      match leaving.entered.class?, leaving.current.class? with
      | some entered, some decl => change entered decl
      | _, _ => return .keep }

variable [LawfulMonad m] (change : ClassDecl → ClassDecl → m (Edit Member))

theorem editList_eq_none
    {α : Type}
    {edit : α → m (Edit α)}
    (keeps : ∀ item, edit item = pure .keep)
    (items : List α) : editList edit items = pure none := by
  induction items with
  | nil => rfl
  | cons first rest inductionHypothesis => simp [editList, keeps, inductionHypothesis, combine]

theorem editAnnotations_ofClasses (above : List Node) (uses : List Annotation) :
    (ofClasses change).editAnnotations above uses = pure none := by
  refine editList_eq_none (fun use => ?_) uses
  simp [ editAnnotation, inside, ofClasses, identity, Edit.after, Edit.ofUpdate]

theorem editBlock_ofClasses (above : List Node) (block : Block) :
    (ofClasses change).editBlock above block = pure none := by
  have statements (inner : List Node) :
      editList ((ofClasses change).editStatement inner) block.statements = pure none := by
    refine editList_eq_none (fun statement => ?_) block.statements
    simp [editStatement, inside, ofClasses, identity, Edit.after, Edit.ofUpdate]
  unfold editBlock
  simp only [statements]
  simp [inside, ofClasses, identity]

theorem editInMethod_ofClasses (method : Method) (above : List Node) :
    (ofClasses change).editInMethod method above = pure none := by
  have parameters :
      editList ((ofClasses change).editParameter above) method.parameters = pure none := by
    refine editList_eq_none (fun parameter => ?_) method.parameters
    simp [editParameter, inside, ofClasses, identity, Edit.after, Edit.ofUpdate]
  unfold editInMethod
  rw [ editAnnotations_ofClasses, parameters]
  cases method.body with
  | none => simp
  | some block => simp [editBlock_ofClasses]

/-- The first declaration and the others, both edited, are the edited list. -/
theorem getD_combine
    {α : Type}
    (first : α)
    (rest : List α)
    (edit : Edit α)
    (update : Option (List α)) :
    (combine first rest edit update).getD (first :: rest) =
      (edit.apply first).toList ++ update.getD rest := by
  cases edit <;> cases update <;> rfl

mutual

/-- The editor does to a declaration what rewriting its classes does. -/
theorem apply_editMember_ofClasses (above : List Node) (member : Member) :
    (fun edit => edit.apply member) <$> (ofClasses change).editMember above member =
      member.rewrite change := by
  cases member with
  | importDecl decl =>
      simp [editMember, inside, ofClasses, identity, Edit.after, Edit.ofUpdate, Edit.apply,
        Member.rewrite, Member.class?]
  | verbatim decl =>
      simp [editMember, inside, ofClasses, identity, Edit.after, Edit.ofUpdate, Edit.apply,
        Member.rewrite, Member.class?]
  | field decl =>
      rw [editMember]
      simp only [ editAnnotations_ofClasses]
      simp [inside, ofClasses, identity, Edit.after, Edit.ofUpdate, Edit.apply, Member.rewrite,
        Member.class?]
  | method decl =>
      rw [editMember]
      simp only [editInMethod_ofClasses]
      simp [inside, ofClasses, identity, Edit.after, Edit.ofUpdate, Edit.apply, Member.rewrite,
        Member.class?]
  | classDecl head members =>
      have inner := getD_editMembers_ofClasses
        (.member (.classDecl head members) :: above) members
      have enters : (ofClasses change).enter above (.member (.classDecl head members)) =
          pure true := rfl
      rw [editMember, Member.rewrite, ← inner]
      simp only [ editAnnotations_ofClasses, inside, enters, pure_bind, bind_assoc, map_bind,
        bind_map_left, map_pure, if_true]
      refine bind_congr fun update => ?_
      cases update with
      | none =>
          simp only [Option.isNone_none, Bool.and_self, if_true, pure_bind]
          refine bind_congr fun edit => ?_
          cases edit <;> rfl
      | some others =>
          simp only [Option.isNone_none, Option.isNone_some, Bool.and_false, Bool.false_eq_true,
            if_false, pure_bind]
          refine bind_congr fun edit => ?_
          cases edit <;> rfl

theorem getD_editMembers_ofClasses (above : List Node) (members : List Member) :
    (fun update => update.getD members) <$> (ofClasses change).editMembers above members =
      Member.rewriteAll change members := by
  cases members with
  | nil => simp [editMembers, Member.rewriteAll]
  | cons first rest =>
      have head := apply_editMember_ofClasses above first
      have tail := getD_editMembers_ofClasses above rest
      rw [editMembers, Member.rewriteAll, ← head, ← tail]
      simp only [map_bind, bind_map_left, map_pure, getD_combine]

end

/-- The editor does to a file what rewriting the classes of its members does. -/
theorem getD_edit_ofClasses (unit : SourceUnit) :
    (fun edit => (edit.apply unit).getD unit) <$> (ofClasses change).edit unit =
      (fun members => { unit with members }) <$> Member.rewriteAll change unit.members := by
  have inner := getD_editMembers_ofClasses change [.sourceUnit unit] unit.members
  have enters : (ofClasses change).enter [] (.sourceUnit unit) = pure true := rfl
  have keeps (update : Option SourceUnit) :
      (ofClasses change).leaveUnit ⟨[], unit, update⟩ = pure .keep := rfl
  rw [edit, ← inner]
  simp only [inside, enters, keeps, pure_bind, bind_assoc, if_true, map_eq_pure_bind]
  refine bind_congr fun update => ?_
  cases update <;> rfl

/-- Editing the classes of a file with a state is rewriting its members with it. -/
theorem run_edit_ofClasses
    {σ α : Type}
    (change : ClassDecl → ClassDecl → StateT σ Migration (Edit Member))
    (unit : SourceUnit)
    (start : σ)
    (result : SourceUnit → σ → α) :
    (do
      let (edit, state) ← ((ofClasses change).edit unit).run start
      return result ((edit.apply unit).getD unit) state : Migration α) =
    (do
      let (members, state) ← (Member.rewriteAll change unit.members).run start
      return result { unit with members } state : Migration α) := by
  have edits := congrArg (fun step => step.run start) (getD_edit_ofClasses change unit)
  simp only [StateT.run_map] at edits
  have viewed := congrArg (fun step => (fun pair => result pair.1 pair.2) <$> step) edits
  simp only [map_eq_pure_bind, bind_assoc, pure_bind] at viewed
  exact viewed

end Editor

/-! ## Migrating planned classes -/

/--
The decision about a class that may have a plan: it is migrated by its plan, and kept if that fails.
-/
def decideByPlan
    {Plan σ : Type}
    (plans : List (Nat × Plan))
    (migrate : Plan → ClassDecl → Synthesis ClassDecl)
    (note : String → Plan → σ → σ)
    (entered decl : ClassDecl) : StateT σ Migration (Edit Member) := do
  match plans.lookup entered.id with
  | none => return .keep
  | some plan =>
    match ← (migrate plan decl).run with
    | .error error =>
      (Migration.warn (entered.name ++ ": reverted, synthesis failed: " ++ error.message) :
        Migration Unit)
      return .keep
    | .ok result =>
      modify (note entered.name plan)
      (Migration.record (.transformed "ClassNode" decl.print result.print) : Migration Unit)
      return .replace result.toMember

namespace Parameterized

/-- The decision of the recipe about a class. -/
def decide (scope : TypeScope) (layout : Layout) (plans : List (Nat × ClassPlan)) :
    ClassDecl → ClassDecl → Migrating (Edit Member) :=
  decideByPlan plans (migrateClass scope layout) fun name _ names => names ++ [name]

theorem leaveClass_eq (scope : TypeScope) (layout : Layout) (plans : List (Nat × ClassPlan)) :
    leaveClass scope layout plans = decide scope layout plans := by
  funext entered decl
  unfold leaveClass decide decideByPlan
  cases plans.lookup entered.id <;> rfl

/-- Migrating the planned classes of a file is rewriting its members. -/
theorem migrate_eq (layout : Layout) (plans : List (Nat × ClassPlan)) (unit : SourceUnit) :
    migrate layout plans unit = (do
      let (members, migrated) ← (Member.rewriteAll
        (decide (TypeScope.ofUnit unit) layout plans) unit.members).run []
      return ({ unit with members }, migrated)) := by
  have editor_eq : classEditor (TypeScope.ofUnit unit) layout plans =
      Editor.ofClasses (decide (TypeScope.ofUnit unit) layout plans) := by
    rw [← leaveClass_eq]
    rfl
  unfold migrate
  rw [editor_eq]
  exact Editor.run_edit_ofClasses (decide (TypeScope.ofUnit unit) layout plans) unit [] Prod.mk

end Parameterized

namespace ExpectedException

/-- The decision of the recipe about a class. -/
def decide (layout : Layout) (plans : List (Nat × RulePlan)) :
    ClassDecl → ClassDecl → Migrating (Edit Member) :=
  decideByPlan plans (migrateClass layout) Progress.add

theorem leaveClass_eq (layout : Layout) (plans : List (Nat × RulePlan)) :
    leaveClass layout plans = decide layout plans := by
  funext entered decl
  unfold leaveClass decide decideByPlan
  cases plans.lookup entered.id <;> rfl

/-- Migrating the planned classes of a file is rewriting its members. -/
theorem migrate_eq (layout : Layout) (plans : List (Nat × RulePlan)) (unit : SourceUnit) :
    migrate layout plans unit = (do
      let (members, progress) ← (Member.rewriteAll
        (decide layout plans) unit.members).run .start
      return ({ unit with members }, progress)) := by
  have editor_eq : classEditor layout plans = Editor.ofClasses (decide layout plans) := by
    rw [← leaveClass_eq]
    rfl
  unfold migrate
  rw [editor_eq]
  exact Editor.run_edit_ofClasses (decide layout plans) unit .start Prod.mk

end ExpectedException

end JupiterMigration
