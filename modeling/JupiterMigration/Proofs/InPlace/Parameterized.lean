import JupiterMigration.Proofs.InPlace.Annotations
import JupiterMigration.Proofs.InPlace.Classes
import JupiterMigration.Proofs.Initialization.Positions

/-!
# Parameterized classes in place

The plan for a parameterized class names a constructor or fields by their numbers.  They are members
of the class the plan is made from, and can be told by what they are (`ClassPlan.PicksOut`).  So the
recipe does what it would do without numbers (`Parameterized.apply_stages_eq`): every class is
migrated by the plan that is made from the class itself, every marked field, every constructor, the
factory and the tests by what they are, and every mark where it stands.
-/

namespace JupiterMigration

namespace Parameterized

/-! ## What a plan picks out -/

/-- Whether a field is marked as one that receives an argument. -/
def isMarked (scope : TypeScope) (field : Field) : Bool :=
  (Marker.find? [.parameter] scope field.annotations).isSome

/--
The constructor and the fields that a plan names among the members of a class: the constructor where
there is no new initializer, and otherwise the marked fields.
-/
structure ClassPlan.PicksOut (scope : TypeScope) (members : List Member) (plan : ClassPlan) :
    Prop where
  constructor : ∀ decl, .method decl ∈ members →
    (plan.constructorId = some decl.id ↔
      plan.newInitializer = none ∧ decl.isConstructor = true)
  field : ∀ decl, .field decl ∈ members →
    (decl.id ∈ plan.fieldIds ↔ plan.newInitializer.isSome = true ∧ isMarked scope decl = true)
  fieldIds : ∀ id ∈ plan.fieldIds, ∃ decl, .field decl ∈ members ∧ decl.id = id

variable {scope : TypeScope} {observations : List Observation} {className : String}

theorem Observation.malformed_record (observation : Observation) (facts : Facts) :
    facts.malformed <+: (observation.record facts).malformed := by
  cases observation with
  | factory method mark =>
      rw [record, Facts.recordFactory]
      split <;> exact List.prefix_refl _
  | constructor method delegating =>
      rw [record, Facts.recordConstructor]
      dsimp only
      split <;> exact List.prefix_refl _
  | field position decl =>
      rw [record, Facts.recordField]
      split <;> exact List.prefix_refl _
  | malformed note => exact List.prefix_append _ _

/-- A class that is planned has no malformed members. -/
theorem not_mem_of_planOf
    {plan : ClassPlan}
    (planned : planOf className observations = .ok (some plan))
    (note : String) : .malformed note ∉ observations := by
  intro inside
  have accepted : (Facts.ofObservations className observations).malformed = [] := by
    unfold planOf classPlan at planned
    split at planned
    · cases planned
    · split at planned
      · cases planned
      · next wellFormed => simpa using wellFormed
  obtain ⟨front, back, rfl⟩ := List.append_of_mem inside
  rw [Facts.ofObservations, List.foldl_append, List.foldl_cons] at accepted
  have grows := prefix_foldl Observation.malformed_record back
    (Observation.record (.malformed note)
      (front.foldl (fun facts observation => observation.record facts) (.empty className)))
  rw [accepted, List.prefix_nil] at grows
  exact List.append_ne_nil_of_right_ne_nil _ (List.cons_ne_nil _ _) grows

/-- The constructor that counts has been observed. -/
theorem observed_of_constructor
    {facts : Facts}
    {decl : Method}
    (counts : (observations.foldl (fun facts observation => observation.record facts)
      facts).constructor = some decl) :
    facts.constructor = some decl ∨ ∃ delegating, .constructor decl delegating ∈ observations := by
  induction observations generalizing facts with
  | nil => exact .inl counts
  | cons first rest inductionHypothesis =>
      rw [List.foldl_cons] at counts
      cases inductionHypothesis counts with
      | inr later =>
          obtain ⟨delegating, inside⟩ := later
          exact .inr ⟨delegating, List.mem_cons_of_mem _ inside⟩
      | inl recorded =>
          cases first with
          | factory method mark =>
              rw [Observation.record, Facts.constructor_recordFactory] at recorded
              exact .inl recorded
          | constructor method delegating =>
              rw [Observation.record] at recorded
              cases Facts.constructor_recordConstructor method delegating facts with
              | inl old => exact .inl (old ▸ recorded)
              | inr new =>
                  cases new.symm.trans recorded
                  exact .inr ⟨delegating, List.mem_cons_self⟩
          | field position field =>
              rw [Observation.record, Facts.constructor_recordField] at recorded
              exact .inl recorded
          | malformed note => exact .inl recorded

/-- The plan for a class is what the observations of its members lead to. -/
theorem planOf_of_ofClass
    {decl : ClassDecl}
    {plan : ClassPlan}
    (planned : ClassPlan.ofClass scope decl = some plan) :
    planOf decl.name (decl.members.filterMap (Observation.ofMember? scope)) = .ok (some plan) := by
  obtain ⟨facts, facts_eq, classPlan_eq⟩ := ClassPlan.classPlan_of_ofClass planned
  unfold Facts.ofClass at facts_eq
  dsimp only at facts_eq
  split at facts_eq
  · cases facts_eq
  · cases facts_eq
    exact classPlan_eq

/-- What is observed of a marked field is a position or a malformed mark. -/
theorem Observation.ofMarkedField_cases (field : Field) (mark : Annotation) :
    (∃ position, ofMarkedField field mark = .field position field) ∨
      ∃ note, ofMarkedField field mark = .malformed note := by
  unfold ofMarkedField
  split
  · exact .inl ⟨0, rfl⟩
  · split
    · exact .inl ⟨_, rfl⟩
    · exact .inr ⟨_, rfl⟩

variable {decl : ClassDecl} {plan : ClassPlan}

/-- The fields for positions that are observed in a class are marked fields of the class. -/
theorem of_mem_fieldParameters
    {members : List Member}
    {parameter : FieldParameter}
    (recorded : parameter ∈ fieldParameters (members.filterMap (Observation.ofMember? scope))) :
    .field parameter.field ∈ members ∧ isMarked scope parameter.field = true := by
  obtain ⟨observation, isObserved, isField⟩ := List.mem_filterMap.mp recorded
  obtain ⟨member, inside, observed⟩ := List.mem_filterMap.mp isObserved
  cases observation with
  | field position field =>
      cases isField
      obtain rfl := Observation.of_field observed
      obtain ⟨mark, marked, -⟩ := Option.map_eq_some_iff.mp observed
      exact ⟨inside, Option.isSome_iff_exists.mpr ⟨mark, marked⟩⟩
  | _ => cases isField

/-- Every marked field of a planned class is observed for some position. -/
theorem exists_mem_fieldParameters
    (planned : ClassPlan.ofClass scope decl = some plan)
    {field : Field}
    (inside : .field field ∈ decl.members)
    (marked : isMarked scope field = true) :
    ∃ position, ⟨position, field⟩ ∈
      fieldParameters (decl.members.filterMap (Observation.ofMember? scope)) := by
  obtain ⟨mark, found⟩ := Option.isSome_iff_exists.mp marked
  have observed : Observation.ofMember? scope (.field field) =
      some (Observation.ofMarkedField field mark) := by
    rw [Observation.ofMember?, found]
    rfl
  have isObserved := List.mem_filterMap.mpr ⟨_, inside, observed⟩
  cases Observation.ofMarkedField_cases field mark with
  | inl isField =>
      obtain ⟨position, field_eq⟩ := isField
      rw [field_eq] at isObserved
      exact ⟨position, List.mem_filterMap.mpr ⟨_, isObserved, rfl⟩⟩
  | inr isMalformed =>
      obtain ⟨note, malformed_eq⟩ := isMalformed
      rw [malformed_eq] at isObserved
      exact absurd isObserved (not_mem_of_planOf (planOf_of_ofClass planned) note)

/-- A plan for fields names the marked fields of the class. -/
theorem mem_fieldIds_iff
    (planned : ClassPlan.ofClass scope decl = some plan)
    (byPosition : plan.ByPosition
      (fieldParameters (decl.members.filterMap (Observation.ofMember? scope))))
    (distinct : (decl.members.map Member.id).Nodup)
    {field : Field}
    (inside : .field field ∈ decl.members) :
    field.id ∈ plan.fieldIds ↔ isMarked scope field = true := by
  rw [byPosition.fieldIds.mem_iff, List.mem_map]
  constructor
  · rintro ⟨parameter, recorded, sameId⟩
    obtain ⟨otherInside, otherMarked⟩ := of_mem_fieldParameters recorded
    cases List.inj_on_of_nodup_map distinct otherInside inside sameId
    exact otherMarked
  · intro marked
    obtain ⟨position, recorded⟩ := exists_mem_fieldParameters planned inside marked
    exact ⟨_, recorded, rfl⟩

/-- The plan for a class names members of the class, which have different numbers. -/
theorem ClassPlan.picksOut_of_ofClass
    (planned : ofClass scope decl = some plan)
    (distinct : (decl.members.map Member.id).Nodup) : plan.PicksOut scope decl.members := by
  have planOf_eq := planOf_of_ofClass planned
  generalize observations_eq :
    decl.members.filterMap (Observation.ofMember? scope) = observations at planOf_eq
  obtain ⟨factory, planWith_eq⟩ := planWith_of_classPlan planOf_eq
  cases mode_eq : (Facts.ofObservations decl.name observations).mode with
  | constructor =>
      obtain ⟨constructor, constructor_eq, -, -⟩ := Facts.constructor_of_mode mode_eq
      obtain ⟨delegating, isObserved⟩ :=
        (observed_of_constructor constructor_eq).resolve_left fun none => by cases none
      rw [← observations_eq] at isObserved
      obtain ⟨member, constructorInside, observed⟩ := List.mem_filterMap.mp isObserved
      obtain ⟨rfl, isConstructor⟩ := Observation.of_constructor observed
      rw [planWith, mode_eq, constructor_eq] at planWith_eq
      cases planWith_eq
      refine ⟨fun method inside => ⟨fun named => ⟨rfl, ?_⟩, fun converted => ?_⟩,
        fun field _ => ⟨fun named => (List.not_mem_nil named).elim, fun marked => ?_⟩,
        fun _ named => (List.not_mem_nil named).elim⟩
      · cases List.inj_on_of_nodup_map distinct constructorInside inside (Option.some.inj named)
        exact isConstructor
      · have other : Observation.ofMember? scope (.method method) =
            some (.constructor method (Observation.delegates method)) := by
          rw [Observation.ofMember?, if_pos converted.2]
        have otherObserved : .constructor method (Observation.delegates method) ∈ observations :=
          observations_eq ▸ List.mem_filterMap.mpr ⟨_, inside, other⟩
        have other_eq := constructor_of_observed otherObserved (rejections_of_classPlan planOf_eq)
        cases constructor_eq.symm.trans other_eq
        rfl
      · cases marked.1
  | field =>
      have byPosition := byPosition_of_planOf planOf_eq mode_eq
      rw [← observations_eq] at byPosition
      refine ⟨fun method _ => ?_, fun field inside => ?_, fun id named => ?_⟩
      · rw [byPosition.constructorId, byPosition.newInitializer]
        simp
      · rw [byPosition.newInitializer, mem_fieldIds_iff planned byPosition distinct inside]
        simp
      · obtain ⟨parameter, recorded, rfl⟩ :=
          List.mem_map.mp (byPosition.fieldIds.mem_iff.mp named)
        exact ⟨_, (of_mem_fieldParameters recorded).1, rfl⟩
  | none =>
      rw [planWith, mode_eq] at planWith_eq
      cases planWith_eq

/-! ## Migrating a class by what its members are -/

namespace ClassMigration

variable (migration : ClassMigration)

/-- Migrates a test whose mark has been found; the mark is replaced where it stands. -/
def migrateTestInPlace (method : Method) (mark : Annotation) : Synthesis Method := do
  let plan := migration.plan
  if !mark.arguments.isEmpty then
    (Migration.warn (plan.className ++ "." ++ method.name ++ ": dropping @Test arguments '" ++
      mark.text ++ "'") : Migration Unit)
  let replacement ← migration.testAnnotations method mark
  let body ← method.body.mapM (migration.testBody method)
  return { method with
    annotations := replaceFirst (Marker.marks [.test, .jupiterTest] migration.scope) replacement
      method.annotations
    parameters := testParameters plan.parameters
    emptySpace := ""
    body }

/-- Migrates a method: a constructor that becomes the initializer, a factory, a test, or another. -/
def migrateMethodInPlace (method : Method) : Synthesis Method := do
  if migration.plan.newInitializer.isNone && method.isConstructor then
    return { method with
      returnType := some "void"
      typeSpace := " "
      name := migration.plan.initializerName }
  else
    match Marker.find? [.parameters] migration.scope method.annotations,
        Marker.find? [.test, .jupiterTest] migration.scope method.annotations with
    | some _, _ => return method.eraseFirst (Marker.marks [.parameters] migration.scope)
    | none, some mark => migration.migrateTestInPlace method mark
    | none, none => return method

/-- Migrates a field: where a new initializer assigns the marked ones, they lose their mark. -/
def migrateFieldInPlace (field : Field) : Field :=
  if migration.plan.newInitializer.isSome then
    field.eraseFirst (Marker.marks [.parameter] migration.scope)
  else field

/-- Migrates a member by what it is. -/
def migrateMemberInPlace : Member → Synthesis Member
  | .method decl => return .method (← migration.migrateMethodInPlace decl)
  | .field decl => return .field (migration.migrateFieldInPlace decl)
  | member => return member

variable {migration}

theorem migrateTest_eq
    {method : Method}
    {mark : Annotation}
    (marked : Marker.find? [.test, .jupiterTest] migration.scope method.annotations = some mark)
    (distinct : (method.annotations.map Annotation.id).Nodup) :
    migration.migrateTest method mark = migration.migrateTestInPlace method mark := by
  unfold migrateTest migrateTestInPlace
  simp only [replaceMark_eq marked distinct]

theorem migrateMethod_eq
    {members : List Member}
    {method : Method}
    (picksOut : migration.plan.PicksOut migration.scope members)
    (inside : .method method ∈ members)
    (distinct : (method.annotations.map Annotation.id).Nodup) :
    migration.migrateMethod method = migration.migrateMethodInPlace method := by
  have isPlanned : (migration.plan.constructorId = some method.id) =
      ((migration.plan.newInitializer.isNone && method.isConstructor) = true) := by
    simp [picksOut.constructor method inside]
  have erased : method.eraseFirst (Marker.marks [.parameters] migration.scope) =
      (Marker.find? [.parameters] migration.scope method.annotations).elim method
        fun mark => method.eraseAnnotation mark.id :=
    Method.eraseFirst_eq distinct
  unfold migrateMethod migrateMethodInPlace
  simp only [isPlanned]
  split
  · rfl
  · cases factory : Marker.find? [.parameters] migration.scope method.annotations with
    | some mark =>
        rw [erased, factory]
        rfl
    | none =>
        cases marked : Marker.find? [.test, .jupiterTest] migration.scope method.annotations with
        | some mark => exact migrateTest_eq marked distinct
        | none => rfl

theorem migrateField_eq
    {members : List Member}
    {field : Field}
    (picksOut : migration.plan.PicksOut migration.scope members)
    (inside : .field field ∈ members)
    (distinct : (field.annotations.map Annotation.id).Nodup) :
    migration.migrateField field = migration.migrateFieldInPlace field := by
  have isPlanned := picksOut.field field inside
  have erased : field.eraseFirst (Marker.marks [.parameter] migration.scope) =
      (Marker.find? [.parameter] migration.scope field.annotations).elim field
        fun mark => field.eraseAnnotation mark.id :=
    Field.eraseFirst_eq distinct
  unfold migrateField migrateFieldInPlace
  simp only [List.contains_iff_mem, isPlanned, isMarked, erased]
  cases Marker.find? [.parameter] migration.scope field.annotations <;> simp

/-- Members that are no classes are those of the class that the plan is for. -/
theorem migrateMember_eq
    {members : List Member}
    {member : Member}
    (picksOut : migration.plan.PicksOut migration.scope members)
    (distinct : ∀ member ∈ members, (member.annotations.map Annotation.id).Nodup)
    (inside : member.class? = none → member ∈ members) :
    migration.migrateMember member = migration.migrateMemberInPlace member := by
  cases member with
  | method decl =>
      rw [migrateMember, migrateMemberInPlace,
        migrateMethod_eq picksOut (inside rfl) (distinct _ (inside rfl))]
  | field decl =>
      rw [migrateMember, migrateMemberInPlace,
        migrateField_eq picksOut (inside rfl) (distinct _ (inside rfl))]
  | _ => rfl

end ClassMigration

/-- The class without the runner, which is taken out where it stands. -/
def withoutRunnerInPlace (scope : TypeScope) (decl : ClassDecl) : ClassDecl :=
  { decl with toClassHead := decl.toClassHead.eraseFirst (Marker.marks [.runner] scope) }

/-- Migrates a class by its plan, and its members by what they are. -/
def migrateClassInPlace (scope : TypeScope) (layout : Layout) (plan : ClassPlan)
    (decl : ClassDecl) : Synthesis ClassDecl := do
  let decl := withoutRunnerInPlace scope decl
  let migration : ClassMigration := ⟨scope, layout, plan, layout.memberIndent decl⟩
  let members ← decl.members.mapM migration.migrateMemberInPlace
  return { decl with members := members ++ (← migration.newInitializer) }

theorem withoutRunner_eq
    (distinct : (decl.annotations.map Annotation.id).Nodup) :
    withoutRunner scope decl = withoutRunnerInPlace scope decl := by
  have erased : decl.toClassHead.eraseFirst (Marker.marks [.runner] scope) =
      (Marker.find? [.runner] scope decl.annotations).elim decl.toClassHead
        fun mark => decl.toClassHead.eraseAnnotation mark.id :=
    ClassHead.eraseFirst_eq distinct
  unfold withoutRunner withoutRunnerInPlace
  rw [erased]
  cases Marker.find? [.runner] scope decl.annotations <;> rfl

/-- The nested classes in a class may have been revised before the class is migrated. -/
theorem migrateClass_eq
    {members : List Member}
    (picksOut : plan.PicksOut scope members)
    (distinctHead : (decl.annotations.map Annotation.id).Nodup)
    (distinct : ∀ member ∈ members, (member.annotations.map Annotation.id).Nodup)
    (inside : ∀ member ∈ decl.members, member.class? = none → member ∈ members)
    (layout : Layout) :
    migrateClass scope layout plan decl = migrateClassInPlace scope layout plan decl := by
  have members_eq (memberIndent : String) :
      (withoutRunnerInPlace scope decl).members.mapM
          (ClassMigration.mk scope layout plan memberIndent).migrateMember =
        (withoutRunnerInPlace scope decl).members.mapM
          (ClassMigration.mk scope layout plan memberIndent).migrateMemberInPlace :=
    mapM_congr fun member isMember =>
      ClassMigration.migrateMember_eq picksOut distinct (inside member isMember)
  unfold migrateClass migrateClassInPlace
  rw [withoutRunner_eq distinctHead]
  dsimp only
  rw [members_eq]

/-! ## The recipe without numbers -/

/-- The decision about a class that has no other plan than its own. -/
def decideHere (scope : TypeScope) (layout : Layout) :
    ClassDecl → ClassDecl → Migrating (Edit Member) :=
  decideInPlace (ClassPlan.ofClass scope) (migrateClassInPlace scope layout)
    fun name _ names => names ++ [name]

/-- Migrates the classes of a file in place. -/
def migrateInPlace (layout : Layout) (unit : SourceUnit) : Migration MigratedUnit := do
  let (members, migrated) ←
    (Member.rewriteAll (decideHere (TypeScope.ofUnit unit) layout) unit.members).run []
  return ⟨{ unit with members }, migrated, importUpdate⟩

variable {unit : SourceUnit} {next : Nat}

theorem decideAlike
    {plans : List (Nat × ClassPlan)}
    {Rewrites : ClassDecl → ClassDecl → ClassDecl → Prop}
    (distinct : Member.Distinct unit.nonImports next)
    (found : ∀ decl ∈ Member.classesAll unit.nonImports,
      plans.lookup decl.id = ClassPlan.ofClass scope decl)
    (layout : Layout) :
    Member.DecideAlike Rewrites (decide scope layout plans) (decideHere scope layout)
      unit.nonImports := by
  intro head members inner rewritten inside revised
  have below := Member.mem_classesAll.mp inside
  refine decideByPlan_eq_decideInPlace (found _ inside) (fun plan planned => ?_) _
  refine migrateClass_eq (ClassPlan.picksOut_of_ofClass planned (distinct.nodup_members below))
    (distinct.nodup_annotations below) (fun member isMember => ?_)
    (fun member isMember noClass => revised.mem_of_noClass isMember noClass) layout
  exact distinct.nodup_annotations ((Member.walkAll_sublist_walkAll _ below).subset
    (Member.mem_walkAll_of_mem isMember))

/-- With the plans of its classes, a file is migrated as it would be in place. -/
theorem migratePlans_eq
    (distinct : Member.Distinct unit.nonImports next)
    (layout : Layout)
    (session : Session) :
    migratePlans layout ((collect unit).run session).1.plans unit = migrateInPlace layout unit := by
  have found (decl : ClassDecl) (inside : decl ∈ Member.classesAll unit.nonImports) :=
    lookup_collect distinct.nodup_classes (Member.mem_classesAll_nonImports.mp inside) session
  generalize ((collect unit).run session).1.plans = plans at found ⊢
  have decides : Member.Decides (fun _ _ _ => True)
      (decide (TypeScope.ofUnit unit) layout plans) unit.nonImports :=
    decides_decideByPlan plans _ (records_migrateClass _ layout) fun _ _ _ _ _ _ _ _ _ _ _ _ =>
      trivial
  unfold migratePlans migrateInPlace
  rw [migrate_eq, (decideAlike distinct found layout).rewriteAll_eq decides]
  simp only [bind_assoc, pure_bind]

/-- In a file with different numbers, the recipe does what it would do in place. -/
theorem apply_stages_eq
    (distinct : Member.Distinct unit.nonImports next)
    (layout : Layout) :
    (stages layout).apply unit =
      { stages layout with migrate := fun _ => migrateInPlace layout }.apply unit :=
  Stages.apply_withMigrate (migratePlans_eq distinct layout)

end Parameterized

end JupiterMigration
