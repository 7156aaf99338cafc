import JupiterMigration.Proofs.Collection.OwnFacts
import JupiterMigration.Proofs.Conversion
import JupiterMigration.Proofs.Reading.Types

/-!
# Detecting a marker type

Before it collects plans, a recipe looks whether a file uses its marker type at all, and this look
goes by other rules than the resolution of names that decides about plans.  It agrees with them in
every file whose scope does not reach the marker type from around it: through an import of what
encloses the type, an import on demand further out than its package, or the package of the file
itself (`Recipe.apply_eq_applyAlways`).  Through its own package, a file can reach a marker type
unnoticed (`Recipe.overlooked_through_package`).
-/

namespace JupiterMigration

/-! ## What a name denotes -/

namespace TypeScope

/--
Whether a scope reaches a type from around it: something imported, the package of the file, or a
package imported on demand other than the type's own encloses the type.
-/
def reachesAround (scope : TypeScope) (type : String) : Bool :=
  let encloses (outer : String) : Bool := Text.beginsWith type (outer ++ ".")
  scope.singles.any encloses || scope.package.any encloses ||
    scope.onDemand.any fun outer => encloses outer && outer != Text.beforeLastDot type

variable {scope : TypeScope}

theorem beginsWith_append (front back : String) : Text.beginsWith (front ++ back) front = true := by
  rw [Text.beginsWith, String.toList_append, List.isPrefixOf_iff_prefix]
  exact List.prefix_append _ _

/-- A name denotes a type that is not reached from around it in one of three ways. -/
theorem cases_of_mayDenote
    {name type : String}
    (denotes : scope.mayDenote name type = true)
    (notAround : scope.reachesAround type = false) :
    type ∈ scope.singles ∨ name = type ∨
      (Text.beforeLastDot type ∈ scope.onDemand ∧
        Text.beforeLastDot type ++ "." ++ name = type) := by
  have encloses {outer inner : String} (same : outer ++ "." ++ inner = type) :
      Text.beginsWith type (outer ++ ".") = true :=
    same ▸ beginsWith_append (outer ++ ".") inner
  simp only [reachesAround, Bool.or_eq_false_iff, List.any_eq_false, Bool.and_eq_true,
    bne_iff_ne, ne_eq, not_and, not_not] at notAround
  obtain ⟨⟨noSingle, noPackage⟩, ownPackage⟩ := notAround
  unfold mayDenote candidates at denotes
  rw [List.contains_iff_mem] at denotes
  split at denotes
  · next qualified found =>
      have isSingle : qualified ∈ scope.singles :=
        List.mem_reverse.mp (List.mem_of_find?_eq_some found)
      rw [List.mem_singleton, nestedName] at denotes
      split at denotes
      · exact .inl (denotes ▸ isSingle)
      · exact absurd (encloses denotes.symm) (noSingle qualified isSingle)
  · unfold openCandidates at denotes
    simp only [List.mem_append, List.mem_map] at denotes
    obtain (dotted | ⟨outer, isOnDemand, same⟩) | last := denotes
    · split at dotted
      · exact .inr (.inl (List.mem_singleton.mp dotted).symm)
      · cases dotted
    · obtain rfl := ownPackage outer isOnDemand (encloses same)
      exact .inr (.inr ⟨isOnDemand, same⟩)
    · split at last
      · next package found =>
          have same := (List.mem_singleton.mp last).symm
          simp [found, encloses same] at noPackage
      · split at last
        · cases last
        · exact .inr (.inl (List.mem_singleton.mp last).symm)

end TypeScope

/-! ## What is below a node -/

namespace SourceUnit

/-- What a node outside the imports mentions is used in the file. -/
theorem mem_namesUsed_of_mem_walkAll
    {unit : SourceUnit}
    {node : Node}
    {name : String}
    (inside : node ∈ Member.walkAll unit.nonImports)
    (mentioned : name ∈ node.references) : name ∈ unit.namesUsed := by
  obtain ⟨member, isMember, below⟩ := Member.mem_walkAll.mp inside
  rw [namesUsed, Member.namesUsedByAll, Names.mem_unionAll]
  exact ⟨member.namesUsed, List.mem_map_of_mem isMember,
    Member.mem_namesUsed.mpr ⟨node, below, mentioned⟩⟩

end SourceUnit

/-! ## Unused types -/

/-- What a file without uses of a type lacks. -/
structure SourceUnit.Lacks (type : String) (unit : SourceUnit) : Prop where
  single : type ∉ (TypeScope.ofUnit unit).singles
  onDemand : Text.beforeLastDot type ∈ (TypeScope.ofUnit unit).onDemand →
    Text.afterLastDot type ∉ unit.namesUsed
  spelled : ∀ node ∈ unit.walk, SourceUnit.spells type node = false

theorem SourceUnit.lacks_of_usesType
    {unit : SourceUnit}
    {type : String}
    (unused : unit.usesType type = false) : unit.Lacks type := by
  simp only [usesType, Bool.or_eq_false_iff, Bool.and_eq_false_iff] at unused
  obtain ⟨⟨noImport, noReference⟩, noSpelling⟩ := unused
  constructor
  · intro isSingle
    obtain ⟨decl, inside, name_eq⟩ := List.mem_map.mp isSingle
    have isImport := List.mem_of_mem_filter inside
    have named := List.any_eq_false.mp noImport decl isImport
    simp [imports?, name_eq] at named
  · intro isOnDemand used
    obtain ⟨decl, inside, name_eq⟩ := List.mem_map.mp isOnDemand
    obtain ⟨isImport, wildcard⟩ := List.mem_filter.mp inside
    cases noReference with
    | inl noWildcard =>
        have other := List.any_eq_false.mp noWildcard decl isImport
        simp only [Bool.and_eq_true, Bool.not_eq_true'] at wildcard
        simp [wildcard.1, wildcard.2, name_eq] at other
    | inr unmentioned => simp [used] at unmentioned
  · intro node inside
    simpa using List.any_eq_false.mp noSpelling node inside

/-- A marker type: its simple name is plain, and stands behind its package. -/
structure IsMarkerType (type : String) : Prop where
  dotted : type = Text.beforeLastDot type ++ "." ++ Text.afterLastDot type
  plain : Java.isPlainName (Text.afterLastDot type) = true

/-- In a file that lacks a marker type, a name that denotes it is the type, or an unused name. -/
theorem SourceUnit.Lacks.cases_of_mayDenote
    {unit : SourceUnit}
    {name type : String}
    (lacks : unit.Lacks type)
    (marker : IsMarkerType type)
    (notAround : (TypeScope.ofUnit unit).reachesAround type = false)
    (denotes : (TypeScope.ofUnit unit).mayDenote name type = true) :
    name = type ∨ (name = Text.afterLastDot type ∧ name ∉ unit.namesUsed) := by
  obtain isSingle | same | ⟨isOnDemand, same⟩ := TypeScope.cases_of_mayDenote denotes notAround
  · exact absurd isSingle lacks.single
  · exact .inl same
  · have name_eq : name = Text.afterLastDot type :=
      String.append_right_inj _ |>.mp (same.trans marker.dotted)
    exact .inr ⟨name_eq, name_eq ▸ lacks.onDemand isOnDemand⟩

/-- An annotation of a class has no class literal of a marker type that the file lacks. -/
theorem SourceUnit.Lacks.not_isLiteralOf
    {unit : SourceUnit}
    {type : String}
    {head : ClassHead}
    {members : List Member}
    {use : Annotation}
    {argument : AnnotationArgument}
    (lacks : unit.Lacks type)
    (marker : IsMarkerType type)
    (notAround : (TypeScope.ofUnit unit).reachesAround type = false)
    (shows : ∀ node ∈ Member.walkAll unit.members, node.ShowsTypes)
    (inside : Node.member (.classDecl head members) ∈ Member.walkAll unit.members)
    (isUse : use ∈ head.annotations)
    (isArgument : argument ∈ use.arguments) :
    AnnotationPattern.isLiteralOf (.ofUnit unit) type argument.value = false := by
  have below : Node.annotationUse use ∈ (Member.classDecl head members).walk :=
    List.mem_cons_of_mem _ (List.mem_append_left _ (List.mem_map_of_mem isUse))
  have useInside := (Member.walk_sublist_walkAll _ inside).subset below
  rw [AnnotationPattern.isLiteralOf, Option.any_eq_false]
  intro name isLiteral
  obtain ⟨isSpelled, isReferenced⟩ := shows _ useInside argument isArgument name isLiteral
  by_contra denotes
  have denotes : (TypeScope.ofUnit unit).mayDenote name type = true := by simpa using denotes
  cases lacks.cases_of_mayDenote marker notAround denotes with
  | inl same =>
      have unspelled := lacks.spelled _ (List.mem_cons_of_mem _ useInside)
      rw [SourceUnit.spells, ← same, isSpelled] at unspelled
      cases unspelled
  | inr simple =>
      have plain : Java.isPlainName name = true := simple.1 ▸ marker.plain
      have classInside : Node.member (.classDecl head members) ∈ Member.walkAll unit.nonImports :=
        SourceUnit.mem_walkAll_nonImports (List.mem_cons_of_mem _ inside) rfl
      exact simple.2 (SourceUnit.mem_namesUsed_of_mem_walkAll
        ((Member.walk_sublist_walkAll _ classInside).subset below) (isReferenced plain))

/-- No field has a marker type that the file lacks. -/
theorem SourceUnit.Lacks.not_mayDenote_field
    {unit : SourceUnit}
    {type : String}
    {field : Field}
    (lacks : unit.Lacks type)
    (marker : IsMarkerType type)
    (notAround : (TypeScope.ofUnit unit).reachesAround type = false)
    (shows : ∀ node ∈ Member.walkAll unit.members, node.ShowsTypes)
    (inside : Node.member (.field field) ∈ Member.walkAll unit.members) :
    (TypeScope.ofUnit unit).mayDenote field.type type = false := by
  by_contra denotes
  have denotes : (TypeScope.ofUnit unit).mayDenote field.type type = true := by
    simpa using denotes
  cases lacks.cases_of_mayDenote marker notAround denotes with
  | inl same =>
      have unspelled := lacks.spelled _ (List.mem_cons_of_mem _ inside)
      have begins := TypeScope.beginsWith_append type ""
      rw [String.append_empty] at begins
      rw [SourceUnit.spells, same, begins] at unspelled
      cases unspelled
  | inr simple =>
      have plain : Java.isPlainName field.type = true := simple.1 ▸ marker.plain
      exact simple.2 (SourceUnit.mem_namesUsed_of_mem_walkAll
        (SourceUnit.mem_walkAll_nonImports (List.mem_cons_of_mem _ inside) rfl)
        (shows _ inside plain))

/-! ## Applying a recipe without looking for its marker type -/

/-- Applies a recipe to a file whether or not the file uses the marker type. -/
def Stages.applyAlways {Plan : Type} (stages : Stages Plan) (unit : SourceUnit) :
    Migration (Option SourceUnit) := do
  let plans ← Stages.phase "Collect" stages.collectDetail (stages.collect unit)
  if plans.isEmpty then return none
  stages.migratePlanned plans unit

namespace Recipe

/-- Applies a recipe to a file whether or not the file uses the marker type. -/
def applyAlways (layout : Layout) (unit : SourceUnit) : Recipe → Migration (Option SourceUnit)
  | parameterized => (Parameterized.stages layout).applyAlways unit
  | expectedException => (ExpectedException.stages layout).applyAlways unit

/-- The numbers of the classes that a recipe plans to migrate. -/
def planned (unit : SourceUnit) : Recipe → Migration (List Nat)
  | parameterized => return (← Parameterized.collect unit).plans.map (·.1)
  | expectedException => return (← ExpectedException.collect unit).map (·.1)

theorem isMarkerType_markerType (recipe : Recipe) : IsMarkerType recipe.markerType := by
  cases recipe with
  | parameterized => exact ⟨by decide, by decide⟩
  | expectedException => exact ⟨by decide, by decide⟩

end Recipe

/-- No class is planned if the file lacks the type of the runner. -/
theorem Parameterized.collect_eq_nil
    {unit : SourceUnit}
    (nodup : ((Member.classesAll unit.members).map (·.id)).Nodup)
    (shows : ∀ node ∈ Member.walkAll unit.members, node.ShowsTypes)
    (lacks : unit.Lacks parameterizedType)
    (notAround : (TypeScope.ofUnit unit).reachesAround parameterizedType = false)
    (session : Session) : ((collect unit).run session).1.plans = [] := by
  rw [fst_run_collect nodup]
  refine List.filterMap_eq_nil_iff.mpr fun decl isLeft => ?_
  have inside := Member.mem_classesAll.mp (unit.perm_classesLeft.mem_iff.mp isLeft)
  have unmarked : Marker.find? [.runner] (.ofUnit unit) decl.annotations = none := by
    refine List.find?_eq_none.mpr fun use isUse marked => ?_
    simp only [Marker.marks, List.any_cons, List.any_nil, Bool.or_false,
      AnnotationPattern.describes, Marker.pattern, Option.all_some, Bool.and_eq_true] at marked
    obtain ⟨value, value_eq, isLiteral⟩ := (Option.any_eq_true _ _).mp marked.2
    obtain ⟨argument, found, rfl⟩ := Option.map_eq_some_iff.mp value_eq
    have noLiteral := lacks.not_isLiteralOf (Recipe.isMarkerType_markerType .parameterized)
      notAround shows inside isUse (List.mem_of_find?_eq_some found)
    rw [noLiteral] at isLiteral
    cases isLiteral
  rw [ClassPlan.ofClass, unmarked]
  rfl

/-- No class is planned if the file lacks the type of the rule. -/
theorem ExpectedException.collect_eq_nil
    {unit : SourceUnit}
    (shows : ∀ node ∈ Member.walkAll unit.members, node.ShowsTypes)
    (lacks : unit.Lacks expectedExceptionType)
    (notAround : (TypeScope.ofUnit unit).reachesAround expectedExceptionType = false)
    (session : Session) : ((collect unit).run session).1 = [] := by
  rw [List.eq_nil_iff_forall_not_mem]
  rintro ⟨id, plan⟩ planned
  obtain ⟨head, members, rule, inside, -, isRuleField, -⟩ :=
    scanned_of_planned unit session planned
  have isRuleMember : rule ∈ ruleFields (.ofUnit unit) members := by
    unfold ruleField? at isRuleField
    split at isRuleField
    · next field fields_eq =>
        split at isRuleField
        · cases isRuleField
          rw [fields_eq]
          exact List.mem_singleton_self _
        · cases isRuleField
    · cases isRuleField
  obtain ⟨isField, isRule_eq⟩ := List.mem_filter.mp isRuleMember
  obtain ⟨member, isMember, field_eq⟩ := List.mem_filterMap.mp isField
  have ruleInside : Node.member (.field rule) ∈ Member.walkAll unit.members := by
    cases member <;> cases field_eq
    have classInside : Node.member (.classDecl head members) ∈ Member.walkAll unit.members := by
      cases inside with
      | tail _ below => exact below
    exact Member.walkAll_sublist_walkAll _ classInside |>.subset
      (Member.mem_walkAll_of_mem isMember)
  have noType := lacks.not_mayDenote_field (Recipe.isMarkerType_markerType .expectedException)
    notAround shows ruleInside
  rw [isRule, Bool.and_eq_true] at isRule_eq
  exact absurd isRule_eq.1 (by simpa [Recipe.markerType] using noType)

namespace Stages

variable {Plan : Type} {stages : Stages Plan} {unit : SourceUnit}

/-- Without plans, a recipe leaves the file as it is. -/
theorem fst_run_applyAlways_eq_none
    (nothing : ∀ session, ((stages.collect unit).run session).1 = [])
    (session : Session) : ((stages.applyAlways unit).run session).1 = none := by
  obtain ⟨early, -, collected⟩ :=
    run_phase "Collect" stages.collectDetail (stages.collect unit) session
  rw [nothing] at collected
  unfold applyAlways
  rw [Migration.run_bind, collected]
  rfl

/-- Looking for the marker type makes no difference if nothing is planned without it. -/
theorem fst_run_apply
    (nothing : unit.usesType stages.markerType = false →
      ∀ session, ((stages.collect unit).run session).1 = [])
    (session : Session) :
    ((stages.apply unit).run session).1 = ((stages.applyAlways unit).run session).1 := by
  cases used : unit.usesType stages.markerType with
  | true =>
      unfold apply applyAlways
      rw [used]
      rfl
  | false =>
      rw [fst_run_applyAlways_eq_none (nothing used)]
      unfold apply
      rw [used]
      rfl

end Stages

/--
If a file that has been read does not use the marker type of a recipe, and its scope does not reach
the type from around it, the recipe plans no class.  So looking for the marker type first does not
change what becomes of the file.
-/
theorem Recipe.apply_eq_applyAlways
    {source : String}
    {path : Option String}
    {next : Nat}
    {result : SourceUnit × Nat}
    (parsed : SourceUnit.parse source path next = .ok result)
    (recipe : Recipe)
    (notAround : (TypeScope.ofUnit result.1).reachesAround recipe.markerType = false)
    (layout : Layout)
    (session : Session) :
    (result.1.usesType recipe.markerType = false →
      ((recipe.planned result.1).run session).1 = []) ∧
      ((recipe.apply layout result.1).run session).1 =
        ((recipe.applyAlways layout result.1).run session).1 := by
  have shows := SourceUnit.showsTypes_of_parse parsed
  have nodup := Member.nodup_classesAll_of_parse parsed
  cases recipe with
  | parameterized =>
      have nothing (unused : result.1.usesType parameterizedType = false) (early : Session) :
          ((Parameterized.collect result.1).run early).1.plans = [] :=
        Parameterized.collect_eq_nil nodup shows (SourceUnit.lacks_of_usesType unused) notAround
          early
      refine ⟨fun unused => ?_, Stages.fst_run_apply nothing session⟩
      exact congrArg (List.map (·.1)) (nothing unused session)
  | expectedException =>
      have nothing (unused : result.1.usesType expectedExceptionType = false) (early : Session) :
          ((ExpectedException.collect result.1).run early).1 = [] :=
        ExpectedException.collect_eq_nil shows (SourceUnit.lacks_of_usesType unused) notAround
          early
      refine ⟨fun unused => ?_, Stages.fst_run_apply nothing session⟩
      exact congrArg (List.map (·.1)) (nothing unused session)

/-- A file that imports the package of the runner on demand but runs with another runner. -/
def otherRunner : String :=
  "import org.junit.runners.*;\n@org.junit.runner.RunWith(Suite.class)\nclass A \x7b \x7d\n"

/-- A source that is read into a file with a property. -/
theorem SourceUnit.exists_of_any
    (source : String)
    (property : SourceUnit → Bool)
    (holds : (parse source none 1).toOption.any (fun result => property result.1) = true) :
    ∃ result, parse source none 1 = .ok result ∧ property result.1 = true := by
  cases parsed : parse source none 1 with
  | error error =>
      rw [parsed] at holds
      cases holds
  | ok result =>
      rw [parsed] at holds
      exact ⟨result, rfl, holds⟩

theorem Recipe.apply_eq_applyAlways_otherRunner :
    ∃ result, SourceUnit.parse otherRunner none 1 = .ok result ∧
      (TypeScope.ofUnit result.1).reachesAround parameterized.markerType = false ∧
      result.1.usesType parameterized.markerType = false ∧
      ((parameterized.planned result.1).run ⟨.empty, result.2⟩).1 = [] ∧
      ((parameterized.apply (.ofUnit result.1 none) result.1).run ⟨.empty, result.2⟩).1 =
        ((parameterized.applyAlways (.ofUnit result.1 none) result.1).run
          ⟨.empty, result.2⟩).1 := by
  obtain ⟨result, parsed, holds⟩ := SourceUnit.exists_of_any otherRunner
    (fun unit => !(TypeScope.ofUnit unit).reachesAround parameterizedType &&
      !unit.usesType parameterizedType) (by decide +kernel)
  simp only [Bool.and_eq_true, Bool.not_eq_true'] at holds
  have agrees := apply_eq_applyAlways parsed .parameterized holds.1 (.ofUnit result.1 none)
    ⟨.empty, result.2⟩
  exact ⟨result, parsed, holds.1, holds.2, agrees.1 holds.2, agrees.2⟩

/-! ## Overlooked files -/

/-- Whether a recipe leaves a source alone for lack of its marker type but would migrate it. -/
def Recipe.overlooks (source : String) (recipe : Recipe) : Bool :=
  (SourceUnit.parse source none 1).toOption.any fun (unit, next) =>
    let layout := Layout.ofUnit unit none
    !unit.usesType recipe.markerType &&
      !((recipe.planned unit).run ⟨.empty, next⟩).1.isEmpty &&
      ((recipe.apply layout unit).run ⟨.empty, next⟩).1.isNone &&
      ((recipe.applyAlways layout unit).run ⟨.empty, next⟩).1.isSome

/-- A parameterized class in the package of its runner. -/
def packagedRunner : String :=
  "package org.junit.runners;\n@org.junit.runner.RunWith(Parameterized.class)\nclass A \x7b\n" ++
    "    A(int x) \x7b \x7d\n    @Parameterized.Parameters\n" ++
    "    static Object f() \x7b return null; \x7d\n\x7d\n"

/-- A class with a rule in the package of the rule. -/
def packagedRule : String :=
  "package org.junit.rules;\nclass A \x7b\n    @org.junit.Rule\n    ExpectedException rule;\n\x7d\n"

/-- Each recipe overlooks its marker type in a file of the package of the type. -/
theorem Recipe.overlooked_through_package :
    parameterized.overlooks packagedRunner = true ∧
      expectedException.overlooks packagedRule = true := by
  decide +kernel

end JupiterMigration
