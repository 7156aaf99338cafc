import JupiterMigration.ExpectedException.ClassMigration
import JupiterMigration.Parameterized.ClassMigration
import JupiterMigration.Proofs.Synthesis.Outcome

/-!
# Classes that differ inside nested classes

The migration of a class by a plan looks at the numbers and annotations of its members, but not into
the classes among them.  So it fails or succeeds, and makes the same apart from the numbers of new
nodes, for members that differ only in the numbers inside classes (`Member.Twin`), from whatever
session (`Uniform`).
-/

namespace JupiterMigration

namespace Member

/-- The same declaration, where the members of a class may differ in numbers. -/
inductive Twin : Member → Member → Prop
  | same (member : Member) : Twin member member
  | inside (head : ClassHead) {members others : List Member}
      (same : unnumberedAll members = unnumberedAll others) :
      Twin (classDecl head members) (classDecl head others)

namespace Twin

variable {member other : Member} {members others : List Member}

theorem unnumbered_eq (twin : Twin member other) : member.unnumbered = other.unnumbered := by
  cases twin with
  | same => rfl
  | inside head same => rw [unnumbered, unnumbered, same]

theorem lead_eq (twin : Twin member other) : member.lead = other.lead := by
  cases twin <;> rfl

theorem id_eq (twin : Twin member other) : member.id = other.id := by
  cases twin <;> rfl

theorem withLead (twin : Twin member other) (lead : String) :
    Twin (member.withLead lead) (other.withLead lead) := by
  cases twin with
  | same => exact .same _
  | inside head same => exact .inside _ same

theorem unnumberedAll_eq (twins : List.Forall₂ Twin members others) :
    unnumberedAll members = unnumberedAll others := by
  induction twins with
  | nil => rfl
  | cons head _ inductionHypothesis =>
      rw [unnumberedAll, unnumberedAll, head.unnumbered_eq, inductionHypothesis]

/-- What follows a removed declaration depends on leads only. -/
theorem following
    {removed next removedTwin nextTwin : Member}
    (removedTwins : Twin removed removedTwin)
    (nextTwins : Twin next nextTwin)
    (atHead : Bool) :
    Twin (following atHead removed next) (Member.following atHead removedTwin nextTwin) := by
  unfold Member.following leadLines
  rw [removedTwins.lead_eq, nextTwins.lead_eq]
  split
  · exact nextTwins.withLead _
  · exact nextTwins

theorem removeAt (twins : List.Forall₂ Twin members others) (position : Nat) :
    List.Forall₂ Twin (removeAt position members) (Member.removeAt position others) := by
  have front := List.forall₂_take position twins
  have back := List.forall₂_drop position twins
  unfold Member.removeAt
  revert back
  generalize members.drop position = rest
  generalize others.drop position = otherRest
  intro back
  cases back with
  | nil => exact front
  | cons removed rest =>
      cases rest with
      | nil => exact front
      | cons next rest => exact List.rel_append front (.cons (removed.following next _) rest)

end Twin

end Member

/-- The class without the numbers inside its members. -/
def ClassDecl.unnumberedInside (decl : ClassDecl) : ClassDecl :=
  { decl with members := Member.unnumberedAll decl.members }

/--
A migration of classes by plans that comes to the same, apart from numbers, for classes whose
members differ in numbers inside nested classes.
-/
def Uniform {Plan : Type} (migrate : Plan → ClassDecl → Synthesis ClassDecl) : Prop :=
  ∀ plan head members others, List.Forall₂ Member.Twin members others →
    Synthesis.Alike ClassDecl.unnumberedInside (migrate plan ⟨head, members⟩)
      (migrate plan ⟨head, others⟩)

open Member (Twin)
open Synthesis

namespace Layout

/-- The column of the members is read off the lead of the first one. -/
theorem memberIndent_eq_of_twins
    {members others : List Member}
    (twins : List.Forall₂ Twin members others)
    (layout : Layout)
    (head : ClassHead) :
    layout.memberIndent ⟨head, members⟩ = layout.memberIndent ⟨head, others⟩ := by
  cases twins with
  | nil => rfl
  | cons first _ =>
      unfold memberIndent
      dsimp only
      rw [first.lead_eq]

end Layout

/-! ## Parameterized classes -/

namespace Parameterized

namespace ClassMigration

variable (migration : ClassMigration)

theorem map_replaceMark
    {replacement others : List Annotation}
    (same : replacement.map Annotation.unnumbered = others.map Annotation.unnumbered)
    (mark : Annotation)
    (uses : List Annotation) :
    (replaceMark mark replacement uses).map Annotation.unnumbered =
      (replaceMark mark others uses).map Annotation.unnumbered := by
  unfold replaceMark
  rw [List.map_flatMap, List.map_flatMap]
  congr 1
  funext use
  split
  · exact same
  · rfl

theorem alike_testAnnotations (method : Method) (mark : Annotation) :
    Alike (List.map Annotation.unnumbered) (migration.testAnnotations method mark)
      (migration.testAnnotations method mark) := by
  unfold testAnnotations
  dsimp only
  apply (Template.alike_annotationUse _ _ _).bind
  intro source otherSource sameSource
  have both (test otherTest : Annotation) (sameTest : test.unnumbered = otherTest.unnumbered) :
      Alike (List.map Annotation.unnumbered) (pure [source, test])
        (pure [otherSource, otherTest]) := by
    apply alike_pure
    rw [List.map_cons, List.map_cons, List.map_cons, List.map_cons, sameSource, sameTest]
  split
  · exact (Template.alike_annotationUse _ _ _).bind both
  · exact (Template.alike_annotationUse _ _ _).bind both

theorem alike_testBody (method : Method) (block : Block) :
    Alike Block.unnumbered (migration.testBody method block)
      (migration.testBody method block) := by
  unfold testBody
  dsimp only
  apply (Template.alike_statement _ _ _ _).bind
  intro call other same
  apply alike_pure
  unfold Block.unnumbered
  rw [List.map_cons, List.map_cons, same]

theorem alike_migrateTest (method : Method) (mark : Annotation) :
    Alike Method.unnumbered (migration.migrateTest method mark)
      (migration.migrateTest method mark) := by
  have afterWarning : Alike Method.unnumbered
      (do
        let replacement ← migration.testAnnotations method mark
        let body ← method.body.mapM (migration.testBody method)
        return { method with
          annotations := replaceMark mark replacement method.annotations
          parameters := testParameters migration.plan.parameters
          emptySpace := ""
          body })
      (do
        let replacement ← migration.testAnnotations method mark
        let body ← method.body.mapM (migration.testBody method)
        return { method with
          annotations := replaceMark mark replacement method.annotations
          parameters := testParameters migration.plan.parameters
          emptySpace := ""
          body }) := by
    apply (migration.alike_testAnnotations method mark).bind
    intro replacement others sameUses
    apply (alike_optionMapM (migration.alike_testBody method) method.body).bind
    intro body other sameBody
    apply alike_pure
    unfold Method.unnumbered
    dsimp only
    rw [map_replaceMark sameUses, sameBody]
  unfold migrateTest
  dsimp only
  split
  · exact (alike_warn _).bind fun _ _ _ => afterWarning
  · exact afterWarning

theorem alike_migrateMethod (method : Method) :
    Alike Method.unnumbered (migration.migrateMethod method)
      (migration.migrateMethod method) := by
  unfold migrateMethod
  split
  · exact alike_pure rfl
  · split
    · exact alike_pure rfl
    · exact migration.alike_migrateTest method _
    · exact alike_pure rfl

theorem alike_migrateMember
    {member other : Member}
    (twin : Twin member other) :
    Alike Member.unnumbered (migration.migrateMember member) (migration.migrateMember other) := by
  cases twin with
  | inside head same => exact alike_pure (Twin.inside head same).unnumbered_eq
  | same =>
      cases member with
      | method decl =>
          apply (migration.alike_migrateMethod decl).bind
          intro result other same
          exact alike_pure (congrArg Member.method same)
      | _ => exact alike_pure rfl

theorem alike_newInitializer :
    Alike (List.map Member.unnumbered) migration.newInitializer migration.newInitializer := by
  unfold newInitializer
  dsimp only
  split
  · exact alike_pure rfl
  · apply (Template.alike_member _ _ _ _).bind
    intro member other same
    apply alike_pure
    rw [List.map_cons, List.map_cons, same]

end ClassMigration

/-- Taking away the runner leaves the members alone. -/
theorem exists_withoutRunner (scope : TypeScope) (head : ClassHead) :
    ∃ other, ∀ members, withoutRunner scope ⟨head, members⟩ = ⟨other, members⟩ := by
  unfold withoutRunner
  cases found : Marker.find? [.runner] scope head.annotations with
  | none =>
      refine ⟨head, fun members => ?_⟩
      rw [show (ClassDecl.mk head members).annotations = head.annotations from rfl, found]
  | some mark =>
      refine ⟨head.eraseAnnotation mark.id, fun members => ?_⟩
      rw [show (ClassDecl.mk head members).annotations = head.annotations from rfl, found]

theorem uniform_migrateClass (scope : TypeScope) (layout : Layout) :
    Uniform (migrateClass scope layout) := by
  intro plan head members others twins
  obtain ⟨newHead, withoutRunner_eq⟩ := exists_withoutRunner scope head
  unfold migrateClass
  simp only [withoutRunner_eq]
  rw [layout.memberIndent_eq_of_twins twins]
  generalize layout.memberIndent ⟨newHead, others⟩ = memberIndent
  have migrated := twins.imp fun _ _ twin =>
    ClassMigration.alike_migrateMember ⟨scope, layout, plan, memberIndent⟩ twin
  apply (alike_mapM migrated).bind
  intro results otherResults sameResults
  apply (ClassMigration.alike_newInitializer _).bind
  intro appended otherAppended sameAppended
  apply alike_pure
  unfold ClassDecl.unnumberedInside
  dsimp only
  rw [Member.unnumberedAll_eq_map, Member.unnumberedAll_eq_map, List.map_append, List.map_append,
    sameResults, sameAppended]

end Parameterized

/-! ## Classes with a rule for expected exceptions -/

namespace ExpectedException

theorem alike_assertions
    (layout : Layout)
    (plan : MethodPlan)
    (method : Method)
    (indent : String) :
    Alike (List.map Statement.unnumbered) (assertions layout plan method indent)
      (assertions layout plan method indent) := by
  unfold assertions
  dsimp only
  split
  · apply (Template.alike_statement _ _ _ _).bind
    intro throwing other same
    have matchers (binding : String) (expectations : List Expectation) :
        Alike (List.map Statement.unnumbered)
          (expectations.mapM (matcherStatement binding indent))
          (expectations.mapM (matcherStatement binding indent)) :=
      alike_mapM (List.forall₂_same.mpr fun _ _ => Template.alike_statement _ _ _ _)
    apply (matchers _ _).bind
    intro statements others sameRest
    apply alike_pure
    rw [List.map_cons, List.map_cons, same, sameRest]
  · apply (Template.alike_statement _ _ _ _).bind
    intro throwing other same
    apply alike_pure
    rw [List.map_cons, List.map_cons, same]

theorem alike_migrateMethod
    (layout : Layout)
    (memberIndent : String)
    (plan : MethodPlan)
    (method : Method) :
    Alike Method.unnumbered (migrateMethod layout memberIndent plan method)
      (migrateMethod layout memberIndent plan method) := by
  unfold migrateMethod
  apply (alike_assertions layout plan method _).bind
  intro statements others same
  apply alike_pure
  unfold Method.unnumbered
  dsimp only
  cases method.body with
  | none => rfl
  | some block =>
      rw [Option.map_some, Option.map_some, Option.map_some, Option.map_some]
      unfold Block.unnumbered
      dsimp only
      rw [same]

theorem alike_migrateMember
    (layout : Layout)
    (memberIndent : String)
    (plan : RulePlan)
    {member other : Member}
    (twin : Twin member other) :
    Alike Member.unnumbered (migrateMember layout memberIndent plan member)
      (migrateMember layout memberIndent plan other) := by
  cases twin with
  | inside head same => exact alike_pure (Twin.inside head same).unnumbered_eq
  | same =>
      cases member with
      | method decl =>
          rw [migrateMember]
          split
          · next methodPlan _ =>
              apply (alike_migrateMethod layout memberIndent methodPlan decl).bind
              intro result other same
              exact alike_pure (congrArg Member.method same)
          · exact alike_pure rfl
      | _ => exact alike_pure rfl

/-- A member is removed by its number, whatever is inside it. -/
theorem twins_withoutMember
    {members others : List Member}
    (twins : List.Forall₂ Twin members others)
    (id : Nat) : List.Forall₂ Twin (withoutMember id members) (withoutMember id others) := by
  have sameIds : members.map Member.id = others.map Member.id :=
    List.forall₂_eq_eq_eq ▸ List.forall₂_map_left_iff.mpr
      (List.forall₂_map_right_iff.mpr (twins.imp fun _ _ twin => twin.id_eq))
  have position (items : List Member) : items.findIdx? (·.id == id) =
      (items.map Member.id).findIdx? (· == id) := by
    rw [List.findIdx?_map]
    rfl
  unfold withoutMember
  rw [position members, position others, sameIds]
  split
  · exact Twin.removeAt twins _
  · exact twins

theorem uniform_migrateClass (layout : Layout) : Uniform (migrateClass layout) := by
  intro plan head members others twins
  unfold migrateClass
  rw [layout.memberIndent_eq_of_twins twins]
  have migrated := (twins_withoutMember twins plan.fieldId).imp fun _ _ twin =>
    alike_migrateMember layout (layout.memberIndent ⟨head, others⟩) plan twin
  apply (alike_mapM migrated).bind
  intro results otherResults same
  apply alike_pure
  unfold ClassDecl.unnumberedInside
  dsimp only
  rw [Member.unnumberedAll_eq_map, Member.unnumberedAll_eq_map, same]

end ExpectedException

end JupiterMigration
