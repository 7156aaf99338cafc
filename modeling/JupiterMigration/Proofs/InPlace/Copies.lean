import JupiterMigration.Proofs.Revision

/-!
# Copies keep their numbers

Rewriting a class copies it with other annotations and members, and rewriting a member copies the
member.  A copy has the number of what it is a copy of (`ClassDecl.Copied`, `Member.Copied`), and so
have the annotations that stay in place (`Annotation.Copied`).  Whatever a recipe makes of a file
consists of such copies, of declarations that are left alone, and of new ones
(`Recipe.copied_of_apply`).
-/

namespace JupiterMigration

namespace Annotation

/-- The same annotation, possibly after other white space and comments. -/
def SameButLead (use other : Annotation) : Prop :=
  ∃ lead, other = { use with lead }

theorem SameButLead.forall₂_refl (uses : List Annotation) : List.Forall₂ SameButLead uses uses :=
  List.forall₂_same.mpr fun use _ => ⟨use.lead, rfl⟩

/--
The annotations of a copy: those of the original, in order, or one of them has been replaced by
others, if any, and the leads of those behind it may differ.
-/
inductive Copied : List Annotation → List Annotation → Prop
  | same (uses : List Annotation) : Copied uses uses
  | replaced (front : List Annotation) (mark : Annotation) (replacement : List Annotation)
      {back kept : List Annotation}
      (leads : List.Forall₂ SameButLead back kept) :
      Copied (front ++ mark :: back) (front ++ (replacement ++ kept))

theorem Copied.cons
    {uses others : List Annotation}
    (copied : Copied uses others)
    (first : Annotation) : Copied (first :: uses) (first :: others) := by
  cases copied with
  | same => exact .same _
  | replaced front mark replacement leads => exact .replaced (first :: front) mark replacement leads

theorem copied_erase (id : Nat) (declLead : String) (uses : List Annotation) :
    Copied uses (AnnotationList.erase id declLead uses).annotations := by
  fun_induction AnnotationList.erase id declLead uses with
  | case1 => exact .same []
  | case2 only same => exact .replaced [] only [] .nil
  | case3 only other => exact .same [only]
  | case4 first next rest same =>
      exact .replaced [] first [] (.cons ⟨first.lead, rfl⟩ (SameButLead.forall₂_refl rest))
  | case5 first next rest other others inductionHypothesis => exact inductionHypothesis.cons first

open Parameterized.ClassMigration in
theorem copied_replaceMark
    {uses : List Annotation}
    (distinct : (uses.map Annotation.id).Nodup)
    (mark : Annotation)
    (replacement : List Annotation) : Copied uses (replaceMark mark replacement uses) := by
  induction uses with
  | nil => exact .same []
  | cons first rest inductionHypothesis =>
      obtain ⟨absent, distinctRest⟩ := List.nodup_cons.mp distinct
      rw [replaceMark_cons]
      split
      · next same =>
          rw [replaceMark_of_not_mem (same ▸ absent)]
          exact .replaced [] first replacement (SameButLead.forall₂_refl rest)
      · exact (inductionHypothesis distinctRest).cons first

end Annotation

/-- A copy of a declaration: of the same kind, with its number, and with its annotations. -/
structure Member.Copied (member copy : Member) : Prop where
  kind : copy.kind = member.kind
  id : copy.id = member.id
  annotations : Annotation.Copied member.annotations copy.annotations

/--
A copy of a class: with its number, its annotations, and copies of its members, of which one field
may be missing and behind which others may have been added.
-/
structure ClassDecl.Copied (decl copy : ClassDecl) : Prop where
  id : copy.id = decl.id
  annotations : Annotation.Copied decl.annotations copy.annotations
  members : ∃ kept copies added,
    (kept = decl.members ∨
      ∃ front rule back, decl.members = front ++ .field rule :: back ∧ kept = front ++ back) ∧
    List.Forall₂ Member.Copied kept copies ∧ copy.members = copies ++ added

/-- What becomes of a file whose classes are copied: some are, with the given numbers. -/
def SourceUnit.Copied : List Nat → SourceUnit → SourceUnit → Prop :=
  SourceUnit.Revised fun _ inner copy => inner.Copied copy

theorem Member.Copied.refl (member : Member) : member.Copied member :=
  ⟨rfl, rfl, .same _⟩

/-- A copy of a declaration after other white space is a copy of the declaration. -/
theorem Member.SameButLead.copied
    {member middle copy : Member}
    (same : member.SameButLead middle)
    (copied : middle.Copied copy) : member.Copied copy := by
  obtain ⟨lead, rfl⟩ := same
  cases member <;> exact ⟨copied.kind, copied.id, copied.annotations⟩

/-! ## Parameterized classes -/

namespace Parameterized

open Synthesis

variable {scope : TypeScope} {earlier later : Session}

namespace ClassMigration

variable {migration : ClassMigration}

theorem copied_of_migrateMethod
    {decl result : Method}
    (distinct : (decl.annotations.map Annotation.id).Nodup)
    (makes : (migration.migrateMethod decl).Makes earlier result later) :
    (Member.method decl).Copied (.method result) := by
  unfold migrateMethod at makes
  split at makes
  · obtain ⟨rfl, -⟩ := makes_pure.mp makes
    exact ⟨rfl, rfl, .same _⟩
  · split at makes
    · next mark _ =>
        obtain ⟨rfl, -⟩ := makes_pure.mp makes
        exact ⟨rfl, rfl, Annotation.copied_erase mark.id decl.declLead decl.annotations⟩
    · next mark _ _ =>
        obtain ⟨_, replacement, _, body, -, -, -, rfl⟩ := makes_migrateTest makes
        exact ⟨rfl, rfl, Annotation.copied_replaceMark distinct mark replacement⟩
    · obtain ⟨rfl, -⟩ := makes_pure.mp makes
      exact .refl _

theorem copied_migrateField (decl : Field) :
    (Member.field decl).Copied (.field (migration.migrateField decl)) := by
  unfold migrateField
  split
  · split
    · next mark _ =>
        exact ⟨rfl, rfl, Annotation.copied_erase mark.id decl.declLead decl.annotations⟩
    · exact .refl _
  · exact .refl _

theorem copied_of_migrateMember
    {member result : Member}
    (distinct : member.class? = none → (member.annotations.map Annotation.id).Nodup)
    (makes : (migration.migrateMember member).Makes earlier result later) :
    member.Copied result := by
  cases member with
  | method decl =>
      obtain ⟨migrated, middle, makesMethod, rest⟩ := makes_bind.mp makes
      obtain ⟨rfl, -⟩ := makes_pure.mp rest
      exact copied_of_migrateMethod (distinct rfl) makesMethod
  | field decl =>
      obtain ⟨rfl, -⟩ := makes_pure.mp makes
      exact copied_migrateField decl
  | importDecl _ | verbatim _ | classDecl _ _ =>
      obtain ⟨rfl, -⟩ := makes_pure.mp makes
      exact .refl _

end ClassMigration

theorem copied_withoutRunner (scope : TypeScope) (decl : ClassDecl) :
    (withoutRunner scope decl).id = decl.id ∧
      Annotation.Copied decl.annotations (withoutRunner scope decl).annotations := by
  unfold withoutRunner
  split
  · next mark _ => exact ⟨rfl, Annotation.copied_erase mark.id decl.declLead decl.annotations⟩
  · exact ⟨rfl, .same _⟩

/-- A migrated class is a copy, whatever plan it is migrated by. -/
theorem copied_of_makes
    {layout : Layout}
    {plan : ClassPlan}
    {inner result : ClassDecl}
    (distinct : ∀ member ∈ inner.members, member.class? = none →
      (member.annotations.map Annotation.id).Nodup)
    (makes : (migrateClass scope layout plan inner).Makes earlier result later) :
    inner.Copied result := by
  obtain ⟨copies, middle, makesMembers, rest⟩ := makes_bind.mp makes
  obtain ⟨added, last, -, rest⟩ := makes_bind.mp rest
  obtain ⟨rfl, -⟩ := makes_pure.mp rest
  obtain ⟨id_eq, annotations⟩ := copied_withoutRunner scope inner
  have each := forall₂_of_mapM makesMembers
  rw [withoutRunner_members] at each
  refine ⟨id_eq, annotations, inner.members, copies, added, .inl rfl, ?_, rfl⟩
  have inside := (List.forall₂_and_left _ _).mpr ⟨fun _ member => member, each⟩
  refine inside.imp fun member copy makesMember => ?_
  obtain ⟨isMember, _, _, makes⟩ := makesMember
  exact ClassMigration.copied_of_migrateMember (distinct member isMember) makes

theorem decides_copied
    {unit : SourceUnit}
    {next : Nat}
    (distinct : Member.Distinct unit.nonImports next)
    (scope : TypeScope)
    (layout : Layout)
    (plans : List (Nat × ClassPlan)) :
    Member.Decides (fun _ inner copy => inner.Copied copy) (decide scope layout plans)
      unit.nonImports := by
  refine decides_decideByPlan plans _ (records_migrateClass scope layout) ?_
  intro head members inner rewritten plan result earlier later inside revised _ makes
  have below := Member.walkAll_sublist_walkAll _ (Member.mem_classesAll.mp inside)
  refine copied_of_makes (fun member isMember noClass => ?_) makes
  exact distinct.nodup_annotations
    (below.subset (Member.mem_walkAll_of_mem (revised.mem_of_noClass isMember noClass)))

/-- Whatever plans it migrates a file by, the recipe copies the classes it migrates. -/
theorem copied_of_finish
    {unit : SourceUnit}
    {next : Nat}
    (distinct : Member.Distinct unit.nonImports next)
    (layout : Layout)
    (plans : List (Nat × ClassPlan))
    (migrating finishing : Session) :
    let migrated := (((stages layout).migrate plans unit).run migrating).1
    ∃ rewritten, unit.Copied rewritten (((stages layout).finish migrated).run finishing).1 := by
  have revised : ∃ rewritten, Member.RevisedAll (fun _ inner copy => inner.Copied copy) rewritten
      unit.members (((stages layout).migrate plans unit).run migrating).1.unit.members := by
    have revised := (decides_copied distinct (TypeScope.ofUnit unit) layout plans).revisedAll []
      migrating
    unfold stages migratePlans
    dsimp only
    rw [migrate_eq]
    exact revised
  obtain ⟨rewritten, revised⟩ := revised
  exact ⟨rewritten, _, revised.filter, (stages layout).sameButLead_finish _ finishing⟩

end Parameterized

/-! ## Classes with a rule for expected exceptions -/

namespace ExpectedException

theorem copied_of_changed
    {layout : Layout}
    {rule : Field}
    {member copy : Member}
    (changed : Changed layout rule member copy) : member.Copied copy := by
  cases changed with
  | same => exact .refl _
  | planned => exact ⟨rfl, rfl, .same _⟩

/-- A class that has lost its rule is a copy without the rule. -/
theorem copied_of_rewrites
    {layout : Layout}
    {scope : TypeScope}
    {plans : List (Nat × RulePlan)}
    {entered inner result : ClassDecl}
    (rewrites : Rewrites layout scope plans entered inner result) : inner.Copied result := by
  obtain ⟨rule, plan, -, -, -, -, rewrittenBy⟩ := rewrites
  obtain ⟨front, back, members_eq, leads, each⟩ := rewrittenBy.members
  have copies : List.Forall₂ Member.Copied (front ++ back) result.members := by
    refine (forall₂_comp leads each).imp ?_
    rintro _ _ ⟨_, same, changed⟩
    exact same.copied (copied_of_changed changed)
  refine ⟨congrArg ClassHead.id rewrittenBy.head, ?_, front ++ back, result.members, [],
    .inr ⟨front, rule, back, members_eq, rfl⟩, copies, (List.append_nil _).symm⟩
  rw [rewrittenBy.head]
  exact .same _

end ExpectedException

/-! ## Recipes -/

/-- What a recipe makes of a file consists of copies and of what it has left alone. -/
theorem Recipe.copied_of_apply
    {recipe : Recipe}
    {layout : Layout}
    {unit result : SourceUnit}
    {session : Session}
    (wellFormed : Member.WellFormed unit.nonImports session.nextId)
    (applied : ((recipe.apply layout unit).run session).1 = some result) :
    ∃ rewritten, unit.Copied rewritten result := by
  obtain ⟨early, rewritten, makes, -⟩ := recipe.makes_apply layout wellFormed result applied
  cases recipe with
  | parameterized =>
      obtain ⟨migrating, finishing, -, result_eq⟩ := makes
      rw [result_eq]
      exact Parameterized.copied_of_finish wellFormed.distinct layout _ migrating finishing
  | expectedException =>
      obtain ⟨members, revised, leads⟩ := makes.revised
      refine ⟨rewritten, members, ?_, leads⟩
      exact revised.imp fun _ _ _ _ _ _ rewrites => ExpectedException.copied_of_rewrites rewrites

end JupiterMigration
