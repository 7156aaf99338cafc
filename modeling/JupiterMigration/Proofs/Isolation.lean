import JupiterMigration.Proofs.Isolation.Runs
import JupiterMigration.Proofs.Revision.ExpectedException
import JupiterMigration.Proofs.Revision.Parameterized

/-!
# Classes that cannot be migrated

If the migration of a planned class fails, the class stays where it was, with only the classes in it
migrated, and the run goes on as if the class had no plan: it notes the same and makes of all other
classes the same, apart from the numbers of nodes (`Recipe.leavesAlone_of_fails`).
-/

namespace JupiterMigration

open Member (RevisedAll classesAll)
open Synthesis

/-! ## Classes among members -/

/-- The same class, possibly after other white space and comments. -/
def ClassDecl.SameButLead (decl other : ClassDecl) : Prop :=
  decl.toMember.SameButLead other.toMember

namespace Member

/-- Where every class among some members stays as it is, so do the classes in them. -/
theorem classesAll_subset_of_forall₂
    {members others : List Member}
    (stays : List.Forall₂ (fun member other => member.class?.isSome = true → other = member) members
      others) :
    classesAll members ⊆ classesAll others := by
  induction stays with
  | nil => exact List.Subset.refl _
  | @cons member other _ _ head _ inductionHypothesis =>
      rw [classesAll_cons, classesAll_cons]
      apply List.append_subset.mpr
      constructor
      · cases isClass : member.class? with
        | none =>
            rw [classes_eq_nil isClass]
            exact List.nil_subset _
        | some decl =>
            rw [head (by rw [isClass]; rfl)]
            exact List.subset_append_left _ _
      · exact List.subset_append_of_subset_right _ inductionHypothesis

theorem SameButLead.exists_of_mem_classes
    {member other : Member}
    (same : member.SameButLead other)
    {decl : ClassDecl}
    (inside : decl ∈ member.classes) : ∃ kept ∈ other.classes, decl.SameButLead kept := by
  obtain ⟨lead, rfl⟩ := same
  cases member with
  | classDecl head members =>
      rw [withLead, classes_classDecl]
      rw [classes_classDecl] at inside
      cases inside with
      | head => exact ⟨_, List.mem_cons_self, lead, rfl⟩
      | tail _ deeper => exact ⟨decl, List.mem_cons_of_mem _ deeper, .refl _⟩
  | importDecl _ | verbatim _ | field _ | method _ =>
      rw [classes_eq_nil rfl] at inside
      cases inside

theorem SameButLead.exists_of_mem_classesAll
    {members others : List Member}
    (same : List.Forall₂ SameButLead members others)
    {decl : ClassDecl}
    (inside : decl ∈ classesAll members) : ∃ kept ∈ classesAll others, decl.SameButLead kept := by
  induction same with
  | nil => cases inside
  | cons head _ inductionHypothesis =>
      rw [classesAll_cons, List.mem_append] at inside
      rw [classesAll_cons]
      cases inside with
      | inl inFirst =>
          obtain ⟨kept, isClass, sameDecl⟩ := head.exists_of_mem_classes inFirst
          exact ⟨kept, List.mem_append_left _ isClass, sameDecl⟩
      | inr inRest =>
          obtain ⟨kept, isClass, sameDecl⟩ := inductionHypothesis inRest
          exact ⟨kept, List.mem_append_right _ isClass, sameDecl⟩

/-- A class among revised members has the number of a class that was among them before. -/
theorem RevisedAll.exists_class_of_id
    {Rewrites : ClassDecl → ClassDecl → ClassDecl → Prop}
    {ids : List Nat}
    {members others : List Member}
    (revised : RevisedAll Rewrites ids members others)
    (keepsId : ∀ entered inner result, Rewrites entered inner result → result.id = inner.id)
    {other : Member}
    (inside : other ∈ others)
    (isClass : other.class?.isSome = true) : ∃ decl ∈ classesAll members, decl.id = other.id := by
  induction others generalizing ids members with
  | nil => cases inside
  | cons first rest inductionHypothesis =>
      cases revised with
      | @cons front back old _ olds _ head tail =>
          rw [classesAll_cons]
          cases inside with
          | tail _ later =>
              obtain ⟨decl, isOld, sameId⟩ := inductionHypothesis tail later
              exact ⟨decl, List.mem_append_right _ isOld, sameId⟩
          | head =>
              cases head with
              | other noClass =>
                  rw [noClass] at isClass
                  cases isClass
              | @kept _ own members inner =>
                  rw [classes_classDecl]
                  exact ⟨⟨own, members⟩, List.mem_cons_self, rfl⟩
              | @rewritten _ own members inner result _ rewrites =>
                  rw [classes_classDecl]
                  exact ⟨⟨own, members⟩, List.mem_cons_self, (keepsId _ _ _ rewrites).symm⟩

end Member

/-! ## Parameterized classes -/

namespace Parameterized

theorem keepsClasses
    (scope : TypeScope)
    (layout : Layout)
    (plans : List (Nat × ClassPlan))
    (root : List Member) : KeepsClasses plans (migrateClass scope layout) Eq root where
  quietly := records_migrateClass scope layout
  refl _ := rfl
  trans := Eq.trans
  keeps := by
    rintro head members inner ids result - - ⟨plan, earlier, later, -, makes⟩ decl isClass
    refine ⟨decl, ?_, rfl⟩
    obtain ⟨changed, middle, makesMembers, rest⟩ := makes_bind.mp makes
    obtain ⟨appended, last, -, rest⟩ := makes_bind.mp rest
    obtain ⟨rfl, -⟩ := makes_pure.mp rest
    rw [withoutRunner_members] at makesMembers
    have stays : List.Forall₂ (fun member other => member.class?.isSome = true → other = member)
        inner changed := by
      refine (forall₂_of_mapM makesMembers).imp fun member other makesMember isClass => ?_
      obtain ⟨before, after, makes⟩ := makesMember
      cases member with
      | classDecl => exact (makes_pure.mp makes).1
      | _ => cases isClass
    rw [Member.classesAll_append]
    exact List.mem_append_left _ (Member.classesAll_subset_of_forall₂ stays isClass)

/-- The migration of a planned class of a file fails. -/
def Fails
    (layout : Layout)
    (plans : List (Nat × ClassPlan))
    (unit : SourceUnit)
    (decl : ClassDecl) : Prop :=
  JupiterMigration.Fails plans (migrateClass (.ofUnit unit) layout)
    (fun name _ names => names ++ [name]) decl

end Parameterized

/-! ## Classes with a rule for expected exceptions -/

namespace ExpectedException

theorem id_of_makes_migrateClass
    {layout : Layout}
    {plan : RulePlan}
    {inner result : ClassDecl}
    {earlier later : Session}
    (makes : (migrateClass layout plan inner).Makes earlier result later) :
    result.id = inner.id := by
  obtain ⟨members, middle, -, rest⟩ := makes_bind.mp makes
  obtain ⟨rfl, -⟩ := makes_pure.mp rest
  rfl

/-- The classes among members stay if one is removed that is no class. -/
theorem exists_of_withoutMember
    {id : Nat}
    {members : List Member}
    (noClass : ∀ member ∈ members, member.class?.isSome = true → member.id ≠ id)
    {decl : ClassDecl}
    (inside : decl ∈ classesAll members) :
    ∃ other ∈ classesAll (withoutMember id members), decl.SameButLead other := by
  cases withoutMember_cases id members with
  | inl same =>
      rw [same]
      exact ⟨decl, inside, .refl _⟩
  | inr removal =>
      obtain ⟨front, removed, back, rfl, sameId, leads⟩ := removal
      have noClasses : removed.classes = [] := by
        apply Member.classes_eq_nil
        by_contra isClass
        apply noClass removed (by simp) _ sameId
        exact Option.isSome_iff_ne_none.mpr isClass
      apply Member.SameButLead.exists_of_mem_classesAll leads
      rw [Member.classesAll_append, Member.classesAll_cons, noClasses] at inside
      rw [Member.classesAll_append]
      exact inside

theorem keepsClasses
    (layout : Layout)
    (plans : List (Nat × RulePlan))
    (root : List Member)
    (noClass : ∀ entry ∈ plans, ∀ decl ∈ classesAll root, entry.2.fieldId ≠ decl.id) :
    KeepsClasses plans (migrateClass layout) ClassDecl.SameButLead root where
  quietly := records_migrateClass layout
  refl _ := .refl _
  trans := .trans
  keeps := by
    rintro head members inner ids result isClass revised ⟨plan, earlier, later, planned, makes⟩
    intro decl inside
    obtain ⟨changed, middle, makesMembers, rest⟩ := makes_bind.mp makes
    obtain ⟨rfl, -⟩ := makes_pure.mp rest
    have ruleIsNoClass : ∀ member ∈ inner, member.class?.isSome = true →
        member.id ≠ plan.fieldId := by
      intro member isMember memberIsClass sameId
      obtain ⟨old, isOld, oldId⟩ := revised.exists_class_of_id
        (fun _ _ _ made => by
          obtain ⟨_, _, _, -, makes⟩ := made
          exact id_of_makes_migrateClass makes)
        isMember memberIsClass
      have below := Member.walkAll_sublist_walkAll _ (Member.mem_classesAll.mp isClass)
      exact noClass _ planned old ((below.filterMap _).subset isOld) (sameId.symm.trans oldId.symm)
    obtain ⟨kept, isKept, same⟩ := exists_of_withoutMember ruleIsNoClass inside
    refine ⟨kept, ?_, same⟩
    have stays : List.Forall₂ (fun member other => member.class?.isSome = true → other = member)
        (withoutMember plan.fieldId inner) changed := by
      refine (forall₂_of_mapM makesMembers).imp fun member other makesMember isClass => ?_
      obtain ⟨before, after, makes⟩ := makesMember
      cases member with
      | classDecl => exact (makes_pure.mp makes).1
      | _ => cases isClass
    exact Member.classesAll_subset_of_forall₂ stays isKept

/-- The migration of a planned class of a file fails. -/
def Fails (layout : Layout) (plans : List (Nat × RulePlan)) (decl : ClassDecl) : Prop :=
  JupiterMigration.Fails plans (migrateClass layout) Progress.add decl

end ExpectedException

/-! ## Files -/

/--
A planned class whose migration fails is left alone by either recipe, whatever the plans: the class
is still in the file, only classes in it have been rewritten, and the run notes the same and makes
of all else the same as a run without a plan for the class, apart from the numbers of nodes.  A plan
of the second recipe takes no class for its rule field; a class after a rule field takes over its
lead.
-/
theorem Recipe.leavesAlone_of_fails
    {unit : SourceUnit}
    (nodup : ((classesAll unit.members).map (·.id)).Nodup)
    {decl : ClassDecl}
    (inside : decl ∈ classesAll unit.members)
    (layout : Layout)
    (session other : Session) :
    (∀ plans, Parameterized.Fails layout plans unit decl →
      let run := ((Parameterized.migrate layout plans unit).run session).1
      let without := ((Parameterized.migrate layout (plans.filter (·.1 != decl.id)) unit).run
        other).1
      LeavesAlone (MadeBy plans (Parameterized.migrateClass (.ofUnit unit) layout)) Eq
        unit.members decl
        (run.1.members, run.2) (without.1.members, without.2)) ∧
    (∀ plans, (∀ entry ∈ plans, ∀ decl ∈ classesAll unit.members, entry.2.fieldId ≠ decl.id) →
      ExpectedException.Fails layout plans decl →
      let run := ((ExpectedException.migrate layout plans unit).run session).1
      let without := ((ExpectedException.migrate layout (plans.filter (·.1 != decl.id)) unit).run
        other).1
      LeavesAlone (MadeBy plans (ExpectedException.migrateClass layout)) ClassDecl.SameButLead
        unit.members decl (run.1.members, run.2) (without.1.members, without.2)) := by
  constructor
  · intro plans fails
    rw [Parameterized.migrate_eq, Parameterized.migrate_eq]
    exact leavesAlone_rewriteAll (Parameterized.uniform_migrateClass _ layout)
      (Parameterized.keepsClasses _ layout plans unit.members) nodup inside fails [] session other
  · intro plans noClass fails
    rw [ExpectedException.migrate_eq, ExpectedException.migrate_eq]
    exact leavesAlone_rewriteAll (ExpectedException.uniform_migrateClass layout)
      (ExpectedException.keepsClasses layout plans unit.members noClass) nodup inside fails .start
      session other

/-- The head of a class without annotations. -/
def bareHead (id : Nat) (name : String) : ClassHead :=
  ⟨id, "\n", [], "", "class " ++ name ++ " \x7b", name, "\n", [name]⟩

/-- A field for a rule. -/
def ruleField (id : Nat) : Field :=
  ⟨id, "\n", [], "", "ExpectedException rule;", "ExpectedException", "rule", [], 1,
    ["ExpectedException"]⟩

/-- A method with an empty body. -/
def emptyMethod : Method :=
  ⟨5, "\n", [], "", "", some "void", " ", "runs", "", [], "", " ", some ⟨6, "", [], ""⟩, []⟩

/-- A class between an outer and an inner one. -/
def middleClass : ClassDecl :=
  ⟨bareHead 2 "B", [.field (ruleField 4), .method emptyMethod,
    .classDecl (bareHead 3 "C") [.field (ruleField 7)]]⟩

/-- A file with a class in a class in a class. -/
def nestedClasses : SourceUnit :=
  ⟨0, "", [.classDecl (bareHead 1 "A") [.field (ruleField 8), middleClass.toMember]], "\n", none⟩

/-- A plan for a class that asks for an initializer, or for no changes. -/
def initializerPlan (name : String) (lines : Option (List String)) : Parameterized.ClassPlan :=
  ⟨name, "data", "init" ++ name, [], none, none, [], lines⟩

/-- Plans for all classes; the initializer of the middle one has an unclosed string. -/
def initializerPlans : List (Nat × Parameterized.ClassPlan) :=
  [(1, initializerPlan "A" none), (2, initializerPlan "B" (some ["\""])),
    (3, initializerPlan "C" none)]

/-- A plan for a method that expects an exception of a type. -/
def throwingPlan (type : String) : ExpectedException.MethodPlan :=
  let statement : Statement := ⟨9, "", "run();", none, []⟩
  ⟨[], [⟨.type, ⟨type ++ ".class", .classLiteral type, []⟩, statement⟩], [], statement⟩

/-- Plans for all classes; the type expected in the middle one is an unclosed string. -/
def throwingPlans : List (Nat × ExpectedException.RulePlan) :=
  [(1, ⟨8, "rule", []⟩), (2, ⟨4, "rule", [(5, throwingPlan "\"")]⟩), (3, ⟨7, "rule", []⟩)]

theorem Recipe.leavesAlone_of_fails_nestedClasses :
    ((classesAll nestedClasses.members).map (·.id)).Nodup ∧
      middleClass ∈ classesAll nestedClasses.members ∧
      Parameterized.Fails ⟨"  "⟩ initializerPlans nestedClasses middleClass ∧
      (∀ entry ∈ throwingPlans, ∀ decl ∈ classesAll nestedClasses.members,
        entry.2.fieldId ≠ decl.id) ∧
      ExpectedException.Fails ⟨"  "⟩ throwingPlans middleClass ∧
      (let run := ((Parameterized.migrate ⟨"  "⟩ initializerPlans nestedClasses).run
          ⟨.empty, 10⟩).1
        let without := ((Parameterized.migrate ⟨"  "⟩ (initializerPlans.filter (·.1 != 2))
          nestedClasses).run ⟨.empty, 10⟩).1
        LeavesAlone (MadeBy initializerPlans
            (Parameterized.migrateClass (.ofUnit nestedClasses) ⟨"  "⟩)) Eq nestedClasses.members
          middleClass (run.1.members, run.2) (without.1.members, without.2)) ∧
      (let run := ((ExpectedException.migrate ⟨"  "⟩ throwingPlans nestedClasses).run
          ⟨.empty, 10⟩).1
        let without := ((ExpectedException.migrate ⟨"  "⟩ (throwingPlans.filter (·.1 != 2))
          nestedClasses).run ⟨.empty, 10⟩).1
        LeavesAlone (MadeBy throwingPlans (ExpectedException.migrateClass ⟨"  "⟩))
          ClassDecl.SameButLead nestedClasses.members middleClass (run.1.members, run.2)
          (without.1.members, without.2)) := by
  have classes_eq : classesAll nestedClasses.members =
      [⟨bareHead 1 "A", [.field (ruleField 8), middleClass.toMember]⟩, middleClass,
        ⟨bareHead 3 "C", [.field (ruleField 7)]⟩] := rfl
  have nodup : ((classesAll nestedClasses.members).map (·.id)).Nodup := by
    rw [classes_eq]
    decide
  have inside : middleClass ∈ classesAll nestedClasses.members := by
    rw [classes_eq]
    simp
  have noClass : ∀ entry ∈ throwingPlans, ∀ decl ∈ classesAll nestedClasses.members,
        entry.2.fieldId ≠ decl.id := by
    rw [classes_eq]
    simp [throwingPlans, middleClass, bareHead]
  have fails : Parameterized.Fails ⟨"  "⟩ initializerPlans nestedClasses middleClass :=
    fails_of_run rfl [] ⟨.empty, 10⟩ (by decide +kernel)
  have failsToo : ExpectedException.Fails ⟨"  "⟩ throwingPlans middleClass :=
    fails_of_run rfl .start ⟨.empty, 10⟩ (by decide +kernel)
  obtain ⟨parameterized, expectedException⟩ :=
    leavesAlone_of_fails nodup inside ⟨"  "⟩ ⟨.empty, 10⟩ ⟨.empty, 10⟩
  exact ⟨nodup, inside, fails, noClass, failsToo, parameterized initializerPlans fails,
    expectedException throwingPlans noClass failsToo⟩

end JupiterMigration
