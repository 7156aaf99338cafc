import JupiterMigration.Proofs.Collection.OwnFacts
import JupiterMigration.Proofs.InPlace.Classes

/-!
# Classes with a rule in place

The plan for a class with a rule names the rule field and the planned methods by their numbers.
Both can be told by what they are: the rule field by its mark and type, a planned method by the scan
of its statements.  So the recipe does what it would do without numbers
(`ExpectedException.apply_stages_eq`): every class is migrated by the plan that is made from the
class itself, and every method by the plan that is made from the method itself.
-/

namespace JupiterMigration

open Migration (run_run_bind)
open Member (SameButLead)

namespace ExpectedException

/-! ## Collecting -/

/-- The plan for a class that has a rule, by the scan of its own members. -/
def RulePlan.ofClass (scope : TypeScope) (decl : ClassDecl) : Option RulePlan :=
  (ruleField? scope decl.members).bind fun rule => (scanClass rule decl.members).toOption

/-- The plans for some classes, by their numbers. -/
def plansOf (scope : TypeScope) (classes : List ClassDecl) : List (Nat × RulePlan) :=
  classes.filterMap fun decl => (RulePlan.ofClass scope decl).map fun plan => (decl.id, plan)

variable {scope : TypeScope}

/-- Leaving a class plans it by its own members. -/
theorem run_leaveClass
    (head : ClassHead)
    (members : List Member)
    (known : List (Nat × RulePlan))
    (session : Session) :
    ∃ afterwards, ((Collecting.leaveClass scope head members).run known).run session =
      (((), known ++ plansOf scope [⟨head, members⟩]), afterwards) := by
  have plansOf_eq : plansOf scope [⟨head, members⟩] =
      ((RulePlan.ofClass scope ⟨head, members⟩).map fun plan => (head.id, plan)).toList := by
    rw [plansOf, List.filterMap_cons]
    cases RulePlan.ofClass scope ⟨head, members⟩ <;> rfl
  rw [plansOf_eq, RulePlan.ofClass]
  unfold Collecting.leaveClass
  cases ruleField? scope members with
  | none =>
      refine ⟨((Collecting.reportFields scope head.name members).run session).2, ?_⟩
      change _ = (((), known ++ []), _)
      rw [List.append_nil]
      rfl
  | some rule =>
      dsimp only [Option.bind_some]
      cases scanClass rule members with
      | error use =>
          refine ⟨((Migration.skip head.name use.message).run session).2, ?_⟩
          change _ = (((), known ++ []), _)
          rw [List.append_nil]
          rfl
      | ok plan => exact ⟨_, rfl⟩

/-- Leaving declarations plans the classes among them. -/
theorem run_forM_leave
    (departures : List Departure)
    (known : List (Nat × RulePlan))
    (session : Session) :
    ∃ afterwards,
      ((departures.forM fun departure =>
          Collecting.leave scope departure.above (.member departure.member)).run known).run
          session =
        (((), known ++ plansOf scope (Departure.classes departures)), afterwards) := by
  induction departures generalizing known session with
  | nil =>
      refine ⟨session, ?_⟩
      rw [Departure.classes, plansOf, List.filterMap_nil, List.filterMap_nil, List.append_nil]
      rfl
  | cons first rest inductionHypothesis =>
      obtain ⟨above, member⟩ := first
      have plansOf_eq : plansOf scope (Departure.classes (⟨above, member⟩ :: rest)) =
          plansOf scope member.class?.toList ++ plansOf scope (Departure.classes rest) := by
        rw [plansOf, plansOf, plansOf, ← List.filterMap_append, Departure.classes,
          Departure.classes, List.filterMap_cons]
        cases member.class? <;> rfl
      have left : ∃ between,
          ((Collecting.leave scope above (.member member)).run known).run session =
            (((), known ++ plansOf scope member.class?.toList), between) := by
        cases member with
        | classDecl head members => exact run_leaveClass head members known session
        | _ =>
            refine ⟨session, ?_⟩
            change _ = (((), known ++ []), session)
            rw [List.append_nil]
            rfl
      obtain ⟨between, left_eq⟩ := left
      obtain ⟨afterwards, run_eq⟩ :=
        inductionHypothesis (known ++ plansOf scope member.class?.toList) between
      refine ⟨afterwards, ?_⟩
      rw [List.forM_eq_forM, List.forM_cons, run_run_bind, left_eq, plansOf_eq, ← List.append_assoc]
      exact run_eq

/-- Collecting from a file gives the plans of its classes by their own members. -/
theorem fst_run_collect (unit : SourceUnit) (session : Session) :
    ((collect unit).run session).1 = plansOf (TypeScope.ofUnit unit) unit.classesLeft := by
  have visit_eq := Visitor.visit_eq_forM (leavesMembers_visitor (.ofUnit unit)) unit
  obtain ⟨afterwards, run_eq⟩ := @run_forM_leave (.ofUnit unit) unit.departures [] session
  unfold collect
  rw [Migration.run_bind, visit_eq]
  exact congrArg (fun run => run.1.2) run_eq

theorem lookup_collect
    {unit : SourceUnit}
    (nodup : ((Member.classesAll unit.members).map (·.id)).Nodup)
    {decl : ClassDecl}
    (inside : decl ∈ Member.classesAll unit.members)
    (session : Session) :
    ((collect unit).run session).1.lookup decl.id =
      RulePlan.ofClass (TypeScope.ofUnit unit) decl := by
  have perm := unit.perm_classesLeft
  rw [fst_run_collect]
  exact lookup_filterMap ((perm.map _).nodup_iff.mpr nodup) (perm.mem_iff.mpr inside)

/-! ## Migrating a class by what its members are -/

/-- Whether a member of a class is a rule field. -/
def isRuleMember (scope : TypeScope) (member : Member) : Bool :=
  member.field?.any (isRule scope)

/-- The members of a class without the first rule field. -/
def withoutRule (scope : TypeScope) (members : List Member) : List Member :=
  match members.findIdx? (isRuleMember scope) with
  | some position => Member.removeAt position members
  | none => members

/-- Migrates a member if it is a method that its own scan plans. -/
def migrateMemberInPlace (layout : Layout) (memberIndent rule : String) :
    Member → Synthesis Member
  | .method decl => do
    match scanMethod rule decl with
    | .ok (some methodPlan) => return .method (← migrateMethod layout memberIndent methodPlan decl)
    | _ => return .method decl
  | member => return member

/-- Migrates a class by its plan, and its members by what they are. -/
def migrateClassInPlace (scope : TypeScope) (layout : Layout) (plan : RulePlan)
    (decl : ClassDecl) : Synthesis ClassDecl := do
  let memberIndent := layout.memberIndent decl
  let members ← (withoutRule scope decl.members).mapM
    (migrateMemberInPlace layout memberIndent plan.fieldName)
  return { decl with members }

/-- The first element of a list is found at the same place by tests that agree on the list. -/
theorem findIdx?_congr
    {α : Type}
    {test other : α → Bool}
    {items : List α}
    (same : ∀ item ∈ items, test item = other item) :
    items.findIdx? test = items.findIdx? other := by
  induction items with
  | nil => rfl
  | cons first rest inductionHypothesis =>
      obtain ⟨sameFirst, sameRest⟩ := List.forall_mem_cons.mp same
      rw [List.findIdx?_cons, List.findIdx?_cons, sameFirst, inductionHypothesis sameRest]

variable {rule : Field} {members inner : List Member} {plan : RulePlan} {layout : Layout}

/-- The rule field of a class is its only rule field. -/
theorem eq_of_isRule
    (found : ruleField? scope members = some rule)
    {field : Field}
    (inside : .field field ∈ members)
    (isRuleField : isRule scope field = true) : field = rule := by
  have listed : field ∈ ruleFields scope members :=
    List.mem_filter.mpr ⟨List.mem_filterMap.mpr ⟨_, inside, rfl⟩, isRuleField⟩
  unfold ruleField? at found
  split at found
  · next only =>
      split at found
      · cases found
        rw [only] at listed
        exact List.mem_singleton.mp listed
      · cases found
  · cases found

/-- In a class whose members have different numbers, that of the rule is the rule's alone. -/
theorem withoutMember_eq
    (found : ruleField? scope members = some rule)
    (distinct : (inner.map Member.id).Nodup)
    (ruleInside : .field rule ∈ inner)
    (inside : ∀ member ∈ inner, member.class? = none → member ∈ members) :
    withoutMember rule.id inner = withoutRule scope inner := by
  have same (member : Member) (isMember : member ∈ inner) :
      (member.id == rule.id) = isRuleMember scope member := by
    rw [Bool.eq_iff_iff, beq_iff_eq]
    constructor
    · intro sameId
      cases List.inj_on_of_nodup_map distinct isMember ruleInside sameId
      exact (of_ruleField found).2
    · intro isRuleField
      cases member with
      | field field =>
          rw [eq_of_isRule found (inside _ isMember rfl) isRuleField]
          rfl
      | _ => cases isRuleField
  unfold withoutMember
  rw [findIdx?_congr same]
  rfl

/-- What a class is without one of its members, apart from a lead. -/
theorem sameButLead_of_mem_withoutMember
    {id : Nat}
    {member : Member}
    (inside : member ∈ withoutMember id inner) : ∃ old ∈ inner, old.SameButLead member := by
  cases withoutMember_cases id inner with
  | inl same => exact ⟨member, same ▸ inside, .refl member⟩
  | inr removal =>
      obtain ⟨front, removed, back, rfl, -, leads⟩ := removal
      obtain ⟨old, oldInside, same⟩ := exists_of_forall₂ leads inside
      have sublist := (List.Sublist.refl front).append (List.sublist_cons_self removed back)
      exact ⟨old, sublist.subset oldInside, same⟩

theorem migrateMember_eq
    {member : Member}
    (scanned : ∀ decl, member = .method decl →
      scanMethod plan.fieldName decl = .ok (plan.methods.lookup decl.id))
    (memberIndent : String) :
    migrateMember layout memberIndent plan member =
      migrateMemberInPlace layout memberIndent plan.fieldName member := by
  cases member with
  | method decl =>
      rw [migrateMember, migrateMemberInPlace, scanned decl rfl]
      cases plan.methods.lookup decl.id <;> rfl
  | _ => rfl

/-- The nested classes in a class may have been revised before the class is migrated. -/
theorem migrateClass_eq
    {decl : ClassDecl}
    (found : ruleField? scope members = some rule)
    (scanned : scanClass rule members = .ok plan)
    (distinct : (members.map Member.id).Nodup)
    (distinctInner : (decl.members.map Member.id).Nodup)
    (ruleInside : .field rule ∈ decl.members)
    (inside : ∀ member ∈ decl.members, member.class? = none → member ∈ members)
    (layout : Layout) :
    migrateClass layout plan decl = migrateClassInPlace scope layout plan decl := by
  obtain ⟨fieldId_eq, fieldName_eq, scannedMembers⟩ := of_scanClass scanned
  have rest_eq := withoutMember_eq found distinctInner ruleInside inside
  have members_eq (memberIndent : String) :
      (withoutMember rule.id decl.members).mapM (migrateMember layout memberIndent plan) =
        (withoutMember rule.id decl.members).mapM
          (migrateMemberInPlace layout memberIndent plan.fieldName) := by
    refine mapM_congr fun member isMember => migrateMember_eq (fun method same => ?_) memberIndent
    subst same
    -- A lead more or less does not matter to the scan of a method.
    obtain ⟨old, isOld, lead, same⟩ := sameButLead_of_mem_withoutMember isMember
    cases old with
    | method other =>
        have scan_eq := scannedMembers.scanMethod_eq distinct (inside _ isOld rfl)
        cases same
        rw [fieldName_eq]
        exact scan_eq
    | _ => cases same
  unfold migrateClass migrateClassInPlace
  dsimp only
  rw [fieldId_eq, members_eq, rest_eq]

/-! ## The recipe without numbers -/

/-- The decision about a class that has no other plan than its own. -/
def decideHere (scope : TypeScope) (layout : Layout) :
    ClassDecl → ClassDecl → Migrating (Edit Member) :=
  decideInPlace (RulePlan.ofClass scope) (migrateClassInPlace scope layout) Progress.add

/-- Migrates the classes of a file in place. -/
def migrateInPlace (layout : Layout) (unit : SourceUnit) : Migration MigratedUnit := do
  let (members, progress) ←
    (Member.rewriteAll (decideHere (TypeScope.ofUnit unit) layout) unit.members).run .start
  return ⟨{ unit with members }, progress.migrated, importUpdate progress⟩

/-- The plan for a class is the scan of its members for its rule. -/
theorem exists_rule_of_ofClass
    {decl : ClassDecl}
    (planned : RulePlan.ofClass scope decl = some plan) :
    ∃ rule, ruleField? scope decl.members = some rule ∧ scanClass rule decl.members = .ok plan := by
  obtain ⟨rule, found, scanned⟩ := Option.bind_eq_some_iff.mp planned
  refine ⟨rule, found, ?_⟩
  cases scan_eq : scanClass rule decl.members with
  | error use => rw [scan_eq] at scanned; cases scanned
  | ok other => rw [scan_eq] at scanned; cases scanned; rfl

variable {unit : SourceUnit} {next : Nat}

theorem decideAlike
    {plans : List (Nat × RulePlan)}
    {Rewrites : ClassDecl → ClassDecl → ClassDecl → Prop}
    (keepsId : ∀ entered inner result, Rewrites entered inner result → result.id = inner.id)
    (distinct : Member.Distinct unit.nonImports next)
    (found : ∀ decl ∈ Member.classesAll unit.nonImports,
      plans.lookup decl.id = RulePlan.ofClass scope decl)
    (layout : Layout) :
    Member.DecideAlike Rewrites (decide layout plans) (decideHere scope layout)
      unit.nonImports := by
  intro head members inner rewritten inside revised
  have distinctMembers := distinct.nodup_members (Member.mem_classesAll.mp inside)
  refine decideByPlan_eq_decideInPlace (found _ inside) (fun plan planned => ?_) _
  obtain ⟨rule, isFound, scanned⟩ := exists_rule_of_ofClass planned
  have ruleInside : .field rule ∈ inner := by
    obtain ⟨front, back, rfl⟩ := List.append_of_mem (of_ruleField isFound).1
    obtain ⟨newFront, newBack, _, _, rfl, -, -⟩ := revised.exists_of_append rfl
    exact List.mem_append_right _ List.mem_cons_self
  refine migrateClass_eq isFound scanned distinctMembers ?_ ruleInside
    (fun member isMember noClass => revised.mem_of_noClass isMember noClass) layout
  rw [revised.map_id keepsId]
  exact distinctMembers

/-- With the plans of its classes, a file is migrated as it would be in place. -/
theorem migratePlans_eq
    (distinct : Member.Distinct unit.nonImports next)
    (layout : Layout)
    (session : Session) :
    migratePlans layout ((collect unit).run session).1 unit = migrateInPlace layout unit := by
  have decides := decides distinct (fun _ _ => scanned_of_planned unit session) layout
  have found (decl : ClassDecl) (inside : decl ∈ Member.classesAll unit.nonImports) :=
    lookup_collect distinct.nodup_classes (Member.mem_classesAll_nonImports.mp inside) session
  have keepsId (entered inner result : ClassDecl)
      (rewrites : Rewrites layout (TypeScope.ofUnit unit) ((collect unit).run session).1
        entered inner result) : result.id = inner.id := id_of_rewrites rewrites
  unfold migratePlans migrateInPlace
  rw [migrate_eq, (decideAlike keepsId distinct found layout).rewriteAll_eq decides]
  simp only [bind_assoc, pure_bind]

/-- In a file with different numbers, the recipe does what it would do in place. -/
theorem apply_stages_eq
    (distinct : Member.Distinct unit.nonImports next)
    (layout : Layout) :
    (stages layout).apply unit =
      { stages layout with migrate := fun _ => migrateInPlace layout }.apply unit :=
  Stages.apply_withMigrate (migratePlans_eq distinct layout)

end ExpectedException

end JupiterMigration
