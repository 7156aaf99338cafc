import JupiterMigration.Proofs.Naming

/-!
# What becomes of a class with a rule for expected exceptions

A migrated class has lost its rule field.  The other members correspond to those it had, in order;
only the statements of the planned methods differ, and the lead of the member after the rule
(`ExpectedException.RewrittenBy`).
-/

namespace JupiterMigration

namespace ExpectedException

open Member (SameButLead)

/--
What becomes of a member of a class that loses its rule: the statements of a planned method are the
assertions made for it.
-/
inductive Changed (layout : Layout) (rule : Field) : Member → Member → Prop
  | same (member : Member)
      (unplanned : ∀ decl, member = .method decl → scanMethod rule.name decl = .ok none) :
      Changed layout rule member member
  | planned (decl : Method) (plan : MethodPlan) (indent : String) (statements : List Statement)
      {earlier later : Session}
      (scanned : scanMethod rule.name decl = .ok (some plan))
      (made : (assertions layout plan decl indent).Makes earlier statements later) :
      Changed layout rule (.method decl) (.method { decl with
        body := decl.body.map fun block => { block with statements } })

/-- A class after it has lost its rule. -/
structure RewrittenBy (layout : Layout) (rule : Field) (inner result : ClassDecl) : Prop where
  head : result.toClassHead = inner.toClassHead
  members : ∃ front back, inner.members = front ++ .field rule :: back ∧
    List.Forall₂ SameButLead (front ++ back) (Member.removeAt front.length inner.members) ∧
    List.Forall₂ (Changed layout rule) (Member.removeAt front.length inner.members) result.members

/-- What becomes of a class that has one of some plans; no two of its members have one number. -/
def Rewrites
    (layout : Layout)
    (scope : TypeScope)
    (plans : List (Nat × RulePlan))
    (entered inner result : ClassDecl) : Prop :=
  ∃ rule plan, (entered.id, plan) ∈ plans ∧ ruleField? scope entered.members = some rule ∧
    scanClass rule entered.members = .ok plan ∧ (entered.members.map Member.id).Nodup ∧
    RewrittenBy layout rule inner result

theorem id_of_rewrites
    {layout : Layout}
    {scope : TypeScope}
    {plans : List (Nat × RulePlan)}
    {entered inner result : ClassDecl}
    (rewrites : Rewrites layout scope plans entered inner result) : result.id = inner.id := by
  obtain ⟨_, _, -, -, -, -, rewrittenBy⟩ := rewrites
  exact congrArg ClassHead.id rewrittenBy.head

/-- A class that loses its rule keeps its name and the names of the classes in it. -/
theorem keepsNames (layout : Layout) (scope : TypeScope) (plans : List (Nat × RulePlan)) :
    Member.KeepsNames (Rewrites layout scope plans) := by
  rintro entered inner result ⟨rule, _, -, -, -, -, rewrittenBy⟩
  obtain ⟨front, back, members_eq, leads, each⟩ := rewrittenBy.members
  constructor
  · rw [rewrittenBy.head]
  · have keeps (member other : Member) (changed : Changed layout rule member other) :
        other.classes.map (·.name) = member.classes.map (·.name) := by
      cases changed with
      | same => rfl
      | planned => rw [Member.classes_eq_nil rfl, Member.classes_eq_nil rfl]
    rw [Member.classNames_eq_of_forall₂ keeps each, SameButLead.classNames_eq leads, members_eq,
      Member.classNames_append, Member.classNames_append, Member.classNames_cons,
      Member.classes_eq_nil rfl]
    rfl

/-! ## Plans of methods -/

/-- The rule field of a class is a member that is marked as a rule. -/
theorem of_ruleField
    {scope : TypeScope}
    {members : List Member}
    {rule : Field}
    (found : ruleField? scope members = some rule) :
    .field rule ∈ members ∧ isRule scope rule = true := by
  unfold ruleField? at found
  split at found
  · next only =>
      split at found
      · cases found
        have inside : rule ∈ ruleFields scope members := by simp [only]
        obtain ⟨isField, marked⟩ := List.mem_filter.mp inside
        obtain ⟨member, member_mem, field_eq⟩ := List.mem_filterMap.mp isField
        cases member with
        | field other =>
            cases field_eq
            exact ⟨member_mem, marked⟩
        | _ => cases field_eq
      · cases found
  · cases found

/-- The plans of the methods among some members, of which no other mentions the rule. -/
inductive Scanned (rule : Field) : List Member → List (Nat × MethodPlan) → Prop
  | nil : Scanned rule [] []
  | unplanned (decl : Method) {rest : List Member} {plans : List (Nat × MethodPlan)}
      (scan_eq : scanMethod rule.name decl = .ok none)
      (later : Scanned rule rest plans) : Scanned rule (.method decl :: rest) plans
  | planned (decl : Method) (plan : MethodPlan) {rest : List Member}
      {plans : List (Nat × MethodPlan)}
      (scan_eq : scanMethod rule.name decl = .ok (some plan))
      (later : Scanned rule rest plans) :
      Scanned rule (.method decl :: rest) ((decl.id, plan) :: plans)
  | other (member : Member) {rest : List Member} {plans : List (Nat × MethodPlan)}
      (noMethod : member.method? = none)
      (unmentioned : member.id = rule.id ∨ rule.name ∉ member.namesUsed)
      (later : Scanned rule rest plans) : Scanned rule (member :: rest) plans

theorem scanned_of_scanMembers
    {rule : Field}
    {members : List Member}
    {plans : List (Nat × MethodPlan)}
    (scan_eq : scanMembers rule members = .ok plans) : Scanned rule members plans := by
  induction members generalizing plans with
  | nil =>
      cases scan_eq
      exact .nil
  | cons first rest inductionHypothesis =>
      cases first with
      | method decl =>
          rw [scanMembers] at scan_eq
          cases own_eq : scanMethod rule.name decl with
          | error use =>
              rw [own_eq] at scan_eq
              cases scan_eq
          | ok own =>
              rw [own_eq] at scan_eq
              cases rest_eq : scanMembers rule rest with
              | error use =>
                  rw [rest_eq] at scan_eq
                  cases scan_eq
              | ok others =>
                  rw [rest_eq] at scan_eq
                  cases scan_eq
                  cases own with
                  | none => exact .unplanned decl own_eq (inductionHypothesis rest_eq)
                  | some plan => exact .planned decl plan own_eq (inductionHypothesis rest_eq)
      | _ =>
          rw [scanMembers] at scan_eq
          · split at scan_eq
            · cases scan_eq
            · next unsupported =>
                refine .other _ rfl ?_ (inductionHypothesis scan_eq)
                rw [not_and_or, not_not] at unsupported
                simpa using unsupported
          · rintro _ ⟨⟩

namespace Scanned

variable {rule : Field} {members : List Member} {plans : List (Nat × MethodPlan)}

theorem lookup_eq_none
    (scanned : Scanned rule members plans)
    {id : Nat}
    (absent : id ∉ members.map Member.id) : plans.lookup id = none := by
  induction scanned with
  | nil => rfl
  | planned decl plan _ _ inductionHypothesis =>
      rw [List.map_cons, List.mem_cons, not_or] at absent
      have other : (id == decl.id) = false := beq_eq_false_iff_ne.mpr absent.1
      rw [List.lookup_cons, other]
      exact inductionHypothesis absent.2
  | unplanned _ _ _ inductionHypothesis | other _ _ _ _ inductionHypothesis =>
      rw [List.map_cons, List.mem_cons, not_or] at absent
      exact inductionHypothesis absent.2

/-- The plan of a method is what its scan gives, if no two members have one number. -/
theorem scanMethod_eq
    (scanned : Scanned rule members plans)
    (distinct : (members.map Member.id).Nodup)
    {decl : Method}
    (inside : .method decl ∈ members) :
    scanMethod rule.name decl = .ok (plans.lookup decl.id) := by
  induction scanned with
  | nil => exact absurd inside List.not_mem_nil
  | unplanned own scan_eq later inductionHypothesis =>
      obtain ⟨absent, distinctRest⟩ := List.nodup_cons.mp distinct
      cases inside with
      | head => exact scan_eq.trans (congrArg Except.ok (later.lookup_eq_none absent).symm)
      | tail _ isLater => exact inductionHypothesis distinctRest isLater
  | planned own plan scan_eq later inductionHypothesis =>
      obtain ⟨absent, distinctRest⟩ := List.nodup_cons.mp distinct
      cases inside with
      | head => rw [scan_eq, List.lookup_cons_self]
      | tail _ isLater =>
          have other : (decl.id == own.id) = false := by
            refine beq_eq_false_iff_ne.mpr fun same => absent ?_
            exact List.mem_map.mpr ⟨.method decl, isLater, same⟩
          rw [List.lookup_cons, other]
          exact inductionHypothesis distinctRest isLater
  | other member noMethod _ _ inductionHypothesis =>
      cases inside with
      | head => cases noMethod
      | tail _ isLater => exact inductionHypothesis (List.nodup_cons.mp distinct).2 isLater

/-- No member but the rule and the methods mentions the rule. -/
theorem unmentioned
    (scanned : Scanned rule members plans)
    {member : Member}
    (inside : member ∈ members)
    (noMethod : member.method? = none)
    (notRule : member.id ≠ rule.id) : rule.name ∉ member.namesUsed := by
  induction scanned with
  | nil => exact absurd inside List.not_mem_nil
  | unplanned own scan_eq later inductionHypothesis
  | planned own plan scan_eq later inductionHypothesis =>
      cases inside with
      | head => cases noMethod
      | tail _ isLater => exact inductionHypothesis isLater
  | other own _ unmentioned _ inductionHypothesis =>
      cases inside with
      | head => exact unmentioned.resolve_left notRule
      | tail _ isLater => exact inductionHypothesis isLater

/-- The plan of a method is the scan of a method with its number. -/
theorem exists_of_mem
    (scanned : Scanned rule members plans)
    {entry : Nat × MethodPlan}
    (inside : entry ∈ plans) :
    ∃ method, .method method ∈ members ∧ method.id = entry.1 ∧
      scanMethod rule.name method = .ok (some entry.2) := by
  induction scanned with
  | nil => cases inside
  | unplanned _ _ _ inductionHypothesis | other _ _ _ _ inductionHypothesis =>
      obtain ⟨method, isMember, scan⟩ := inductionHypothesis inside
      exact ⟨method, List.mem_cons_of_mem _ isMember, scan⟩
  | planned own plan scan_eq _ inductionHypothesis =>
      cases inside with
      | head => exact ⟨own, List.mem_cons_self, rfl, scan_eq⟩
      | tail _ later =>
          obtain ⟨method, isMember, scan⟩ := inductionHypothesis later
          exact ⟨method, List.mem_cons_of_mem _ isMember, scan⟩

end Scanned

/-- A class is planned for its rule field, with the plans of its methods. -/
theorem of_scanClass
    {rule : Field}
    {members : List Member}
    {plan : RulePlan}
    (scanned : scanClass rule members = .ok plan) :
    plan.fieldId = rule.id ∧ plan.fieldName = rule.name ∧ Scanned rule members plan.methods := by
  unfold scanClass at scanned
  cases methods_eq : scanMembers rule members with
  | error use =>
      rw [methods_eq] at scanned
      cases scanned
  | ok methods =>
      rw [methods_eq] at scanned
      cases scanned
      exact ⟨rfl, rfl, scanned_of_scanMembers methods_eq⟩

/-! ## Migrating a class -/

open Synthesis

variable {layout : Layout} {memberIndent : String} {plan : RulePlan} {earlier later : Session}

/-- A migrated method has the assertions made for it as its statements. -/
theorem makes_migrateMethod
    {methodPlan : MethodPlan}
    {decl result : Method}
    (makes : (migrateMethod layout memberIndent methodPlan decl).Makes earlier result later) :
    ∃ indent statements middle,
      (assertions layout methodPlan decl indent).Makes earlier statements middle ∧
      result = { decl with body := decl.body.map fun block => { block with statements } } := by
  obtain ⟨statements, middle, made, rest⟩ := makes_bind.mp makes
  obtain ⟨rfl, -⟩ := makes_pure.mp rest
  exact ⟨_, statements, middle, made, rfl⟩

theorem changed_of_migrateMember
    {rule : Field}
    {member result : Member}
    (scanned : ∀ decl, member = .method decl →
      scanMethod rule.name decl = .ok (plan.methods.lookup decl.id))
    (makes : (migrateMember layout memberIndent plan member).Makes earlier result later) :
    Changed layout rule member result := by
  cases member with
  | method decl =>
      rw [migrateMember] at makes
      split at makes
      · next methodPlan planned =>
          obtain ⟨migrated, middle, makesMethod, rest⟩ := makes_bind.mp makes
          obtain ⟨rfl, -⟩ := makes_pure.mp rest
          obtain ⟨indent, statements, _, made, rfl⟩ := makes_migrateMethod makesMethod
          exact .planned decl methodPlan indent statements (planned ▸ scanned decl rfl) made
      · next unplanned =>
          obtain ⟨rfl, -⟩ := makes_pure.mp makes
          refine .same _ fun other same => ?_
          cases same
          exact unplanned ▸ scanned decl rfl
  | importDecl _ | verbatim _ | field _ | classDecl _ _ =>
      obtain ⟨rfl, -⟩ := makes_pure.mp makes
      exact .same _ fun _ noMethod => by cases noMethod

/-- The declaration with a number that no other one has is removed. -/
theorem withoutMember_append
    {front back : List Member}
    {removed : Member}
    (distinct : ((front ++ removed :: back).map Member.id).Nodup) :
    withoutMember removed.id (front ++ removed :: back) =
      Member.removeAt front.length (front ++ removed :: back) := by
  have absent : ∀ member ∈ front, (member.id == removed.id) = false := by
    intro member inside
    rw [List.map_append, List.map_cons, List.nodup_append] at distinct
    simpa using distinct.2.2 _ (List.mem_map_of_mem inside) _ List.mem_cons_self
  have position : (front ++ removed :: back).findIdx? (·.id == removed.id) = some front.length := by
    rw [List.findIdx?_append, List.findIdx?_eq_none_iff.mpr absent]
    simp [List.findIdx?_cons]
  unfold withoutMember
  rw [position]

/-- What the migration of a class makes. -/
theorem rewrittenBy_of_makes
    {rule : Field}
    {inner result : ClassDecl}
    {front back : List Member}
    (members_eq : inner.members = front ++ .field rule :: back)
    (distinct : (inner.members.map Member.id).Nodup)
    (isFor : plan.fieldId = rule.id)
    (scanned : ∀ decl, .method decl ∈ inner.members →
      scanMethod rule.name decl = .ok (plan.methods.lookup decl.id))
    (makes : (migrateClass layout plan inner).Makes earlier result later) :
    RewrittenBy layout rule inner result := by
  obtain ⟨members, middle, makesMembers, rest⟩ := makes_bind.mp makes
  obtain ⟨rfl, -⟩ := makes_pure.mp rest
  have kept : withoutMember plan.fieldId inner.members =
      Member.removeAt front.length inner.members := by
    rw [members_eq] at distinct ⊢
    rw [isFor]
    exact withoutMember_append distinct
  rw [kept] at makesMembers
  have leads := SameButLead.of_removeAt front (.field rule) back
  rw [← members_eq] at leads
  refine ⟨rfl, front, back, members_eq, leads, ?_⟩
  have inside := (List.forall₂_and_left _ _).mpr
    ⟨fun _ member => member, forall₂_of_mapM makesMembers⟩
  refine inside.imp fun member other makesMember => ?_
  obtain ⟨member_mem, before, after, makes⟩ := makesMember
  refine changed_of_migrateMember (fun decl same => ?_) makes
  subst same
  -- A lead more or less does not matter to the scan of a method.
  obtain ⟨old, old_mem, lead, same⟩ := exists_of_forall₂ leads member_mem
  have old_mem : old ∈ inner.members := by
    rw [members_eq]
    exact (List.Sublist.refl front |>.append (List.sublist_cons_self _ back)).subset old_mem
  cases old with
  | method oldDecl =>
      cases same
      exact scanned oldDecl old_mem
  | _ => cases same

/-! ## Deciding about a class -/

theorem decides
    {unit : SourceUnit}
    {next : Nat}
    {plans : List (Nat × RulePlan)}
    {scope : TypeScope}
    (distinct : Member.Distinct unit.nonImports next)
    (plansFor : ∀ id plan, (id, plan) ∈ plans → plan.IsFor scope unit.walk id)
    (layout : Layout) :
    Member.Decides (Rewrites layout scope plans) (decide layout plans) unit.nonImports := by
  refine decides_decideByPlan plans _ (records_migrateClass layout) ?_
  intro head members inner rewritten plan result earlier later inside revised planned makes
  have classInside := Member.mem_classesAll.mp inside
  obtain ⟨scannedHead, scannedMembers, rule, scannedInside, sameId, found, scanned⟩ :=
    plansFor head.id plan planned
  have scannedBelow := SourceUnit.mem_walkAll_nonImports scannedInside rfl
  cases distinct.eq_of_id_eq scannedBelow classInside rfl rfl sameId
  obtain ⟨front, back, rfl⟩ := List.append_of_mem (of_ruleField found).1
  obtain ⟨newFront, newBack, _, _, rfl, -, -⟩ := revised.exists_of_append rfl
  have sameIds := revised.map_id fun _ _ _ => id_of_rewrites
  have distinctMembers := distinct.nodup_members classInside
  obtain ⟨isFor, -, scannedMethods⟩ := of_scanClass scanned
  refine ⟨rule, plan, planned, found, scanned, distinctMembers, ?_⟩
  refine rewrittenBy_of_makes rfl ?_ isFor (fun decl declInner => ?_) makes
  · rw [sameIds]
    exact distinctMembers
  · exact scannedMethods.scanMethod_eq distinctMembers (revised.mem_of_noClass declInner rfl)

/-! ## Numbers -/

/-- A member with the number is taken out from between the others, unless none has the number. -/
theorem withoutMember_cases (id : Nat) (members : List Member) :
    withoutMember id members = members ∨ ∃ front removed back,
      members = front ++ removed :: back ∧ removed.id = id ∧
        List.Forall₂ SameButLead (front ++ back) (withoutMember id members) := by
  unfold withoutMember
  split
  · next position found =>
      obtain ⟨inside, isRemoved, -⟩ := List.findIdx?_eq_some_iff_getElem.mp found
      have split_eq : members = members.take position ++
          members[position] :: members.drop (position + 1) := by
        rw [List.getElem_cons_drop, List.take_append_drop]
      have leads := SameButLead.of_removeAt (members.take position) members[position]
        (members.drop (position + 1))
      rw [← split_eq, List.length_take_of_le (Nat.le_of_lt inside)] at leads
      exact .inr ⟨_, _, _, split_eq, by simpa using isRemoved, leads⟩
  · exact .inl rfl

theorem idsAll_withoutMember_sublist (id : Nat) (members : List Member) :
    (Member.idsAll (withoutMember id members)).Sublist (Member.idsAll members) := by
  cases withoutMember_cases id members with
  | inl same => rw [same]
  | inr removal =>
      obtain ⟨front, removed, back, rfl, -, leads⟩ := removal
      rw [SameButLead.idsAll_eq leads]
      apply Member.idsAll_sublist_of_walkAll
      apply Member.walkAll_sublist_of_sublist
      exact (List.Sublist.refl front).append (List.sublist_cons_self removed back)

theorem renewed_of_migrateMember
    {member result : Member}
    (makes : (migrateMember layout memberIndent plan member).Makes earlier result later) :
    Renewed earlier.nextId later.nextId member.ids result.ids := by
  cases member with
  | method decl =>
      rw [migrateMember] at makes
      split at makes
      · next methodPlan planned =>
          have grows := records_migrateMethod layout memberIndent methodPlan decl
          obtain ⟨migrated, middle, makesMethod, rest⟩ := makes_bind.mp makes
          obtain ⟨rfl, rfl⟩ := makes_pure.mp rest
          obtain ⟨_, statements, _, -, rfl⟩ := makes_migrateMethod makesMethod
          rw [Member.ids_method, Member.ids_method]
          exact (Renewed.refl _ _).widen (nextId_le_of_makes grows makesMethod)
      · obtain ⟨rfl, rfl⟩ := makes_pure.mp makes
        exact .refl _ _
  | importDecl _ | verbatim _ | field _ | classDecl _ _ =>
      obtain ⟨rfl, rfl⟩ := makes_pure.mp makes
      exact .refl _ _

theorem renewed_of_migrateClass
    {decl result : ClassDecl}
    (makes : (migrateClass layout plan decl).Makes earlier result later) :
    Renewed earlier.nextId later.nextId decl.toMember.ids result.toMember.ids := by
  obtain ⟨members, middle, makesMembers, rest⟩ := makes_bind.mp makes
  obtain ⟨rfl, rfl⟩ := makes_pure.mp rest
  have kept := Renewed.of_sublist (idsAll_withoutMember_sublist plan.fieldId decl.members)
    earlier.nextId
  have changed := renewed_of_mapM (fun _ _ _ _ => renewed_of_migrateMember) makesMembers
  have front := Renewed.refl earlier.nextId (decl.id :: decl.annotations.map Annotation.id)
  rw [ClassDecl.toMember, ClassDecl.toMember, Member.ids_classDecl, Member.ids_classDecl]
  exact front.append (kept.trans changed)

theorem renews (layout : Layout) (plans : List (Nat × RulePlan)) :
    Member.Renews (decide layout plans) :=
  renews_decideByPlan plans _ (records_migrateClass layout) fun _ _ _ _ _ makes =>
    renewed_of_migrateClass makes

end ExpectedException

end JupiterMigration
