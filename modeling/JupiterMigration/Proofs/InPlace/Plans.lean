import JupiterMigration.Proofs.InPlace.ExpectedException
import JupiterMigration.Proofs.InPlace.Parameterized

/-!
# What the numbers in plans lead to

A plan names a class, and members of the class, by their numbers.  In a file whose classes, methods,
fields and annotations have different numbers, each of these numbers leads to one node
(`SourceUnit.LeadsTo`), and that is the one from which the plan, or the part of the plan, has been
made (`Parameterized.ClassPlan.IsMadeFrom`, `ExpectedException.RulePlan.IsMadeFrom`).
-/

namespace JupiterMigration

/-! ## Nodes with numbers of their own -/

/-- Whether a node is a class, a method, a field or an annotation. -/
def Node.isSingledOut (node : Node) : Bool :=
  [NodeKind.classDecl, .method, .field, .annotationUse].contains node.kind

/-- The classes, methods, fields and annotations of a file. -/
def SourceUnit.singledOut (unit : SourceUnit) : List Node :=
  unit.walk.filter Node.isSingledOut

theorem Node.hasIdentity_of_isSingledOut {node : Node} (singledOut : node.isSingledOut = true) :
    node.hasIdentity = true := by
  cases node with
  | member decl => rfl
  | annotationUse use => rfl
  | _ => cases singledOut

namespace Member

theorem filter_isSingledOut_walkAll_filter (members : List Member) :
    (walkAll (members.filter (!·.isImport))).filter Node.isSingledOut =
      (walkAll members).filter Node.isSingledOut := by
  induction members with
  | nil => rfl
  | cons first rest inductionHypothesis =>
      rw [List.filter_cons, walkAll, List.filter_append, ← inductionHypothesis]
      split
      · rw [walkAll, List.filter_append]
      · next isImport =>
          cases first with
          | importDecl decl => rfl
          | _ => exact absurd rfl isImport

/-- Where all numbers are different, those of classes, methods, fields and annotations are. -/
theorem Distinct.nodup_singledOut
    {unit : SourceUnit}
    {next : Nat}
    (distinct : Distinct unit.nonImports next) : (unit.singledOut.map Node.id).Nodup := by
  have singledOut_eq : unit.singledOut =
      (walkAll unit.nonImports).filter Node.isSingledOut :=
    (filter_isSingledOut_walkAll_filter unit.members).symm
  have sublist := List.monotone_filter_right (walkAll unit.nonImports)
    fun node => @Node.hasIdentity_of_isSingledOut node
  rw [singledOut_eq]
  exact (sublist.map Node.id).nodup distinct.nodup

end Member

/-- A number leads to a node of a file: no other one that is singled out has the number. -/
structure SourceUnit.LeadsTo (unit : SourceUnit) (id : Nat) (node : Node) : Prop where
  inside : node ∈ unit.singledOut
  sameId : node.id = id
  unique : ∀ other ∈ unit.singledOut, other.id = id → other = node

namespace Member.Distinct

variable {unit : SourceUnit} {next : Nat} (distinct : Distinct unit.nonImports next)
include distinct

/-- The number of a node that is singled out leads to the node. -/
theorem leadsTo
    {node : Node}
    (inside : node ∈ unit.walk)
    (isSingledOut : node.isSingledOut = true) : unit.LeadsTo node.id node := by
  have singledOut : node ∈ unit.singledOut := List.mem_filter.mpr ⟨inside, isSingledOut⟩
  exact ⟨singledOut, rfl, fun other isOther same =>
    List.inj_on_of_nodup_map distinct.nodup_singledOut isOther singledOut same⟩

theorem leadsTo_class
    {decl : ClassDecl}
    (inside : decl ∈ classesAll unit.members) : unit.LeadsTo decl.id (.member decl.toMember) :=
  distinct.leadsTo (List.mem_cons_of_mem _ (mem_classesAll.mp inside)) rfl

/-- The number of a member of a class leads to the member. -/
theorem leadsTo_member
    {decl : ClassDecl}
    (inside : decl ∈ classesAll unit.members)
    {member : Member}
    (isMember : member ∈ decl.members)
    (isSingledOut : (Node.member member).isSingledOut = true) :
    unit.LeadsTo member.id (.member member) := by
  have below := walkAll_sublist_walkAll unit.members (mem_classesAll.mp inside)
  exact distinct.leadsTo (List.mem_cons_of_mem _ (below.subset (mem_walkAll_of_mem isMember)))
    isSingledOut

end Member.Distinct

/-! ## Parameterized classes -/

namespace Parameterized

/-- A plan that a file has under a number has been made from a class, and its numbers lead back. -/
structure ClassPlan.IsMadeFrom
    (unit : SourceUnit)
    (id : Nat)
    (plan : ClassPlan)
    (decl : ClassDecl) : Prop where
  planned : ofClass (TypeScope.ofUnit unit) decl = some plan
  leads : unit.LeadsTo id (.member decl.toMember)
  constructor : ∀ own, plan.constructorId = some own → ∃ constructor : Method,
    .method constructor ∈ decl.members ∧ constructor.isConstructor = true ∧
      plan.parameters = constructor.parameters.mapIdx PlannedParameter.ofParameter ∧
      unit.LeadsTo own (.member (.method constructor))
  fields : ∀ own ∈ plan.fieldIds, ∃ field : Field,
    .field field ∈ decl.members ∧ isMarked (TypeScope.ofUnit unit) field = true ∧
      unit.LeadsTo own (.member (.field field))

/-- In a file with different numbers, every plan has been made from the class it is for. -/
theorem exists_isMadeFrom
    {unit : SourceUnit}
    {next : Nat}
    (distinct : Member.Distinct unit.nonImports next)
    {session : Session}
    {entry : Nat × ClassPlan}
    (collected : entry ∈ ((collect unit).run session).1.plans) :
    ∃ decl, entry.2.IsMadeFrom unit entry.1 decl := by
  rw [fst_run_collect distinct.nodup_classes] at collected
  obtain ⟨decl, left, isPlanned⟩ := List.mem_filterMap.mp collected
  obtain ⟨plan, planned, rfl⟩ := Option.map_eq_some_iff.mp isPlanned
  have inside := unit.perm_classesLeft.mem_iff.mp left
  have distinctMembers := distinct.nodup_members
    (Member.mem_classesAll.mp (Member.mem_classesAll_nonImports.mpr inside))
  have picksOut := ClassPlan.picksOut_of_ofClass planned distinctMembers
  refine ⟨decl, planned, distinct.leadsTo_class inside, fun own named => ?_, fun own named => ?_⟩
  · obtain ⟨-, -, receives⟩ := ClassPlan.receives_of_ofClass planned
    cases receives with
    | constructor constructor isMember isNamed parameters converted =>
        cases isNamed.symm.trans named
        exact ⟨constructor, isMember, ((picksOut.constructor constructor isMember).mp isNamed).2,
          parameters, distinct.leadsTo_member inside isMember rfl⟩
    | fields noConstructor =>
        cases noConstructor.symm.trans named
  · obtain ⟨field, isMember, rfl⟩ := picksOut.fieldIds own named
    exact ⟨field, isMember, ((picksOut.field field isMember).mp named).2,
      distinct.leadsTo_member inside isMember rfl⟩

end Parameterized

/-! ## Classes with a rule for expected exceptions -/

namespace ExpectedException

/-- A plan that a file has under a number has been made from a class, and its numbers lead back. -/
structure RulePlan.IsMadeFrom
    (unit : SourceUnit)
    (id : Nat)
    (plan : RulePlan)
    (decl : ClassDecl) : Prop where
  planned : ofClass (TypeScope.ofUnit unit) decl = some plan
  leads : unit.LeadsTo id (.member decl.toMember)
  rule : ∃ rule : Field, .field rule ∈ decl.members ∧
    ruleField? (TypeScope.ofUnit unit) decl.members = some rule ∧ plan.fieldName = rule.name ∧
    unit.LeadsTo plan.fieldId (.member (.field rule))
  methods : ∀ entry ∈ plan.methods, ∃ method : Method, .method method ∈ decl.members ∧
    scanMethod plan.fieldName method = .ok (some entry.2) ∧
    unit.LeadsTo entry.1 (.member (.method method))

/-- In a file with different numbers, every plan has been made from the class it is for. -/
theorem exists_isMadeFrom
    {unit : SourceUnit}
    {next : Nat}
    (distinct : Member.Distinct unit.nonImports next)
    {session : Session}
    {entry : Nat × RulePlan}
    (collected : entry ∈ ((collect unit).run session).1) :
    ∃ decl, entry.2.IsMadeFrom unit entry.1 decl := by
  rw [fst_run_collect] at collected
  obtain ⟨decl, left, isPlanned⟩ := List.mem_filterMap.mp collected
  obtain ⟨plan, planned, rfl⟩ := Option.map_eq_some_iff.mp isPlanned
  have inside := unit.perm_classesLeft.mem_iff.mp left
  obtain ⟨rule, found, scanned⟩ := exists_rule_of_ofClass planned
  obtain ⟨fieldId_eq, fieldName_eq, scannedMembers⟩ := of_scanClass scanned
  have isMember := (of_ruleField found).1
  refine ⟨decl, planned, distinct.leadsTo_class inside, ⟨rule, isMember, found, fieldName_eq, ?_⟩,
    fun entry isPlan => ?_⟩
  · rw [fieldId_eq]
    exact distinct.leadsTo_member inside isMember rfl
  · obtain ⟨method, isMember, sameId, scan_eq⟩ := scannedMembers.exists_of_mem isPlan
    rw [fieldName_eq, ← sameId]
    exact ⟨method, isMember, scan_eq, distinct.leadsTo_member inside isMember rfl⟩

end ExpectedException

/-! ## Recipes -/

/-- The plans that a recipe collects from a file have been made from the classes they are for. -/
def Recipe.PlansLeadBack (unit : SourceUnit) : Recipe → Prop
  | parameterized => ∀ session, ∀ entry ∈ ((Parameterized.collect unit).run session).1.plans,
    ∃ decl, entry.2.IsMadeFrom unit entry.1 decl
  | expectedException => ∀ session, ∀ entry ∈ ((ExpectedException.collect unit).run session).1,
    ∃ decl, entry.2.IsMadeFrom unit entry.1 decl

theorem Recipe.plansLeadBack
    (recipe : Recipe)
    {unit : SourceUnit}
    {next : Nat}
    (distinct : Member.Distinct unit.nonImports next) : recipe.PlansLeadBack unit := by
  cases recipe with
  | parameterized => exact fun _ _ => Parameterized.exists_isMadeFrom distinct
  | expectedException => exact fun _ _ => ExpectedException.exists_isMadeFrom distinct

end JupiterMigration
