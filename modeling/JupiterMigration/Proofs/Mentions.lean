import JupiterMigration.Proofs.Printing
import JupiterMigration.Proofs.Revision
import JupiterMigration.Proofs.Scanning
import JupiterMigration.Proofs.Usage

/-!
# Where the name of a removed rule may be left

A class is planned only if no statement mentions the rule but the expectations, and no member that
is no method.  So after the rule has been removed, its name can only be left in the header of a
method, in an assertion made from expectations that mention it, or in a nested class that has been
rewritten (`ExpectedException.leaves_of_migrate`).  An expectation may mention the rule in its
argument (`Run.mentioned_after_removal`).
-/

namespace JupiterMigration

namespace ExpectedException

open Member (SameButLead RevisedAll bodyStatements)

/-! ## Scanning methods -/

/-- Only the expectations among the statements of a method mention the rule. -/
theorem of_scanMethod
    {rule : String}
    {decl : Method}
    {plan : Option MethodPlan}
    (scan_eq : scanMethod rule decl = .ok plan) :
    ∃ (leading : List Statement) (expectations : List Expectation) (body : List Statement),
      bodyStatements decl = leading ++ (expectations.map (·.statement) ++ body) ∧
      (∀ statement ∈ leading ++ body, mentions rule statement = false) ∧
      plan = expectations.head?.map fun first =>
        { leading, expectations := inOrder expectations, body, anchor := first.statement } := by
  obtain ⟨leading, others, expectations, body, leading_eq, calls_eq, unmentionedBody, plan_eq⟩ :=
    scanMethod_eq_ok_iff.mp scan_eq
  obtain ⟨statements_eq, unmentionedLeading, -⟩ := scanLeading_eq_ok_iff.mp leading_eq
  obtain ⟨rfl, -⟩ := scanCalls_eq_ok_iff.mp calls_eq
  refine ⟨leading, expectations, body, statements_eq, fun statement inside => ?_, plan_eq⟩
  cases List.mem_append.mp inside with
  | inl isLeading => exact (unmentionedLeading statement isLeading).2
  | inr isBody => exact unmentionedBody statement isBody

/-- A method without a plan has no statement that mentions the rule. -/
theorem unmentioned_of_unplanned
    {rule : String}
    {decl : Method}
    (unplanned : scanMethod rule decl = .ok none) :
    ∀ statement ∈ bodyStatements decl, rule ∉ statement.references := by
  obtain ⟨leading, expectations, body, statements_eq, unmentioned, plan_eq⟩ :=
    of_scanMethod unplanned
  cases expectations with
  | nil =>
      intro statement inside
      rw [statements_eq] at inside
      simpa [mentions] using unmentioned statement inside
  | cons first rest => cases plan_eq

/-! ## What is left in a class -/

/-- Whether a name is used in a method outside its body. -/
def UsedInHeader (name : String) (decl : Method) : Prop :=
  name ∈ decl.references ∨ (∃ use ∈ decl.annotations, name ∈ use.references) ∨
    ∃ parameter ∈ decl.parameters, name ∈ parameter.references

/-- Where the name of a rule may be left in a member of a class that had some members before. -/
inductive LeftIn (layout : Layout) (rule : Field) (members : List Member) : Member → Prop
  /-- In the header of a method. -/
  | header (decl : Method) (used : UsedInHeader rule.name decl) :
      LeftIn layout rule members (.method decl)
  /-- In an assertion that is made for a planned method. -/
  | assertion (decl : Method) (plan : MethodPlan) (indent : String) (statements : List Statement)
      {earlier later : Session}
      (planned : scanMethod rule.name decl = .ok (some plan))
      (made : (assertions layout plan decl indent).Makes earlier statements later)
      (used : ∃ statement ∈ statements, rule.name ∈ statement.references) :
      LeftIn layout rule members (.method { decl with
        body := decl.body.map fun block => { block with statements } })
  /-- In a nested class that is not as it was before. -/
  | nested (head : ClassHead) (inner : List Member)
      (isNew : ∀ member ∈ members, ¬member.SameButLead (.classDecl head inner)) :
      LeftIn layout rule members (.classDecl head inner)

/-- A class whose rule has been removed, its name left in certain places only. -/
def Leaves (layout : Layout) (scope : TypeScope) (entered result : ClassDecl) : Prop :=
  ∃ rule, ruleField? scope entered.members = some rule ∧
    ∀ member ∈ result.members, member.id ≠ rule.id ∧
      (rule.name ∈ member.namesUsed → LeftIn layout rule entered.members member)

theorem method?_of_sameButLead
    {member other : Member}
    (same : member.SameButLead other)
    (noMethod : other.method? = none) : member.method? = none := by
  obtain ⟨lead, rfl⟩ := same
  cases member with
  | method decl => cases noMethod
  | _ => rfl

theorem class?_of_sameButLead
    {member other : Member}
    (same : member.SameButLead other)
    (noClass : other.class? = none) : member.class? = none := by
  obtain ⟨lead, rfl⟩ := same
  cases member with
  | classDecl head inner => cases noClass
  | _ => rfl

/-- A member that stays mentions the rule in its header, or is a nested class that has changed. -/
theorem leftIn_of_same
    {layout : Layout}
    {rule : Field}
    {members : List Member}
    {plans : List (Nat × MethodPlan)}
    (scanned : Scanned rule members plans)
    {member : Member}
    (unplanned : ∀ decl, member = .method decl → scanMethod rule.name decl = .ok none)
    (known : member.class? = none → ∃ old ∈ members, old.SameButLead member)
    (notRule : member.id ≠ rule.id)
    (used : rule.name ∈ member.namesUsed) : LeftIn layout rule members member := by
  have unused
      (noMethod : member.method? = none)
      (isOld : ∃ old ∈ members, old.SameButLead member) : False := by
    obtain ⟨old, inside, same⟩ := isOld
    have oldNoMethod := method?_of_sameButLead same noMethod
    obtain ⟨lead, rfl⟩ := same
    rw [Member.namesUsed_withLead] at used
    rw [Member.id_withLead] at notRule
    exact scanned.unmentioned inside oldNoMethod notRule used
  cases member with
  | method decl =>
      rcases Member.mem_namesUsed_method.mp used with own | inUse | inParameter | inStatement
      · exact .header decl (.inl own)
      · exact .header decl (.inr (.inl inUse))
      · exact .header decl (.inr (.inr inParameter))
      · obtain ⟨statement, inside, mentioned⟩ := inStatement
        exact absurd mentioned (unmentioned_of_unplanned (unplanned decl rfl) statement inside)
  | classDecl head inner =>
      exact .nested head inner fun old inside same => unused rfl ⟨old, inside, same⟩
  | importDecl _ | verbatim _ | field _ => exact (unused rfl (known rfl)).elim

/-- A planned method mentions the rule in its header or in an assertion made for it. -/
theorem leftIn_of_planned
    {layout : Layout}
    {rule : Field}
    {members : List Member}
    {decl : Method}
    {plan : MethodPlan}
    {indent : String}
    {statements : List Statement}
    {earlier later : Session}
    (planned : scanMethod rule.name decl = .ok (some plan))
    (made : (assertions layout plan decl indent).Makes earlier statements later)
    (used : rule.name ∈ (Member.method { decl with
      body := decl.body.map fun block => { block with statements } }).namesUsed) :
    LeftIn layout rule members (.method { decl with
      body := decl.body.map fun block => { block with statements } }) := by
  rcases Member.mem_namesUsed_method.mp used with own | inUse | inParameter | inStatement
  · exact .header _ (.inl own)
  · exact .header _ (.inr (.inl inUse))
  · exact .header _ (.inr (.inr inParameter))
  · obtain ⟨statement, inside, mentioned⟩ := inStatement
    refine .assertion decl plan indent statements planned made ⟨statement, ?_, mentioned⟩
    unfold bodyStatements at inside
    cases body_eq : decl.body with
    | none =>
        rw [body_eq] at inside
        cases inside
    | some block =>
        rw [body_eq] at inside
        exact inside

/-- A rewritten class leaves the name of its rule in certain places only. -/
theorem leaves_of_rewrites
    {Other : ClassDecl → ClassDecl → ClassDecl → Prop}
    {layout : Layout}
    {scope : TypeScope}
    {plans : List (Nat × RulePlan)}
    {rewritten : List Nat}
    {entered inner result : ClassDecl}
    (keepsId : ∀ entered inner result, Other entered inner result → result.id = inner.id)
    (revised : RevisedAll Other rewritten entered.members inner.members)
    (rewrites : Rewrites layout scope plans entered inner result) :
    Leaves layout scope entered result := by
  obtain ⟨rule, plan, -, found, scanned, distinct, rewrittenBy⟩ := rewrites
  obtain ⟨front, back, members_eq, leads, each⟩ := rewrittenBy.members
  obtain ⟨-, -, scannedMembers⟩ := of_scanClass scanned
  rw [← revised.map_id keepsId, members_eq, List.map_append, List.map_cons,
    List.nodup_middle, ← List.map_append, List.nodup_cons] at distinct
  refine ⟨rule, found, fun member inside => ?_⟩
  obtain ⟨kept, keptInside, changed⟩ := exists_of_forall₂ each inside
  obtain ⟨old, oldInside, same⟩ := exists_of_forall₂ leads keptInside
  have oldInner : old ∈ inner.members := by
    rw [members_eq]
    exact ((List.Sublist.refl front).append (List.sublist_cons_self _ back)).subset oldInside
  have notRule : kept.id ≠ rule.id := by
    obtain ⟨lead, rfl⟩ := same
    rw [Member.id_withLead]
    exact fun sameId => distinct.1 (List.mem_map.mpr ⟨old, oldInside, sameId⟩)
  cases changed with
  | same _ unplanned =>
      refine ⟨notRule, leftIn_of_same scannedMembers unplanned (fun noClass => ?_) notRule⟩
      exact ⟨old, revised.mem_of_noClass oldInner (class?_of_sameButLead same noClass), same⟩
  | planned decl methodPlan indent statements planned made =>
      exact ⟨notRule, leftIn_of_planned planned made⟩

/--
Each class of a file that the recipe rewrites loses its rule, and leaves the name of the rule in
certain places only.
-/
theorem leaves_of_migrate
    {source : String}
    {path : Option String}
    {next : Nat}
    {result : SourceUnit × Nat}
    (parsed : SourceUnit.parse source path next = .ok result)
    (layout : Layout)
    (early session : Session) :
    let plans := ((collect result.1).run early).1
    let migrated := ((migrate layout plans result.1).run session).1.1
    ∃ rewritten, RevisedAll
      (fun entered _ outcome => Leaves layout (TypeScope.ofUnit result.1) entered outcome)
      rewritten result.1.members migrated.members := by
  obtain ⟨rewritten, revised⟩ := (rewriting layout).revises result.1 result.2
    (SourceUnit.wellFormed_of_parse parsed) early session
  refine ⟨rewritten, revised.imp fun ids head members inner outcome revisedInner rewrites => ?_⟩
  exact leaves_of_rewrites (fun _ _ _ => id_of_rewrites) revisedInner rewrites

/-- A class with a rule that an expected message mentions. -/
def mentionedRule : String :=
  "class A \x7b\n    @org.junit.Rule\n    org.junit.rules.ExpectedException rule;\n\n" ++
    "    void t() \x7b\n        rule.expectMessage(\"\" + rule);\n        run();\n" ++
    "    \x7d\n\x7d\n"

theorem leaves_of_migrate_mentionedRule :
    ∃ result, SourceUnit.parse mentionedRule none 1 = .ok result ∧
      ∃ rewritten, RevisedAll
        (fun entered _ outcome =>
          Leaves (Layout.ofUnit result.1 none) (TypeScope.ofUnit result.1) entered outcome)
        rewritten result.1.members
        ((migrate (Layout.ofUnit result.1 none)
          ((collect result.1).run ⟨.empty, result.2⟩).1 result.1).run
            ⟨.empty, result.2⟩).1.1.members := by
  have accepted : (SourceUnit.parse mentionedRule none 1).toBool = true := by decide +kernel
  obtain ⟨result, parsed⟩ := SourceUnit.exists_of_accepted accepted
  exact ⟨result, parsed, leaves_of_migrate parsed _ _ _⟩

end ExpectedException

namespace Run

open ExpectedException (mentionedRule)

/-- The classes in a source. -/
def classesOf (source : String) : List ClassDecl :=
  match SourceUnit.parse source none 1 with
  | .ok (unit, _) => unit.classes
  | .error _ => []

/-- The rule is gone, and an assertion still mentions it. -/
theorem mentioned_after_removal :
    (start .standard mentionedRule none 1).conversion.success = true ∧
      (∃ decl ∈ classesOf mentionedRule, decl.name = "A" ∧
        ∃ field ∈ decl.members.filterMap Member.field?, field.name = "rule") ∧
      ∃ decl ∈ classesOf (start .standard mentionedRule none 1).conversion.code, decl.name = "A" ∧
        decl.members.filterMap Member.field? = [] ∧
        ∃ member ∈ decl.members, "rule" ∈ member.namesUsed := by
  decide +kernel

end Run

end JupiterMigration
