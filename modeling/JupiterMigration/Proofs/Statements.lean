import JupiterMigration.Proofs.Lambda
import JupiterMigration.Proofs.Numbering.Erasure
import JupiterMigration.Proofs.Revision

/-!
# Statements in the course of a conversion

Recipes move statements, drop them and make new ones, which are read from snippets.  What can be
told of every statement that is read, whatever its number is and whichever lead of a certain kind
stands before it, can be told of all statements of a file at any point of a conversion
(`Conversion.eachStatement_of_parse`).
-/

namespace JupiterMigration

/-- Of two steps that do not fail in a row, the first one does not fail. -/
theorem Except.exists_of_bind_eq_ok
    {ε α β : Type}
    {step : Except ε α}
    {next : α → Except ε β}
    {result : β}
    (made : step >>= next = .ok result) : ∃ value, step = .ok value ∧ next value = .ok result := by
  cases step with
  | error error => cases made
  | ok value => exact ⟨value, rfl, made⟩

open Synthesis
open Member (bodyStatements)

/-- Something that can be told of statements whatever their numbers are. -/
def Statement.Unnumbered (Holds : Statement → Prop) : Prop :=
  ∀ {statement other : Statement}, other.unnumbered = statement.unnumbered → Holds statement →
    Holds other

/-- Something holds of each statement of each method in a declaration. -/
def Member.EachStatement (Holds : Statement → Prop) (member : Member) : Prop :=
  ∀ decl, Node.member (.method decl) ∈ member.walk → ∀ statement ∈ bodyStatements decl,
    Holds statement

/--
Something that can be told of every statement that is read, and of its content whatever lead of a
certain kind stands before it.
-/
structure Statement.Lasting (IsLead : String → Prop) (Holds : Statement → Prop) : Prop where
  isLead : ∀ {statement}, Holds statement → IsLead statement.lead
  ofContent : ∀ {statement other : Statement}, other.content = statement.content →
    IsLead other.lead → Holds statement → Holds other
  ofRead : ∀ {source path unit}, SourceUnit.read? source path = some unit →
    ∀ member ∈ unit.members, member.EachStatement Holds

variable {IsLead : String → Prop} {Holds : Statement → Prop}

theorem Statement.Lasting.unnumbered (lasting : Lasting IsLead Holds) :
    Statement.Unnumbered Holds := by
  intro statement other same holds
  have erased := congrArg (fun unnumbered : Statement => unnumbered.lead) same
  have lead_eq : other.lead = statement.lead := erased
  refine lasting.ofContent (congrArg (fun unnumbered => { unnumbered with lead := "" }) same) ?_
    holds
  rw [lead_eq]
  exact lasting.isLead holds

namespace Member

/-! ## Statements of a declaration -/

theorem eachStatement_method {decl : Method} :
    (method decl).EachStatement Holds ↔ ∀ statement ∈ bodyStatements decl, Holds statement := by
  constructor
  · intro each
    exact each decl (self_mem_walk _)
  · intro each other inside
    rw [walk, List.mem_cons] at inside
    cases inside with
    | inl same =>
        cases same
        exact each
    | inr below => exact absurd below (decl.member_notMem_walkBelow _)

theorem eachStatement_classDecl {head : ClassHead} {members : List Member} :
    (classDecl head members).EachStatement Holds ↔
      ∀ member ∈ members, member.EachStatement Holds := by
  constructor
  · intro each member inside decl isMethod
    refine each decl ?_
    rw [walk]
    exact List.mem_cons_of_mem _
      (List.mem_append_right _ (mem_walkAll.mpr ⟨member, inside, isMethod⟩))
  · intro each decl isMethod
    have below : Node.member (.method decl) ∈ walkAll members := by simpa [walk] using isMethod
    obtain ⟨member, inside, inMember⟩ := mem_walkAll.mp below
    exact each member inside decl inMember

/-- There are no statements in a declaration that is neither a method nor a class. -/
theorem eachStatement_of_plain
    {member : Member}
    (noMethod : member.method? = none)
    (noClass : member.class? = none) : member.EachStatement Holds := by
  intro decl inside
  cases member with
  | method _ => cases noMethod
  | classDecl _ _ => cases noClass
  | importDecl _ | verbatim _ | field _ => simp [walk] at inside

/-- Statements do not depend on what stands before the declaration. -/
theorem SameButLead.eachStatement
    {member other : Member}
    (same : member.SameButLead other)
    (each : member.EachStatement Holds) : other.EachStatement Holds := by
  obtain ⟨lead, rfl⟩ := same
  cases member with
  | method decl =>
      exact eachStatement_method.mpr fun statement inside =>
        eachStatement_method.mp each statement inside
  | classDecl head members => exact eachStatement_classDecl.mpr (eachStatement_classDecl.mp each)
  | importDecl _ | verbatim _ | field _ => exact eachStatement_of_plain rfl rfl

/-- Declarations that are the same but for their numbers have the same statements. -/
theorem eachStatement_of_unnumbered_eq
    {member other : Member}
    (unnumbered : Statement.Unnumbered Holds)
    (same : other.unnumbered = member.unnumbered)
    (each : member.EachStatement Holds) : other.EachStatement Holds := by
  intro decl isMethod statement inside
  have walks_eq :
      (walkAll [other]).map Node.unnumbered = (walkAll [member]).map Node.unnumbered := by
    rw [← walkAll_unnumberedAll, ← walkAll_unnumberedAll, unnumberedAll, same]
    rfl
  have erased : (Node.member (.method decl)).unnumbered ∈
      (walkAll [member]).map Node.unnumbered := by
    rw [← walks_eq]
    exact List.mem_map_of_mem (mem_walkAll.mpr ⟨other, List.mem_singleton_self _, isMethod⟩)
  obtain ⟨node, below, node_eq⟩ := List.mem_map.mp erased
  obtain ⟨original, rfl⟩ : ∃ original, node = .member (.method original) := by
    cases node with
    | member member =>
        cases member with
        | method original => exact ⟨original, rfl⟩
        | _ => cases node_eq
    | _ => cases node_eq
  obtain ⟨_, isOnly, inMember⟩ := mem_walkAll.mp below
  obtain rfl := List.mem_singleton.mp isOnly
  obtain ⟨first, isFirst, first_eq⟩ := Method.exists_statement_of_unnumbered_eq
    (Member.method.inj (Node.member.inj node_eq)) inside
  exact unnumbered first_eq.symm (each original inMember first isFirst)

/-! ## Rewriting classes -/

variable {σ : Type} {change : ClassDecl → ClassDecl → StateT σ Migration (Edit Member)}

variable (Holds change) in
/-- Decisions about classes that keep what holds of the statements in them. -/
def KeepsEach : Prop :=
  ∀ entered inner state session, inner.toMember.EachStatement Holds →
    ∀ result ∈ (((change entered inner).run state).run session).1.1.apply inner.toMember,
      result.EachStatement Holds

mutual

theorem eachStatement_rewrite
    (keeps : KeepsEach Holds change)
    (member : Member)
    (each : member.EachStatement Holds)
    (state : σ)
    (session : Session) :
    ∀ result ∈ (((rewrite change member).run state).run session).1.1,
      result.EachStatement Holds := by
  cases member with
  | classDecl head members =>
      rw [run_rewrite_classDecl]
      refine keeps ⟨head, members⟩ _ _ _ ?_
      exact eachStatement_classDecl.mpr
        (eachStatement_rewriteAll keeps members (eachStatement_classDecl.mp each) state session)
  | importDecl _ | verbatim _ | field _ | method _ =>
      intro result isResult
      cases isResult
      exact each

/-- Rewriting classes keeps what holds of all statements if each decision does. -/
theorem eachStatement_rewriteAll
    (keeps : KeepsEach Holds change)
    (members : List Member)
    (each : ∀ member ∈ members, member.EachStatement Holds)
    (state : σ)
    (session : Session) :
    ∀ result ∈ (((rewriteAll change members).run state).run session).1.1,
      result.EachStatement Holds := by
  cases members with
  | nil =>
      intro result inside
      cases inside
  | cons first rest =>
      obtain ⟨ofFirst, ofRest⟩ := List.forall_mem_cons.mp each
      rw [run_rewriteAll_cons]
      intro result inside
      cases List.mem_append.mp inside with
      | inl fromFirst =>
          exact eachStatement_rewrite keeps first ofFirst state session result
            (Option.mem_toList.mp fromFirst)
      | inr fromRest => exact eachStatement_rewriteAll keeps rest ofRest _ _ result fromRest

end

end Member

/-- Decisions by plans keep what holds of statements if the migrations by those plans do. -/
theorem keepsEach_decideByPlan
    {Plan σ : Type}
    (plans : List (Nat × Plan))
    {migrate : Plan → ClassDecl → Synthesis ClassDecl}
    (note : String → Plan → σ → σ)
    (quietly : ∀ plan decl, Synthesis.quiet.Holds (migrate plan decl))
    (keeps : ∀ {id plan decl result earlier later}, (id, plan) ∈ plans →
      (migrate plan decl).Makes earlier result later →
      decl.toMember.EachStatement Holds → result.toMember.EachStatement Holds) :
    Member.KeepsEach Holds (decideByPlan plans migrate note) := by
  intro entered inner state session each result isResult
  rcases decideByPlan_cases plans note quietly entered inner state session with
    ⟨edit_eq, -⟩ | ⟨plan, made, later, planned, makes, edit_eq, -⟩
  · rw [edit_eq] at isResult
    cases isResult
    exact each
  · rw [edit_eq] at isResult
    cases isResult
    exact keeps (mem_of_lookup planned) makes each

/-- Statements of which the first is put on a line of its own keep their content. -/
theorem Parameterized.content_of_mem_onOwnLine
    {lead : String}
    {statements : List Statement}
    {statement : Statement}
    (inside : statement ∈ ClassMigration.onOwnLine lead statements) :
    ∃ original ∈ statements, statement.content = original.content ∧
      (statement.lead = original.lead ∨ statement.lead = lead) := by
  cases statements with
  | nil => cases inside
  | cons first rest =>
      rw [ClassMigration.onOwnLine] at inside
      split at inside
      · exact ⟨statement, inside, rfl, .inl rfl⟩
      · cases inside with
        | head => exact ⟨first, List.mem_cons_self, rfl, .inr rfl⟩
        | tail _ later => exact ⟨statement, List.mem_cons_of_mem _ later, rfl, .inl rfl⟩

/-! ## New statements -/

/-- The leads that new statements get in a layout are of a certain kind. -/
def Layout.Leads (layout : Layout) (IsLead : String → Prop) : Prop :=
  ∀ classDecl decl, IsLead ("\n" ++ layout.statementIndent decl (layout.memberIndent classDecl))

section Lasting

variable (lasting : Statement.Lasting IsLead Holds) {earlier later : Session}
include lasting

namespace Statement.Lasting

/-- The class around a snippet is read like any other one. -/
theorem eachStatement_of_readClass
    {source : String}
    {members : List Member}
    (read : Snippet.readClass source = .ok members) :
    ∀ member ∈ members, member.EachStatement Holds := by
  unfold Snippet.readClass at read
  split at read
  · cases read
  · next unit unitRead =>
      split at read
      · next decl only =>
          cases read
          have isOnly : decl ∈ unit.members.filterMap Member.class? := by simp [only]
          obtain ⟨member, inside, class_eq⟩ := List.mem_filterMap.mp isOnly
          cases member with
          | classDecl head members =>
              cases class_eq
              exact Member.eachStatement_classDecl.mp (lasting.ofRead unitRead _ inside)
          | _ => cases class_eq
      · cases read

theorem eachStatement_of_readMember
    {snippet : String}
    {member : Member}
    (read : Snippet.readMember snippet = .ok member) : member.EachStatement Holds := by
  unfold Snippet.readMember at read
  obtain ⟨members, readMembers, only⟩ := Except.exists_of_bind_eq_ok read
  split at only
  · cases only
    exact lasting.eachStatement_of_readClass readMembers _ List.mem_cons_self
  · cases only

theorem of_readStatement
    {snippet : String}
    {statement : Statement}
    (read : Snippet.readStatement snippet = .ok statement) : Holds statement := by
  unfold Snippet.readStatement at read
  obtain ⟨members, readMembers, only⟩ := Except.exists_of_bind_eq_ok read
  split at only
  · next statement_eq =>
      cases only
      cases members with
      | nil => cases statement_eq
      | cons first rest =>
          have each := lasting.eachStatement_of_readClass readMembers first List.mem_cons_self
          cases first with
          | method decl =>
              refine Member.eachStatement_method.mp each statement ?_
              have statements_eq : bodyStatements decl = [statement] := statement_eq
              rw [statements_eq]
              exact List.mem_singleton_self statement
          | _ => cases statement_eq
  · cases only

theorem of_makes
    {template indent lead : String}
    {values : List Template.Value}
    {result : Statement}
    (isLead : IsLead lead)
    (makes : (Template.statement template values indent lead).Makes earlier result later) :
    Holds result := by
  obtain ⟨unnumbered, made, rfl, -⟩ := makes_numbered.mp makes
  obtain ⟨text, -, shifted⟩ := Except.exists_of_bind_eq_ok made
  obtain ⟨node, read, placed⟩ := Except.exists_of_bind_eq_ok shifted
  have unnumbered_eq : { node with lead } = unnumbered := Except.ok.inj placed
  subst unnumbered_eq
  refine lasting.ofContent ?_ ?_ (lasting.of_readStatement read)
  · rfl
  · exact isLead

theorem eachStatement_of_makes
    {template indent lead : String}
    {values : List Template.Value}
    {result : Member}
    (makes : (Template.member template values indent lead).Makes earlier result later) :
    result.EachStatement Holds := by
  obtain ⟨text, indent, lead, unnumbered, next, -, read, rfl⟩ := Template.made_of_makes makes
  refine Member.eachStatement_of_unnumbered_eq lasting.unnumbered
    (Member.unnumbered_numbered _ next) ?_
  exact (Member.SameButLead.of_withLead lead unnumbered).eachStatement
    (lasting.eachStatement_of_readMember read)

end Statement.Lasting

/-! ## Migrating classes -/

namespace Parameterized

variable {migration : ClassMigration}

theorem holds_of_makes_testBody
    {decl : Method}
    {block result : Block}
    (isLead : IsLead ("\n" ++ migration.layout.statementIndent decl migration.memberIndent))
    (makes : (migration.testBody decl block).Makes earlier result later)
    (each : ∀ statement ∈ block.statements, Holds statement) :
    ∀ statement ∈ result.statements, Holds statement := by
  obtain ⟨call, middle, makesCall, rest⟩ := makes_bind.mp makes
  obtain ⟨rfl, -⟩ := makes_pure.mp rest
  intro statement inside
  cases inside with
  | head => exact lasting.of_makes isLead makesCall
  | tail _ later =>
      obtain ⟨original, isOriginal, same, lead_eq⟩ := content_of_mem_onOwnLine later
      have holds := each original isOriginal
      refine lasting.ofContent same ?_ holds
      rcases lead_eq with lead_eq | lead_eq
      · exact lead_eq ▸ lasting.isLead holds
      · exact lead_eq ▸ isLead

theorem holds_of_makes_migrateMethod
    {decl result : Method}
    (isLead : IsLead ("\n" ++ migration.layout.statementIndent decl migration.memberIndent))
    (makes : (migration.migrateMethod decl).Makes earlier result later)
    (each : ∀ statement ∈ bodyStatements decl, Holds statement) :
    ∀ statement ∈ bodyStatements result, Holds statement := by
  unfold ClassMigration.migrateMethod at makes
  split at makes
  · obtain ⟨rfl, -⟩ := makes_pure.mp makes
    exact each
  · split at makes
    · obtain ⟨rfl, -⟩ := makes_pure.mp makes
      exact each
    · obtain ⟨_, _, annotated, body, -, -, makesBody, rfl⟩ :=
        ClassMigration.makes_migrateTest makes
      unfold bodyStatements at each ⊢
      dsimp only
      cases body_eq : decl.body with
      | none =>
          rw [body_eq] at makesBody
          obtain ⟨rfl, -⟩ := makes_pure.mp makesBody
          intro statement inside
          cases inside
      | some block =>
          rw [body_eq] at makesBody each
          obtain ⟨result, middle, makesResult, rest⟩ := makes_bind.mp makesBody
          obtain ⟨rfl, -⟩ := makes_pure.mp rest
          exact holds_of_makes_testBody lasting isLead makesResult each
    · obtain ⟨rfl, -⟩ := makes_pure.mp makes
      exact each

theorem eachStatement_of_migrateMember
    {member result : Member}
    (leads : ∀ decl,
      IsLead ("\n" ++ migration.layout.statementIndent decl migration.memberIndent))
    (makes : (migration.migrateMember member).Makes earlier result later)
    (each : member.EachStatement Holds) : result.EachStatement Holds := by
  cases member with
  | method decl =>
      obtain ⟨migrated, middle, makesMethod, rest⟩ := makes_bind.mp makes
      obtain ⟨rfl, -⟩ := makes_pure.mp rest
      exact Member.eachStatement_method.mpr
        (holds_of_makes_migrateMethod lasting (leads decl) makesMethod
          (Member.eachStatement_method.mp each))
  | field decl =>
      obtain ⟨rfl, -⟩ := makes_pure.mp makes
      exact Member.eachStatement_of_plain rfl rfl
  | importDecl _ | verbatim _ | classDecl _ _ =>
      obtain ⟨rfl, -⟩ := makes_pure.mp makes
      exact each

theorem eachStatement_of_newInitializer
    {results : List Member}
    (makes : migration.newInitializer.Makes earlier results later) :
    ∀ result ∈ results, result.EachStatement Holds := by
  unfold ClassMigration.newInitializer at makes
  dsimp only at makes
  split at makes
  · obtain ⟨rfl, -⟩ := makes_pure.mp makes
    intro result inside
    cases inside
  · obtain ⟨member, middle, makesMember, rest⟩ := makes_bind.mp makes
    obtain ⟨rfl, -⟩ := makes_pure.mp rest
    intro result inside
    obtain rfl := List.mem_singleton.mp inside
    exact lasting.eachStatement_of_makes makesMember

/-- The migration of a parameterized class keeps what holds of its statements. -/
theorem eachStatement_of_migrateClass
    {scope : TypeScope}
    {layout : Layout}
    {plan : ClassPlan}
    {decl result : ClassDecl}
    (leads : layout.Leads IsLead)
    (makes : (migrateClass scope layout plan decl).Makes earlier result later)
    (each : decl.toMember.EachStatement Holds) : result.toMember.EachStatement Holds := by
  obtain ⟨changed, middle, makesMembers, rest⟩ := makes_bind.mp makes
  obtain ⟨appended, last, makesInitializer, rest⟩ := makes_bind.mp rest
  obtain ⟨rfl, -⟩ := makes_pure.mp rest
  rw [withoutRunner_members] at makesMembers
  refine Member.eachStatement_classDecl.mpr fun member inside => ?_
  cases List.mem_append.mp inside with
  | inl isChanged =>
      obtain ⟨old, isOld, before, after, makesMember⟩ :=
        exists_of_forall₂ (forall₂_of_mapM makesMembers) isChanged
      exact eachStatement_of_migrateMember lasting (leads _) makesMember
        (Member.eachStatement_classDecl.mp each old isOld)
  | inr isAppended =>
      exact eachStatement_of_newInitializer lasting makesInitializer member isAppended

end Parameterized

namespace ExpectedException

theorem holds_of_makes_assertions
    {layout : Layout}
    {plan : MethodPlan}
    {decl : Method}
    {indent : String}
    {results : List Statement}
    (isLead : IsLead ("\n" ++ indent))
    (isPlanLead : IsLead plan.lead)
    (makes : (assertions layout plan decl indent).Makes earlier results later) :
    ∀ statement ∈ results, Holds statement := by
  unfold assertions at makes
  dsimp only at makes
  split at makes
  · obtain ⟨throwing, middle, makesThrowing, rest⟩ := makes_bind.mp makes
    obtain ⟨checks, last, makesChecks, rest⟩ := makes_bind.mp rest
    obtain ⟨rfl, -⟩ := makes_pure.mp rest
    intro statement inside
    cases inside with
    | head => exact lasting.of_makes isPlanLead makesThrowing
    | tail _ isCheck =>
        obtain ⟨expectation, -, before, after, makesCheck⟩ :=
          exists_of_forall₂ (forall₂_of_mapM makesChecks) isCheck
        exact lasting.of_makes isLead makesCheck
  · obtain ⟨throwing, middle, makesThrowing, rest⟩ := makes_bind.mp makes
    obtain ⟨rfl, -⟩ := makes_pure.mp rest
    intro statement inside
    obtain rfl := List.mem_singleton.mp inside
    exact lasting.of_makes isPlanLead makesThrowing

theorem eachStatement_of_migrateMember
    {layout : Layout}
    {memberIndent : String}
    {plan : RulePlan}
    {member result : Member}
    (leads : ∀ decl, IsLead ("\n" ++ layout.statementIndent decl memberIndent))
    (planLeads : ∀ entry ∈ plan.methods, IsLead entry.2.lead)
    (makes : (migrateMember layout memberIndent plan member).Makes earlier result later)
    (each : member.EachStatement Holds) : result.EachStatement Holds := by
  cases member with
  | method decl =>
      rw [migrateMember] at makes
      split at makes
      · next methodPlan planned =>
        obtain ⟨migrated, middle, makesMethod, rest⟩ := makes_bind.mp makes
        obtain ⟨rfl, -⟩ := makes_pure.mp rest
        obtain ⟨statements, _, made, rest⟩ := makes_bind.mp makesMethod
        obtain ⟨rfl, -⟩ := makes_pure.mp rest
        refine Member.eachStatement_method.mpr fun statement inside => ?_
        refine holds_of_makes_assertions lasting (leads decl)
          (planLeads _ (mem_of_lookup planned)) made statement ?_
        unfold bodyStatements at inside
        dsimp only at inside
        cases body_eq : decl.body with
        | none =>
            rw [body_eq] at inside
            cases inside
        | some block =>
            rw [body_eq] at inside
            exact inside
      · obtain ⟨rfl, -⟩ := makes_pure.mp makes
        exact each
  | importDecl _ | verbatim _ | field _ | classDecl _ _ =>
      obtain ⟨rfl, -⟩ := makes_pure.mp makes
      exact each

/-- The migration of a class with a rule keeps what holds of its statements. -/
theorem eachStatement_of_migrateClass
    {layout : Layout}
    {plan : RulePlan}
    {decl result : ClassDecl}
    (leads : layout.Leads IsLead)
    (planLeads : ∀ entry ∈ plan.methods, IsLead entry.2.lead)
    (makes : (migrateClass layout plan decl).Makes earlier result later)
    (each : decl.toMember.EachStatement Holds) : result.toMember.EachStatement Holds := by
  obtain ⟨members, middle, makesMembers, rest⟩ := makes_bind.mp makes
  obtain ⟨rfl, -⟩ := makes_pure.mp rest
  have eachMember := Member.eachStatement_classDecl.mp each
  have eachKept : ∀ member ∈ withoutMember plan.fieldId decl.members,
      member.EachStatement Holds := by
    intro member inside
    rcases withoutMember_cases plan.fieldId decl.members with
      same | ⟨front, removed, back, members_eq, -, leads⟩
    · exact eachMember member (same ▸ inside)
    · obtain ⟨old, isOld, sameButLead⟩ := exists_of_forall₂ leads inside
      refine sameButLead.eachStatement (eachMember old ?_)
      rw [members_eq]
      exact ((List.Sublist.refl front).append (List.sublist_cons_self removed back)).subset isOld
  refine Member.eachStatement_classDecl.mpr fun member inside => ?_
  obtain ⟨old, isOld, before, after, makesMember⟩ :=
    exists_of_forall₂ (forall₂_of_mapM makesMembers) inside
  exact eachStatement_of_migrateMember lasting (leads decl) planLeads makesMember
    (eachKept old isOld)

/-- The leads of plans are leads of statements in the methods that they are for. -/
theorem isLead_of_collect
    {unit : SourceUnit}
    {session : Session}
    {id : Nat}
    {plan : RulePlan}
    (planned : (id, plan) ∈ ((collect unit).run session).1)
    (each : ∀ member ∈ unit.members, member.EachStatement Holds) :
    ∀ entry ∈ plan.methods, IsLead entry.2.lead := by
  intro entry inside
  obtain ⟨head, members, rule, isClass, -, -, scanned⟩ := scanned_of_planned unit session planned
  obtain ⟨-, -, scannedMembers⟩ := of_scanClass scanned
  obtain ⟨method, isMember, -, planned⟩ := scannedMembers.exists_of_mem inside
  cases isClass with
  | tail _ below =>
      have isMethod : Node.member (.method method) ∈ Member.walkAll unit.members :=
        (Member.walkAll_sublist_walkAll unit.members below).subset
          (Member.mem_walkAll_of_mem isMember)
      obtain ⟨member, isRoot, inRoot⟩ := Member.mem_walkAll.mp isMethod
      have holds := each member isRoot method inRoot
      obtain ⟨calls, statements_eq, describes⟩ := describes_of_scanMethod planned
      unfold MethodPlan.lead
      split
      · next first rest leading_eq =>
          refine lasting.isLead (holds first ?_)
          rw [statements_eq, leading_eq]
          exact List.mem_append_left _ List.mem_cons_self
      · refine lasting.isLead (holds _ ?_)
        rw [statements_eq]
        have isCall := List.mem_of_mem_head? (Option.mem_def.mpr describes.anchor_eq)
        exact List.mem_append_right _ (List.mem_append_left _ isCall)

end ExpectedException

end Lasting

/-! ## Conversions -/

/-- There are no statements in imports. -/
theorem SourceUnit.eachStatement_of_nonImports
    {unit : SourceUnit}
    (each : ∀ member ∈ unit.nonImports, member.EachStatement Holds) :
    ∀ member ∈ unit.members, member.EachStatement Holds := by
  intro member inside
  cases isImport : member.isImport with
  | false => exact each member (List.mem_filter.mpr ⟨inside, by simp [isImport]⟩)
  | true =>
      cases member with
      | importDecl _ => exact Member.eachStatement_of_plain rfl rfl
      | _ => cases isImport

/-- The stages of a recipe keep what holds of all statements if migrating classes does. -/
theorem Stages.eachStatement_of_makes
    {Plan : Type}
    {stages : Stages Plan}
    {Rewrites : ClassDecl → ClassDecl → ClassDecl → Prop}
    {early : Session}
    {rewritten : List Nat}
    {unit result : SourceUnit}
    (keeps : ∀ session, (∀ member ∈ unit.members, member.EachStatement Holds) →
      let plans := ((stages.collect unit).run early).1
      ∀ member ∈ ((stages.migrate plans unit).run session).1.unit.members,
        member.EachStatement Holds)
    (makes : stages.Makes Rewrites early rewritten unit result)
    (each : ∀ member ∈ unit.nonImports, member.EachStatement Holds) :
    ∀ member ∈ result.nonImports, member.EachStatement Holds := by
  obtain ⟨migrating, finishing, -, rfl⟩ := makes
  intro member inside
  obtain ⟨old, isOld, sameButLead⟩ :=
    exists_of_forall₂ (stages.sameButLead_finish _ finishing) inside
  refine sameButLead.eachStatement ?_
  exact keeps migrating (SourceUnit.eachStatement_of_nonImports each) old
    (List.mem_of_mem_filter isOld)

section Lasting

variable (lasting : Statement.Lasting IsLead Holds)
include lasting

/-- A recipe keeps what holds of all statements of a file. -/
theorem Recipe.eachStatement_of_makes
    {recipe : Recipe}
    {layout : Layout}
    {early : Session}
    {rewritten : List Nat}
    {unit result : SourceUnit}
    (leads : layout.Leads IsLead)
    (makes : recipe.Makes layout early rewritten unit result)
    (each : ∀ member ∈ unit.nonImports, member.EachStatement Holds) :
    ∀ member ∈ result.nonImports, member.EachStatement Holds := by
  cases recipe with
  | parameterized =>
      refine Stages.eachStatement_of_makes (fun session each => ?_) makes each
      have keeps := keepsEach_decideByPlan ((Parameterized.collect unit).run early).1.plans
        (fun name _ names => names ++ [name])
        (Parameterized.records_migrateClass (TypeScope.ofUnit unit) layout)
        (fun _ => Parameterized.eachStatement_of_migrateClass lasting leads)
      unfold Parameterized.stages Parameterized.migratePlans
      dsimp only
      rw [Parameterized.migrate_eq]
      exact Member.eachStatement_rewriteAll keeps unit.members each [] session
  | expectedException =>
      refine Stages.eachStatement_of_makes (fun session each => ?_) makes each
      have keeps := keepsEach_decideByPlan ((ExpectedException.collect unit).run early).1
        ExpectedException.Progress.add (ExpectedException.records_migrateClass layout)
        (fun planned => ExpectedException.eachStatement_of_migrateClass lasting leads
          (ExpectedException.isLead_of_collect lasting planned each))
      unfold ExpectedException.stages ExpectedException.migratePlans
      dsimp only
      rw [ExpectedException.migrate_eq]
      exact Member.eachStatement_rewriteAll keeps unit.members each .start session

/-- What can be told of every statement that is read holds in a file that has been read. -/
theorem SourceUnit.eachStatement_of_parse
    {source : String}
    {path : Option String}
    {next : Nat}
    {result : SourceUnit × Nat}
    (parsed : parse source path next = .ok result) :
    ∀ member ∈ result.1.members, member.EachStatement Holds := by
  unfold parse at parsed
  split at parsed
  · next unit unitRead =>
      obtain rfl := Except.ok.inj parsed
      intro member inside
      have erased : member.unnumbered ∈
          Member.unnumberedAll (unit.numbered.run next).1.members := by
        rw [Member.unnumberedAll_eq_map]
        exact List.mem_map_of_mem inside
      have erased_eq : Member.unnumberedAll (unit.numbered.run next).1.members =
          Member.unnumberedAll unit.members := Member.unnumberedAll_numberedAll unit.members _
      rw [erased_eq, Member.unnumberedAll_eq_map] at erased
      obtain ⟨original, isOriginal, same⟩ := List.mem_map.mp erased
      exact Member.eachStatement_of_unnumbered_eq lasting.unnumbered same.symm
        (lasting.ofRead unitRead original isOriginal)
  · cases parsed

namespace Conversion

theorem eachStatement_of_makes
    {layout : Layout}
    {recipes : List Recipe}
    {rewritten : List Nat}
    {unit result : SourceUnit}
    (leads : layout.Leads IsLead)
    (makes : Makes layout recipes rewritten unit result)
    (each : ∀ member ∈ unit.nonImports, member.EachStatement Holds) :
    ∀ member ∈ result.nonImports, member.EachStatement Holds := by
  induction makes with
  | done unit => exact each
  | declined recipe _ inductionHypothesis => exact inductionHypothesis each
  | migrated recipe step _ inductionHypothesis =>
      obtain ⟨early, makes⟩ := step
      exact inductionHypothesis (Recipe.eachStatement_of_makes lasting leads makes each)

/-- What can be told of every statement that is read holds at any point of a conversion. -/
theorem eachStatement_of_parse
    {source : String}
    {path : Option String}
    {next : Nat}
    {result : SourceUnit × Nat}
    (parsed : SourceUnit.parse source path next = .ok result)
    {layout : Layout}
    (leads : layout.Leads IsLead)
    (recipes : List Recipe)
    {session : Session}
    (fresh : result.2 ≤ session.nextId) :
    let final := ((applyRecipes layout recipes result.1).run session).1.update.getD result.1
    ∀ member ∈ final.members, member.EachStatement Holds := by
  obtain ⟨rewritten, makes⟩ := makes_of_parse parsed layout recipes fresh
  refine SourceUnit.eachStatement_of_nonImports (eachStatement_of_makes lasting leads makes ?_)
  intro member inside
  exact SourceUnit.eachStatement_of_parse lasting parsed member (List.mem_of_mem_filter inside)

end Conversion

end Lasting

end JupiterMigration
