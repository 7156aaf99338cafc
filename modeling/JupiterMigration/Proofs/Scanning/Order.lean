import JupiterMigration.Proofs.Binding.FreshName
import JupiterMigration.Proofs.Numbering.Erasure
import JupiterMigration.Proofs.Scanning
import JupiterMigration.Proofs.Synthesis.Outcome
import Mathlib.Data.List.Perm.Basic

/-!
# Expectations in another order

The calls of a rule may change places among each other, each place keeping what stands before it
(`Reordered`).  Then either none of the two methods is planned, or the plans agree in the statements
that move and in what is expected (`MethodPlan.Agrees`), since expectations are ordered by kind, and
the new assertions are the same (`alike_of_reordered`).
-/

namespace JupiterMigration

namespace ExpectedException

open Member (bodyStatements)
open Synthesis

/-! ## The run of calls -/

/-- The statements of a body and among them the first run of calls of the rule. -/
structure CallRun
    (rule : String)
    (statements leading calls body : List Statement) : Prop where
  statements_eq : statements = leading ++ (calls ++ body)
  nonempty : calls ≠ []
  areCalls : ∀ statement ∈ calls, IsRuleCall rule statement
  before : ∀ statement ∈ leading, ¬IsRuleCall rule statement
  behind : ∀ statement ∈ body.head?, ¬IsRuleCall rule statement

/-- A stretch of a list ends where a test first holds. -/
theorem eq_of_append_eq
    {α : Type}
    {p : α → Prop}
    {front back others rest : List α}
    (same : front ++ back = others ++ rest)
    (passed : ∀ item ∈ front, ¬p item)
    (alsoPassed : ∀ item ∈ others, ¬p item)
    (starts : ∀ item ∈ back.head?, p item)
    (alsoStarts : ∀ item ∈ rest.head?, p item) : front = others ∧ back = rest := by
  induction front generalizing others with
  | nil =>
      cases others with
      | nil => exact ⟨rfl, same⟩
      | cons first more =>
          rw [List.nil_append] at same
          rw [same] at starts
          exact absurd (starts first rfl) (alsoPassed first List.mem_cons_self)
  | cons head tail inductionHypothesis =>
      cases others with
      | nil =>
          rw [List.nil_append] at same
          rw [← same] at alsoStarts
          exact absurd (alsoStarts head rfl) (passed head List.mem_cons_self)
      | cons first more =>
          obtain ⟨rfl, tail_eq⟩ := List.cons.inj same
          obtain ⟨rfl, rfl⟩ := inductionHypothesis tail_eq
            (fun item inside => passed item (.tail head inside))
            fun item inside => alsoPassed item (.tail head inside)
          exact ⟨rfl, rfl⟩

/-- Expectations that some calls of the rule state, none of them in the same way as another one. -/
structure States
    (rule : String)
    (calls : List Statement)
    (expectations : List Expectation) : Prop where
  calls_eq : expectations.map (·.statement) = calls
  stated : ∀ expectation ∈ expectations, expectation.IsStated rule
  distinct : (calls.map callName?).Nodup

/-- A method is scanned if the run of calls states expectations and nothing else names the rule. -/
theorem CallRun.scanMethod_eq_ok_iff
    {rule : String}
    {decl : Method}
    {leading calls body : List Statement}
    {plan : Option MethodPlan}
    (run : CallRun rule (bodyStatements decl) leading calls body) :
    scanMethod rule decl = .ok plan ↔
      (∀ statement ∈ leading ++ body, mentions rule statement = false) ∧
        ∃ expectations, States rule calls expectations ∧
          plan = expectations.head?.map fun first =>
            { leading, expectations := inOrder expectations, body, anchor := first.statement } := by
  simp only [ExpectedException.scanMethod_eq_ok_iff, scanLeading_eq_ok_iff, scanCalls_eq_ok_iff]
  have startsWithCall : ∀ statement ∈ (calls ++ body).head?, IsRuleCall rule statement := by
    intro statement isFirst
    obtain ⟨first, rest, calls_eq⟩ := List.exists_cons_of_ne_nil run.nonempty
    rw [calls_eq] at isFirst
    cases isFirst
    exact run.areCalls _ (calls_eq ▸ List.mem_cons_self)
  constructor
  · rintro ⟨front, others, expectations, back, ⟨statements_eq, apart, starts⟩,
      ⟨rfl, stated, distinct, -, stops⟩, unmentioned, rfl⟩
    obtain ⟨rfl, rest_eq⟩ := eq_of_append_eq (run.statements_eq.symm.trans statements_eq)
      run.before (fun statement inside => (apart statement inside).1) startsWithCall starts
    have areCalls : ∀ statement ∈ expectations.map (·.statement),
        ¬¬IsRuleCall rule statement := by
      intro statement inside
      obtain ⟨expectation, isFound, rfl⟩ := List.mem_map.mp inside
      exact not_not.mpr (stated expectation isFound).isRuleCall
    obtain ⟨rfl, rfl⟩ := eq_of_append_eq rest_eq
      (fun statement inside => not_not.mpr (run.areCalls statement inside)) areCalls run.behind
      stops
    refine ⟨fun statement inside => ?_, expectations, ⟨rfl, stated, ?_⟩, rfl⟩
    · exact (List.mem_append.mp inside).elim (fun isLeading => (apart statement isLeading).2)
        (unmentioned statement)
    · rwa [List.map_map]
  · rintro ⟨unmentioned, expectations, states, rfl⟩
    refine ⟨leading, calls ++ body, expectations, body, ⟨run.statements_eq, fun statement inside =>
      ⟨run.before statement inside, unmentioned statement (List.mem_append_left _ inside)⟩,
      startsWithCall⟩, ⟨by rw [states.calls_eq], states.stated, ?_, by simp, run.behind⟩,
      fun statement inside => unmentioned statement (List.mem_append_right _ inside), rfl⟩
    have distinct := states.distinct
    rwa [← states.calls_eq, List.map_map] at distinct

/-- Statements that state expectations one by one state them together. -/
theorem exists_expectations
    {rule : String}
    {calls : List Statement}
    (each : ∀ statement ∈ calls, ∃ expectation : Expectation,
      expectation.statement = statement ∧ expectation.IsStated rule) :
    ∃ expectations : List Expectation, expectations.map (·.statement) = calls ∧
      ∀ expectation ∈ expectations, expectation.IsStated rule := by
  induction calls with
  | nil => exact ⟨[], rfl, by simp⟩
  | cons first rest inductionHypothesis =>
      obtain ⟨⟨expectation, rfl, stated⟩, eachLater⟩ := List.forall_mem_cons.mp each
      obtain ⟨expectations, rfl, statedLater⟩ := inductionHypothesis eachLater
      exact ⟨expectation :: expectations, rfl, List.forall_mem_cons.mpr ⟨stated, statedLater⟩⟩

/-! ## What is expected -/

/-- What a statement expects of what, if it is a call with a single argument that states it. -/
def expected? (statement : Statement) : Option (ExpectationKind × Expression) :=
  statement.call.bind classify

/-- What an expectation expects of what. -/
def Expectation.expected (expectation : Expectation) : ExpectationKind × Expression :=
  (expectation.kind, expectation.argument)

theorem Expectation.IsStated.expected?_eq
    {rule : String}
    {expectation : Expectation}
    (stated : expectation.IsStated rule) :
    expected? expectation.statement = some expectation.expected := by
  obtain ⟨call, call_eq, arguments_eq, kind_eq⟩ := stated.expects.2
  rw [expected?, call_eq, Option.bind_some]
  exact classify_eq_some_iff.mpr ⟨arguments_eq, kind_eq⟩

theorem States.filterMap_expected?
    {rule : String}
    {calls : List Statement}
    {expectations : List Expectation}
    (states : States rule calls expectations) :
    calls.filterMap expected? = expectations.map Expectation.expected := by
  rw [← states.calls_eq, List.filterMap_map, ← List.filterMap_eq_map]
  exact List.filterMap_congr fun expectation inside =>
    (states.stated expectation inside).expected?_eq

theorem States.nodup_kinds
    {rule : String}
    {calls : List Statement}
    {expectations : List Expectation}
    (states : States rule calls expectations) : (expectations.map (·.kind)).Nodup := by
  refine nodup_kinds_of_isStated states.stated ?_
  have distinct := states.distinct
  rwa [← states.calls_eq, List.map_map] at distinct

/-- What is found under a key does not depend on the order if no two entries have one key. -/
theorem find?_eq_of_perm
    {κ α : Type}
    [DecidableEq κ]
    {entries others : List (κ × α)}
    (perm : entries.Perm others)
    (distinct : (entries.map Prod.fst).Nodup)
    (key : κ) : entries.find? (·.1 == key) = others.find? (·.1 == key) := by
  cases found : entries.find? (·.1 == key) with
  | none =>
      refine (List.find?_eq_none.mpr fun entry inside => ?_).symm
      exact List.find?_eq_none.mp found entry (perm.mem_iff.mpr inside)
  | some entry =>
      have inside := List.mem_of_find?_eq_some found
      have key_eq : entry.1 = key := by simpa using List.find?_some found
      obtain ⟨other, otherFound⟩ := Option.isSome_iff_exists.mp
        (List.find?_isSome (p := (·.1 == key)).mpr
          ⟨entry, perm.mem_iff.mp inside, by simpa using key_eq⟩)
      have otherInside := perm.mem_iff.mpr (List.mem_of_find?_eq_some otherFound)
      have otherKey_eq : other.1 = key := by simpa using List.find?_some otherFound
      rw [otherFound, List.inj_on_of_nodup_map distinct inside otherInside
        (key_eq.trans otherKey_eq.symm)]

/-- What ordered expectations expect is ordered by kind. -/
theorem map_expected_inOrder (expectations : List Expectation) :
    (inOrder expectations).map Expectation.expected = ExpectationKind.all.filterMap fun kind =>
      (expectations.map Expectation.expected).find? (·.1 == kind) := by
  rw [inOrder, List.map_filterMap]
  refine List.filterMap_congr fun kind _ => ?_
  rw [List.find?_map]
  rfl

/-- In order, the same is expected whichever order the calls have had. -/
theorem map_expected_inOrder_of_perm
    {rule : String}
    {calls others : List Statement}
    {expectations otherExpectations : List Expectation}
    (states : States rule calls expectations)
    (otherStates : States rule others otherExpectations)
    (perm : (calls.map Statement.content).Perm (others.map Statement.content)) :
    (inOrder expectations).map Expectation.expected =
      (inOrder otherExpectations).map Expectation.expected := by
  have expects_perm : (expectations.map Expectation.expected).Perm
      (otherExpectations.map Expectation.expected) := by
    have ofContents (statements : List Statement) :
        statements.filterMap expected? =
          (statements.map Statement.content).filterMap expected? := by
      rw [List.filterMap_map]
      rfl
    rw [← states.filterMap_expected?, ← otherStates.filterMap_expected?, ofContents calls,
      ofContents others]
    exact perm.filterMap expected?
  have distinct : ((expectations.map Expectation.expected).map Prod.fst).Nodup := by
    rw [List.map_map]
    exact states.nodup_kinds
  rw [map_expected_inOrder, map_expected_inOrder]
  exact List.filterMap_congr fun kind _ => find?_eq_of_perm expects_perm distinct kind

/-- Calls state expectations in every order. -/
theorem States.exists_of_perm
    {rule : String}
    {calls others : List Statement}
    {expectations : List Expectation}
    (states : States rule calls expectations)
    (perm : (calls.map Statement.content).Perm (others.map Statement.content)) :
    ∃ otherExpectations, States rule others otherExpectations := by
  have each : ∀ statement ∈ others, ∃ expectation : Expectation,
      expectation.statement = statement ∧ expectation.IsStated rule := by
    intro statement inside
    obtain ⟨call, isCall, content_eq⟩ := List.mem_map.mp
      (perm.mem_iff.mpr (List.mem_map_of_mem inside))
    have call_eq : call.call = statement.call := congrArg (·.call) content_eq
    rw [← states.calls_eq] at isCall
    obtain ⟨expectation, isFound, rfl⟩ := List.mem_map.mp isCall
    have stated := states.stated expectation isFound
    refine ⟨⟨expectation.kind, expectation.argument, statement⟩, rfl, ?_, rfl, ?_⟩
    · obtain ⟨invocation, invoked, target⟩ := stated.isRuleCall
      exact ⟨invocation, call_eq ▸ invoked, target⟩
    · obtain ⟨invocation, invoked, arguments_eq⟩ := stated.expects.2
      exact ⟨invocation, call_eq ▸ invoked, arguments_eq⟩
  obtain ⟨otherExpectations, others_eq, stated⟩ := exists_expectations each
  refine ⟨otherExpectations, others_eq, stated, ?_⟩
  have ofContents (statements : List Statement) :
      statements.map callName? = (statements.map Statement.content).map callName? := by
    rw [List.map_map]
    rfl
  rw [ofContents others]
  rw [← (perm.map callName?).nodup_iff, ← ofContents calls]
  exact states.distinct

/-! ## Methods whose calls change places -/

/--
Two methods that are the same but for the order of the calls of a rule, of which each place keeps
what stands before it.
-/
structure Reordered
    (rule : String)
    (decl twin : Method)
    (leading calls others body : List Statement) : Prop where
  run : CallRun rule (bodyStatements decl) leading calls body
  twin_eq : twin = { decl with
    body := decl.body.map fun block =>
      { block with statements := leading ++ (others ++ body) } }
  perm : (calls.map Statement.content).Perm (others.map Statement.content)
  leads_eq : calls.map (·.lead) = others.map (·.lead)

/-- Plans that move the same statements, put the assertion in the same place and expect the same. -/
structure MethodPlan.Agrees (plan other : MethodPlan) : Prop where
  leading_eq : other.leading = plan.leading
  body_eq : other.body = plan.body
  expected_eq : plan.expectations.map Expectation.expected =
    other.expectations.map Expectation.expected
  anchor_eq : other.anchor.lead = plan.anchor.lead

section Reordered

variable {rule : String} {decl twin : Method} {leading calls others body : List Statement}

theorem Reordered.isSome_body (reordered : Reordered rule decl twin leading calls others body) :
    ∃ block, decl.body = some block ∧ block.statements = leading ++ (calls ++ body) := by
  have statements_eq := reordered.run.statements_eq
  unfold bodyStatements at statements_eq
  cases body_eq : decl.body with
  | some block =>
      rw [body_eq] at statements_eq
      exact ⟨block, rfl, statements_eq⟩
  | none =>
      rw [body_eq] at statements_eq
      have nothing := List.append_eq_nil_iff.mp statements_eq.symm
      exact absurd (List.append_eq_nil_iff.mp nothing.2).1 reordered.run.nonempty

/-- The calls are a run of calls in the other order, too. -/
theorem Reordered.twinRun (reordered : Reordered rule decl twin leading calls others body) :
    CallRun rule (bodyStatements twin) leading others body where
  statements_eq := by
    obtain ⟨block, body_eq, -⟩ := reordered.isSome_body
    rw [reordered.twin_eq, bodyStatements, body_eq]
    rfl
  nonempty := by
    rintro rfl
    have nothing := List.map_eq_nil_iff.mp reordered.leads_eq
    exact reordered.run.nonempty nothing
  areCalls := by
    intro statement inside
    obtain ⟨call, isCall, content_eq⟩ := List.mem_map.mp
      (reordered.perm.mem_iff.mpr (List.mem_map_of_mem inside))
    have call_eq : call.call = statement.call := congrArg (·.call) content_eq
    obtain ⟨invocation, invoked, target⟩ := reordered.run.areCalls call isCall
    exact ⟨invocation, call_eq ▸ invoked, target⟩
  before := reordered.run.before
  behind := reordered.run.behind

/-- The same names are taken in both methods. -/
theorem Reordered.mem_takenNames_iff
    (reordered : Reordered rule decl twin leading calls others body)
    (word : String) : word ∈ takenNames decl ↔ word ∈ takenNames twin := by
  have ofContents (statements : List Statement) :
      (∃ statement ∈ statements, word ∈ statement.references) ↔
        ∃ content ∈ statements.map Statement.content, word ∈ content.references := by
    simp [Statement.content]
  have sameCalls : (∃ statement ∈ calls, word ∈ statement.references) ↔
      ∃ statement ∈ others, word ∈ statement.references := by
    rw [ofContents calls, ofContents others]
    simp only [reordered.perm.mem_iff]
  have statements_eq := reordered.run.statements_eq
  have twin_statements_eq := reordered.twinRun.statements_eq
  have own_eq := reordered.twin_eq
  simp only [takenNames, List.mem_append, Member.mem_namesUsed_method]
  rw [statements_eq, twin_statements_eq]
  simp only [own_eq, List.mem_append, or_and_right, exists_or, sameCalls]

/-- If a method is planned, it is planned in the other order, too, and the plans agree. -/
theorem Reordered.exists_plans
    (reordered : Reordered rule decl twin leading calls others body)
    {planned : Option MethodPlan}
    (scanned : scanMethod rule decl = .ok planned) :
    ∃ plan other, planned = some plan ∧ scanMethod rule twin = .ok (some other) ∧
      plan.Agrees other := by
  obtain ⟨unmentioned, expectations, states, rfl⟩ := reordered.run.scanMethod_eq_ok_iff.mp scanned
  obtain ⟨otherExpectations, otherStates⟩ := states.exists_of_perm reordered.perm
  have twinScanned := reordered.twinRun.scanMethod_eq_ok_iff.mpr
    ⟨unmentioned, otherExpectations, otherStates, rfl⟩
  have expected_eq := map_expected_inOrder_of_perm states otherStates reordered.perm
  have leads_eq := reordered.leads_eq
  rw [← states.calls_eq, ← otherStates.calls_eq] at leads_eq
  cases expectations with
  | nil => exact absurd states.calls_eq.symm reordered.run.nonempty
  | cons first rest =>
      cases otherExpectations with
      | nil => exact absurd otherStates.calls_eq.symm reordered.twinRun.nonempty
      | cons otherFirst otherRest =>
          refine ⟨_, _, rfl, twinScanned, rfl, rfl, expected_eq, ?_⟩
          exact (List.cons.inj leads_eq).1.symm

end Reordered

/-! ## Assertions for plans that agree -/

namespace MethodPlan.Agrees

variable {plan other : MethodPlan}

theorem expectation?_eq (agrees : plan.Agrees other) (kind : ExpectationKind) :
    (other.expectation? kind).map (·.argument) = (plan.expectation? kind).map (·.argument) := by
  have found (plan : MethodPlan) : (plan.expectation? kind).map (·.argument) =
      ((plan.expectations.map Expectation.expected).find? (·.1 == kind)).map Prod.snd := by
    rw [List.find?_map, Option.map_map]
    rfl
  rw [found plan, found other, agrees.expected_eq]

theorem exceptionType_eq (agrees : plan.Agrees other) :
    other.exceptionType = plan.exceptionType := by
  have typeOf (plan : MethodPlan) : plan.exceptionType =
      (((plan.expectation? .type).map (·.argument)).bind Expression.classType?).getD
        defaultType := by
    rw [Option.bind_map]
    rfl
  rw [typeOf plan, typeOf other, agrees.expectation?_eq]

theorem messageArgument_eq (agrees : plan.Agrees other) (indent : String) :
    other.messageArgument indent = plan.messageArgument indent := by
  have argumentOf (plan : MethodPlan) : plan.messageArgument indent =
      (((plan.expectation? .message).map (·.argument)).map fun argument =>
        ", " ++ Layout.shiftFrom argument.text indent "").getD "" := by
    unfold messageArgument
    cases plan.expectation? .message <;> rfl
  rw [argumentOf plan, argumentOf other, agrees.expectation?_eq]

theorem moved_eq (agrees : plan.Agrees other) (indent : String) :
    other.moved indent = plan.moved indent := by
  rw [moved, moved, agrees.leading_eq, agrees.body_eq]

theorem lead_eq (agrees : plan.Agrees other) : other.lead = plan.lead := by
  rw [lead, lead, agrees.leading_eq, agrees.anchor_eq]

theorem usesMatchers_eq (agrees : plan.Agrees other) :
    other.usesMatchers = plan.usesMatchers := by
  have usesMatchers_eq (plan : MethodPlan) : plan.usesMatchers =
      (plan.expectations.map Expectation.expected).any (·.1.isMatcher) := by
    rw [List.any_map]
    rfl
  rw [usesMatchers_eq plan, usesMatchers_eq other, agrees.expected_eq]

/-- The matchers correspond to each other, one by one and in order. -/
theorem forall₂_matchers (agrees : plan.Agrees other) :
    List.Forall₂ (fun expectation twin => expectation.expected = twin.expected)
      (plan.expectations.filter (·.kind.isMatcher))
      (other.expectations.filter (·.kind.isMatcher)) := by
  refine List.rel_filter (fun expectation twin same => ?_) ?_
  · have kind_eq : expectation.kind = twin.kind := congrArg Prod.fst same
    simp only [kind_eq]
  · have expected_eq := agrees.expected_eq
    rwa [← List.forall₂_eq_eq_eq, List.forall₂_map_left_iff,
      List.forall₂_map_right_iff] at expected_eq

end MethodPlan.Agrees

theorem alike_matcherStatement
    {expectation twin : Expectation}
    (same : expectation.expected = twin.expected)
    (binding indent : String) :
    Alike Statement.unnumbered (matcherStatement binding indent expectation)
      (matcherStatement binding indent twin) := by
  have kind_eq : expectation.kind = twin.kind := congrArg Prod.fst same
  have argument_eq : expectation.argument = twin.argument := congrArg Prod.snd same
  unfold matcherStatement
  rw [kind_eq, argument_eq]
  exact Template.alike_statement _ _ _ _

/-- The assertions for plans that agree are the same but for their numbers. -/
theorem MethodPlan.Agrees.alike_assertions
    {plan other : MethodPlan}
    {decl twin : Method}
    (agrees : plan.Agrees other)
    (sameNames : ∀ word, word ∈ takenNames decl ↔ word ∈ takenNames twin)
    (layout : Layout)
    (indent : String) :
    Alike (List.map Statement.unnumbered) (assertions layout plan decl indent)
      (assertions layout other twin indent) := by
  unfold assertions
  dsimp only
  rw [agrees.exceptionType_eq, agrees.moved_eq, agrees.messageArgument_eq, agrees.usesMatchers_eq,
    agrees.lead_eq, freshName_congr sameNames]
  split
  · apply (Template.alike_statement _ _ _ _).bind
    intro throwing twinThrowing sameThrowing
    have alikeChecks (binding : String) : Alike (List.map Statement.unnumbered)
        ((plan.expectations.filter (·.kind.isMatcher)).mapM (matcherStatement binding indent))
        ((other.expectations.filter (·.kind.isMatcher)).mapM (matcherStatement binding indent)) :=
      alike_mapM (agrees.forall₂_matchers.imp fun _ _ same => alike_matcherStatement same _ _)
    apply (alikeChecks _).bind
    intro checks twinChecks sameChecks
    exact alike_pure (by rw [List.map_cons, List.map_cons, sameThrowing, sameChecks])
  · apply (Template.alike_statement _ _ _ _).bind
    intro throwing twinThrowing sameThrowing
    exact alike_pure (by rw [List.map_singleton, List.map_singleton, sameThrowing])

theorem print_eq_of_unnumbered_eq
    {decl twin : Method}
    (same : decl.unnumbered = twin.unnumbered) : decl.print = twin.print := by
  have print_unnumbered (decl : Method) : decl.unnumbered.print = decl.print :=
    congrArg (decl.lead ++ ·) (decl.text_renumbered fun _ => 0)
  rw [← print_unnumbered decl, same, print_unnumbered]

section Reordered

variable {rule : String} {decl twin : Method} {leading calls others body : List Statement}

/-- The statements of both methods stand in the same column. -/
theorem Reordered.statementIndent_eq
    (reordered : Reordered rule decl twin leading calls others body)
    (layout : Layout)
    (memberIndent : String) :
    layout.statementIndent twin memberIndent = layout.statementIndent decl memberIndent := by
  obtain ⟨block, body_eq, statements_eq⟩ := reordered.isSome_body
  have leads_eq : (block.statements.map (·.lead)) =
      (leading ++ (others ++ body)).map (·.lead) := by
    simp [statements_eq, reordered.leads_eq]
  have indentOf (method : Method) : layout.statementIndent method memberIndent =
      (((Layout.firstStatement? (.method method)).map (·.lead)).map fun lead =>
        if lead.toList.contains '\n' then Layout.indentation lead
        else memberIndent ++ layout.unit).getD (memberIndent ++ layout.unit) := by
    unfold Layout.statementIndent
    cases Layout.firstStatement? (.method method) <;> rfl
  have first_eq : (Layout.firstStatement? (.method twin)).map (·.lead) =
      (Layout.firstStatement? (.method decl)).map (·.lead) := by
    rw [reordered.twin_eq, Layout.firstStatement?, Layout.firstStatement?, body_eq]
    dsimp only [Option.map_some, Option.bind_some]
    rw [← List.head?_map, ← List.head?_map, leads_eq]
  rw [indentOf twin, indentOf decl, first_eq]

/-- Two methods whose calls stand in another order are migrated to the same method. -/
theorem Reordered.alike_migrateMethod
    (reordered : Reordered rule decl twin leading calls others body)
    {plan other : MethodPlan}
    (agrees : plan.Agrees other)
    (layout : Layout)
    (memberIndent : String) :
    Alike Method.unnumbered (migrateMethod layout memberIndent plan decl)
      (migrateMethod layout memberIndent other twin) := by
  unfold migrateMethod
  rw [reordered.statementIndent_eq]
  apply (agrees.alike_assertions reordered.mem_takenNames_iff layout _).bind
  intro statements twinStatements same
  obtain ⟨block, body_eq, -⟩ := reordered.isSome_body
  refine alike_pure ?_
  simp only [reordered.twin_eq, body_eq, Option.map_some, Method.unnumbered, Block.unnumbered, same]

/--
The order of expectations does not matter.  If the calls of a rule change places among each other,
either both methods are refused, or both are planned, moving the same statements and expecting the
same, and come to the same method apart from numbers, and so to the same text.
-/
theorem alike_of_reordered (reordered : Reordered rule decl twin leading calls others body) :
    (∃ use otherUse, scanMethod rule decl = .error use ∧ scanMethod rule twin = .error otherUse) ∨
    ∃ plan other, scanMethod rule decl = .ok (some plan) ∧
      scanMethod rule twin = .ok (some other) ∧ plan.Agrees other ∧
      ∀ layout memberIndent,
        Alike Method.unnumbered (migrateMethod layout memberIndent plan decl)
          (migrateMethod layout memberIndent other twin) ∧
        Alike Method.print (migrateMethod layout memberIndent plan decl)
          (migrateMethod layout memberIndent other twin) := by
  cases scanned : scanMethod rule decl with
  | ok planned =>
      obtain ⟨plan, other, rfl, twinScanned, agrees⟩ := reordered.exists_plans scanned
      refine .inr ⟨plan, other, rfl, twinScanned, agrees, fun layout memberIndent => ?_⟩
      have alike := reordered.alike_migrateMethod agrees layout memberIndent
      exact ⟨alike, alike.coarsen fun _ _ => print_eq_of_unnumbered_eq⟩
  | error use =>
      cases twinScanned : scanMethod rule twin with
      | error otherUse => exact .inl ⟨use, otherUse, rfl, rfl⟩
      | ok planned =>
          -- The calls of the second method, put in order, would make a plan for the first one.
          obtain ⟨unmentioned, expectations, states, -⟩ :=
            reordered.twinRun.scanMethod_eq_ok_iff.mp twinScanned
          obtain ⟨otherExpectations, otherStates⟩ := states.exists_of_perm reordered.perm.symm
          have rescanned := reordered.run.scanMethod_eq_ok_iff.mpr
            ⟨unmentioned, otherExpectations, otherStates, rfl⟩
          rw [scanned] at rescanned
          cases rescanned

end Reordered

/-- A call of the rule, or of the class itself, with a name as its argument. -/
def callOf (id : Nat) (lead : String) (target : Option String) (name : String) : Statement where
  id := id
  lead := lead
  text := (target.map (· ++ ".")).getD "" ++ name ++ "(a);"
  call := some ⟨target, name, [⟨"a", .name, ["a"]⟩]⟩
  references := Names.ofList ("a" :: name :: target.toList)

/-- A method that prepares something, makes some calls and runs something. -/
def callingInTurn (calls : List Statement) : Method where
  id := 1
  lead := "\n  "
  annotations := []
  declLead := ""
  modifiers := ""
  returnType := some "void"
  typeSpace := " "
  name := "t"
  nameSpace := ""
  parameters := []
  emptySpace := ""
  throwsText := ""
  body := some ⟨2, " ",
    callOf 3 "\n    " none "prepare" :: (calls ++ [callOf 4 "\n    " none "run"]), "\n  "⟩
  references := []

/-- A cause, a message and a type are expected. -/
def causeFirst : List Statement :=
  [callOf 5 "\n    " (some "rule") "expectCause",
    callOf 6 " // and\n    " (some "this.rule") "expectMessage",
    callOf 7 "\n    " (some "rule") "expect"]

/-- A type, a cause and a message are expected, in the same places. -/
def typeFirst : List Statement :=
  [callOf 7 "\n    " (some "rule") "expect", callOf 5 " // and\n    " (some "rule") "expectCause",
    callOf 6 "\n    " (some "this.rule") "expectMessage"]

theorem alike_of_reordered_threeCalls :
    Reordered "rule" (callingInTurn causeFirst) (callingInTurn typeFirst)
        [callOf 3 "\n    " none "prepare"] causeFirst typeFirst [callOf 4 "\n    " none "run"] ∧
      ∃ plan other, scanMethod "rule" (callingInTurn causeFirst) = .ok (some plan) ∧
        scanMethod "rule" (callingInTurn typeFirst) = .ok (some other) ∧ plan.Agrees other ∧
        ∀ layout memberIndent,
          Alike Method.unnumbered
            (migrateMethod layout memberIndent plan (callingInTurn causeFirst))
            (migrateMethod layout memberIndent other (callingInTurn typeFirst)) := by
  have reordered : Reordered "rule" (callingInTurn causeFirst) (callingInTurn typeFirst)
      [callOf 3 "\n    " none "prepare"] causeFirst typeFirst [callOf 4 "\n    " none "run"] := by
    refine ⟨⟨rfl, by decide, fun statement inside => isSome_ruleCall?_iff.mp ?_,
      fun statement inside => ruleCall?_eq_none_iff.mp ?_,
      fun statement inside => ruleCall?_eq_none_iff.mp ?_⟩, rfl, by decide, by decide⟩
    · revert statement
      decide
    · revert statement
      decide
    · revert statement
      decide
  refine ⟨reordered, ?_⟩
  rcases alike_of_reordered reordered with
    ⟨use, _, refused, -⟩ | ⟨plan, other, scanned, twinScanned, agrees, alike⟩
  · have accepted : (scanMethod "rule" (callingInTurn causeFirst)).toOption.isSome = true := by
      decide
    rw [refused] at accepted
    cases accepted
  · exact ⟨plan, other, scanned, twinScanned, agrees, fun layout memberIndent =>
      (alike layout memberIndent).1⟩

end ExpectedException

end JupiterMigration
