import JupiterMigration.ExpectedException.Plan
import JupiterMigration.Proofs.Usage
import Mathlib.Data.List.Nodup

/-!
# Which methods are planned

The body of a method is planned if it consists of leading statements, a run of expectations that are
all the calls of the rule, and remaining statements, where only the run mentions the rule
(`Splits`).  A method without any use of the rule has no plan, and every other method is refused
(`scansAsSplit_of_callsMention`).
-/

namespace JupiterMigration

namespace ExpectedException

open Member (bodyStatements)

/-! ## Calls of the rule -/

/-- A statement that is a call of the rule, which is named alone or selected from the object. -/
def IsRuleCall (rule : String) (statement : Statement) : Prop :=
  ∃ call, statement.call = some call ∧
    (call.target = some rule ∨ call.target = some ("this." ++ rule))

theorem ruleCall?_eq_some_iff {rule : String} {statement : Statement} {call : Call} :
    ruleCall? rule statement = some call ↔ statement.call = some call ∧
      (call.target = some rule ∨ call.target = some ("this." ++ rule)) := by
  simp [ruleCall?, Option.filter_eq_some_iff]

theorem isSome_ruleCall?_iff {rule : String} {statement : Statement} :
    (ruleCall? rule statement).isSome = true ↔ IsRuleCall rule statement := by
  simp [Option.isSome_iff_exists, ruleCall?_eq_some_iff, IsRuleCall]

theorem ruleCall?_eq_none_iff {rule : String} {statement : Statement} :
    ruleCall? rule statement = none ↔ ¬IsRuleCall rule statement := by
  rw [← isSome_ruleCall?_iff, Option.not_isSome_iff_eq_none]

/-- The name of the method that a statement calls, if it is a call. -/
def callName? (statement : Statement) : Option String :=
  statement.call.map (·.name)

/-- The methods of the rule that state expectations. -/
def expectationNames : List String :=
  ["expect", "expectMessage", "expectCause"]

/-- An expectation holds what a statement states, a call with a single argument. -/
def Expects (statement : Statement) (expectation : Expectation) : Prop :=
  expectation.statement = statement ∧ ∃ call, statement.call = some call ∧
    call.arguments = [expectation.argument] ∧
    kindOf? call.name expectation.argument.form = some expectation.kind

/-- An expectation that a call of the rule states. -/
structure Expectation.IsStated (rule : String) (expectation : Expectation) : Prop where
  isRuleCall : IsRuleCall rule expectation.statement
  expects : Expects expectation.statement expectation

theorem classify_eq_some_iff {call : Call} {kind : ExpectationKind} {argument : Expression} :
    classify call = some (kind, argument) ↔
      call.arguments = [argument] ∧ kindOf? call.name argument.form = some kind := by
  unfold classify
  split
  · next only only_eq =>
      constructor
      · intro found
        obtain ⟨_, kind_eq, same⟩ := Option.map_eq_some_iff.mp found
        cases same
        exact ⟨only_eq, kind_eq⟩
      · rintro ⟨again, kind_eq⟩
        obtain rfl := List.singleton_inj.mp (only_eq.symm.trans again)
        rw [kind_eq]
        rfl
  · next several =>
      constructor
      · intro found
        cases found
      · rintro ⟨only, -⟩
        exact absurd only (several argument)

/-- Whether a call states an expectation about an argument is decided by its name. -/
theorem kindOf?_isSome_iff {name : String} (form : ExpressionForm) :
    (kindOf? name form).isSome = true ↔ name ∈ expectationNames := by
  unfold kindOf? expectationNames
  split
  · simp_all
  · split
    · simp_all
    · split <;> simp_all

/-- The methods that state expectations of a kind. -/
def ExpectationKind.method : ExpectationKind → String
  | .type | .typeMatcher => "expect"
  | .message | .messageMatcher => "expectMessage"
  | .causeMatcher => "expectCause"

/-- Expectations of one kind are stated by one method. -/
theorem name_eq_of_kindOf?
    {name : String}
    {form : ExpressionForm}
    {kind : ExpectationKind}
    (kind_eq : kindOf? name form = some kind) : name = kind.method := by
  unfold kindOf? at kind_eq
  split at kind_eq
  · next same =>
      cases kind_eq
      cases form <;> exact same
  · split at kind_eq
    · next same =>
        cases kind_eq
        cases form <;> exact same
    · split at kind_eq
      · next same =>
          cases kind_eq
          exact same
      · cases kind_eq

/-- What a stated expectation expects is what its call is classified as. -/
theorem Expectation.IsStated.classify_eq
    {rule : String}
    {expectation : Expectation}
    {call : Call}
    (stated : expectation.IsStated rule)
    (call_eq : ruleCall? rule expectation.statement = some call) :
    classify call = some (expectation.kind, expectation.argument) := by
  obtain ⟨_, same, arguments_eq, kind_eq⟩ := stated.expects.2
  obtain rfl := Option.some.inj (same.symm.trans (ruleCall?_eq_some_iff.mp call_eq).1)
  exact classify_eq_some_iff.mpr ⟨arguments_eq, kind_eq⟩

theorem isStated_of_classify
    {rule : String}
    {statement : Statement}
    {call : Call}
    {kind : ExpectationKind}
    {argument : Expression}
    (call_eq : ruleCall? rule statement = some call)
    (classified : classify call = some (kind, argument)) :
    Expectation.IsStated rule ⟨kind, argument, statement⟩ := by
  obtain ⟨arguments_eq, kind_eq⟩ := classify_eq_some_iff.mp classified
  have isCall := ruleCall?_eq_some_iff.mp call_eq
  exact ⟨⟨call, isCall⟩, rfl, call, isCall.1, arguments_eq, kind_eq⟩

/-! ## The two runs of a scan -/

section Steps

variable {rule method : String} {called : List String} {first : Statement}
  {rest leading others : List Statement} {expectations : List Expectation}

theorem scanLeading_cons_of_not_isRuleCall (noCall : ¬IsRuleCall rule first) :
    scanLeading rule method (first :: rest) = .ok (leading, others) ↔
      mentions rule first = false ∧ ∃ more, leading = first :: more ∧
        scanLeading rule method rest = .ok (more, others) := by
  rw [scanLeading, if_neg (mt isSome_ruleCall?_iff.mp noCall)]
  cases mentions rule first with
  | true => simp
  | false =>
      rw [if_neg Bool.false_ne_true]
      cases scanLeading rule method rest with
      | error use => simp [bind, Except.bind]
      | ok scanned =>
          obtain ⟨more, left⟩ := scanned
          simp only [bind, Except.bind, pure, Except.pure, Except.ok.injEq, Prod.mk.injEq]
          constructor
          · rintro ⟨rfl, rfl⟩
            exact ⟨trivial, more, rfl, rfl, rfl⟩
          · rintro ⟨-, _, rfl, rfl, rfl⟩
            exact ⟨rfl, rfl⟩

theorem scanCalls_cons_of_ruleCall? {call : Call} (call_eq : ruleCall? rule first = some call) :
    scanCalls rule method called (first :: rest) = .ok (expectations, others) ↔
      ∃ kind argument more, expectations = ⟨kind, argument, first⟩ :: more ∧
        classify call = some (kind, argument) ∧ call.name ∉ called ∧
        scanCalls rule method (call.name :: called) rest = .ok (more, others) := by
  rw [scanCalls, call_eq]
  dsimp only
  cases classify call with
  | none => simp
  | some found =>
      obtain ⟨kind, argument⟩ := found
      by_cases repeated : call.name ∈ called
      · simp [repeated]
      · dsimp only
        rw [if_neg (by simpa using repeated)]
        cases scanCalls rule method (call.name :: called) rest with
        | error use => simp [bind, Except.bind]
        | ok scanned =>
            obtain ⟨more, left⟩ := scanned
            simp only [bind, Except.bind, pure, Except.pure, Except.ok.injEq, Prod.mk.injEq]
            constructor
            · rintro ⟨rfl, rfl⟩
              exact ⟨kind, argument, more, rfl, rfl, repeated, rfl, rfl⟩
            · rintro ⟨_, _, _, rfl, ⟨⟩, -, rfl, rfl⟩
              exact ⟨rfl, rfl⟩

end Steps

/-- The leading statements end at the first call of the rule, and do not mention the rule. -/
theorem scanLeading_eq_ok_iff
    {rule method : String}
    {statements leading others : List Statement} :
    scanLeading rule method statements = .ok (leading, others) ↔
      statements = leading ++ others ∧
      (∀ statement ∈ leading, ¬IsRuleCall rule statement ∧ mentions rule statement = false) ∧
      ∀ first ∈ others.head?, IsRuleCall rule first := by
  induction statements generalizing leading with
  | nil =>
      constructor
      · rintro ⟨⟩
        simp
      · rintro ⟨nothing, -, -⟩
        obtain ⟨rfl, rfl⟩ := List.nil_eq_append_iff.mp nothing
        rfl
  | cons first rest inductionHypothesis =>
      by_cases isCall : IsRuleCall rule first
      · rw [scanLeading, if_pos (isSome_ruleCall?_iff.mpr isCall)]
        constructor
        · rintro ⟨⟩
          simpa using isCall
        · rintro ⟨statements_eq, noCall, -⟩
          cases leading with
          | nil =>
              cases statements_eq
              rfl
          | cons head more =>
              cases statements_eq
              exact absurd isCall (noCall _ List.mem_cons_self).1
      · rw [scanLeading_cons_of_not_isRuleCall isCall]
        constructor
        · rintro ⟨unmentioned, more, rfl, scanned⟩
          obtain ⟨rfl, noCall, starts⟩ := inductionHypothesis.mp scanned
          exact ⟨rfl, List.forall_mem_cons.mpr ⟨⟨isCall, unmentioned⟩, noCall⟩, starts⟩
        · rintro ⟨statements_eq, noCall, starts⟩
          cases leading with
          | nil =>
              cases statements_eq
              exact absurd (starts first rfl) isCall
          | cons head more =>
              obtain ⟨rfl, rest_eq⟩ := List.cons.inj statements_eq
              obtain ⟨⟨-, unmentioned⟩, noCallLater⟩ := List.forall_mem_cons.mp noCall
              exact ⟨unmentioned, more, rfl,
                inductionHypothesis.mpr ⟨rest_eq, noCallLater, starts⟩⟩

/-- The run of expectations ends before the first statement that is no call of the rule. -/
theorem scanCalls_eq_ok_iff
    {rule method : String}
    {called : List String}
    {statements others : List Statement}
    {expectations : List Expectation} :
    scanCalls rule method called statements = .ok (expectations, others) ↔
      statements = expectations.map (·.statement) ++ others ∧
      (∀ expectation ∈ expectations, expectation.IsStated rule) ∧
      (expectations.map fun expectation => callName? expectation.statement).Nodup ∧
      (∀ expectation ∈ expectations, ∀ name ∈ called,
        callName? expectation.statement ≠ some name) ∧
      ∀ first ∈ others.head?, ¬IsRuleCall rule first := by
  induction statements generalizing called expectations with
  | nil =>
      constructor
      · rintro ⟨⟩
        simp
      · rintro ⟨nothing, -⟩
        obtain ⟨none, rfl⟩ := List.nil_eq_append_iff.mp nothing
        obtain rfl := List.map_eq_nil_iff.mp none
        rfl
  | cons first rest inductionHypothesis =>
      cases call_eq : ruleCall? rule first with
      | none =>
          have noCall := ruleCall?_eq_none_iff.mp call_eq
          rw [scanCalls, call_eq]
          constructor
          · rintro ⟨⟩
            simpa using noCall
          · rintro ⟨statements_eq, stated, -⟩
            cases expectations with
            | nil =>
                cases statements_eq
                rfl
            | cons head more =>
                cases statements_eq
                exact absurd (stated head List.mem_cons_self).isRuleCall noCall
      | some call =>
          have name_eq : callName? first = some call.name := by
            rw [callName?, (ruleCall?_eq_some_iff.mp call_eq).1]
            rfl
          rw [scanCalls_cons_of_ruleCall? call_eq]
          constructor
          · rintro ⟨kind, argument, more, rfl, classified, fresh, scanned⟩
            obtain ⟨rfl, stated, distinct, freshLater, stops⟩ := inductionHypothesis.mp scanned
            refine ⟨rfl, ?_, ?_, ?_, stops⟩
            · exact List.forall_mem_cons.mpr ⟨isStated_of_classify call_eq classified, stated⟩
            · refine List.nodup_cons.mpr ⟨fun again => ?_, distinct⟩
              obtain ⟨expectation, later, same⟩ := List.mem_map.mp again
              exact freshLater expectation later call.name List.mem_cons_self (same.trans name_eq)
            · refine List.forall_mem_cons.mpr ⟨fun name known same => ?_, ?_⟩
              · obtain rfl := Option.some.inj (name_eq.symm.trans same)
                exact fresh known
              · exact fun expectation later name known =>
                  freshLater expectation later name (.tail _ known)
          · rintro ⟨statements_eq, stated, distinct, fresh, stops⟩
            cases expectations with
            | nil =>
                cases statements_eq
                exact absurd ⟨call, ruleCall?_eq_some_iff.mp call_eq⟩ (stops first rfl)
            | cons head more =>
                obtain ⟨rfl, rest_eq⟩ := List.cons.inj statements_eq
                obtain ⟨headStated, moreStated⟩ := List.forall_mem_cons.mp stated
                obtain ⟨headFresh, moreFresh⟩ := List.forall_mem_cons.mp fresh
                obtain ⟨unlike, moreDistinct⟩ := List.nodup_cons.mp distinct
                refine ⟨head.kind, head.argument, more, rfl, headStated.classify_eq call_eq,
                  fun known => headFresh call.name known name_eq, inductionHypothesis.mpr
                    ⟨rest_eq, moreStated, moreDistinct, fun expectation later => ?_, stops⟩⟩
                refine List.forall_mem_cons.mpr ⟨fun same => ?_, moreFresh expectation later⟩
                exact unlike (List.mem_map.mpr ⟨expectation, later, same.trans name_eq.symm⟩)

/-! ## Scans of methods -/

/-- A method is scanned by finding the three parts of its body. -/
theorem scanMethod_eq_ok_iff
    {rule : String}
    {decl : Method}
    {plan : Option MethodPlan} :
    scanMethod rule decl = .ok plan ↔
      ∃ leading others expectations body,
        scanLeading rule decl.name (bodyStatements decl) = .ok (leading, others) ∧
        scanCalls rule decl.name [] others = .ok (expectations, body) ∧
        (∀ statement ∈ body, mentions rule statement = false) ∧
        plan = expectations.head?.map fun first =>
          { leading, expectations := inOrder expectations, body, anchor := first.statement } := by
  have own_eq : (decl.body.map (·.statements)).getD [] = bodyStatements decl := rfl
  unfold scanMethod
  dsimp only
  rw [own_eq]
  cases scanLeading rule decl.name (bodyStatements decl) with
  | error use => simp [bind, Except.bind]
  | ok scanned =>
      obtain ⟨leading, others⟩ := scanned
      cases calls_eq : scanCalls rule decl.name [] others with
      | error use => simp [bind, Except.bind, calls_eq]
      | ok calls =>
          obtain ⟨expectations, body⟩ := calls
          have unmentioned_iff : (∀ statement ∈ body, mentions rule statement = false) ↔
              ¬body.any (mentions rule) = true := by simp
          by_cases mentioned : body.any (mentions rule) = true
          · simp [bind, Except.bind, calls_eq, throw, throwThe, MonadExceptOf.throw, mentioned,
              unmentioned_iff]
          · simp only [bind, Except.bind, calls_eq, pure, Except.pure, mentioned]
            constructor
            · intro planned
              exact ⟨leading, others, expectations, body, rfl, calls_eq,
                unmentioned_iff.mpr mentioned, (Except.ok.inj planned).symm⟩
            · rintro ⟨_, _, _, _, ⟨⟩, again, -, rfl⟩
              obtain ⟨rfl, rfl⟩ := Prod.mk.inj (Except.ok.inj (calls_eq.symm.trans again))
              rfl

/-- The parts of a scanned method, with the expectations as they are stated. -/
structure Finds
    (rule : String)
    (statements leading : List Statement)
    (expectations : List Expectation)
    (body : List Statement) : Prop where
  statements_eq : statements = leading ++ (expectations.map (·.statement) ++ body)
  stated : ∀ expectation ∈ expectations, expectation.IsStated rule
  distinct : (expectations.map fun expectation => callName? expectation.statement).Nodup
  apart : ∀ statement ∈ leading ++ body,
    ¬IsRuleCall rule statement ∧ mentions rule statement = false

/-- If every call of the rule mentions it, a method is scanned if it has the three parts. -/
theorem scanMethod_eq_ok_iff_finds
    {rule : String}
    {decl : Method}
    {plan : Option MethodPlan}
    (callsMention : ∀ statement ∈ bodyStatements decl,
      IsRuleCall rule statement → mentions rule statement = true) :
    scanMethod rule decl = .ok plan ↔
      ∃ leading expectations body, Finds rule (bodyStatements decl) leading expectations body ∧
        plan = expectations.head?.map fun first =>
          { leading, expectations := inOrder expectations, body, anchor := first.statement } := by
  simp only [scanMethod_eq_ok_iff, scanLeading_eq_ok_iff, scanCalls_eq_ok_iff]
  constructor
  · rintro ⟨leading, _, expectations, body, ⟨statements_eq, apart, -⟩, ⟨rfl, stated, distinct, -⟩,
      unmentioned, plan_eq⟩
    refine ⟨leading, expectations, body, ⟨statements_eq, stated, distinct, ?_⟩, plan_eq⟩
    intro statement inside
    cases List.mem_append.mp inside with
    | inl isLeading => exact apart statement isLeading
    | inr isBody =>
        have isStatement : statement ∈ bodyStatements decl := by simp [statements_eq, isBody]
        refine ⟨fun isCall => ?_, unmentioned statement isBody⟩
        have mentioned := callsMention statement isStatement isCall
        rw [unmentioned statement isBody] at mentioned
        cases mentioned
  · rintro ⟨leading, expectations, body, finds, plan_eq⟩
    cases expectations with
    | nil =>
        refine ⟨leading ++ body, [], [], [], ⟨?_, finds.apart, ?_⟩, ?_, ?_, plan_eq⟩
        · simpa using finds.statements_eq
        · simp
        · simp
        · simp
    | cons first rest =>
        refine ⟨leading, _, first :: rest, body, ⟨finds.statements_eq, ?_, ?_⟩,
          ⟨rfl, finds.stated, finds.distinct, ?_, ?_⟩, ?_, plan_eq⟩
        · exact fun statement isLeading => finds.apart statement (List.mem_append_left _ isLeading)
        · rintro _ ⟨⟩
          exact (finds.stated first List.mem_cons_self).isRuleCall
        · simp
        · exact fun next isNext => (finds.apart next
            (List.mem_append_right _ (List.mem_of_mem_head? isNext))).1
        · exact fun statement isBody =>
            (finds.apart statement (List.mem_append_right _ isBody)).2

/-! ## Which methods are planned -/

/--
Some statements are split around the calls of a rule: these stand in a row, each of them states an
expectation about its only argument, no two in the same way, and no other statement mentions the
rule.
-/
structure Splits
    (rule : String)
    (statements leading calls body : List Statement) : Prop where
  statements_eq : statements = leading ++ (calls ++ body)
  nonempty : calls ≠ []
  areCalls : ∀ statement ∈ calls, IsRuleCall rule statement
  onlyCalls : ∀ statement ∈ leading ++ body, ¬IsRuleCall rule statement
  classified : ∀ statement ∈ calls, ∃ call, statement.call = some call ∧
    call.arguments.length = 1 ∧ call.name ∈ expectationNames
  distinct : (calls.map callName?).Nodup
  unmentioned : ∀ statement ∈ leading ++ body, rule ∉ statement.references

/-- A call of the rule with a single argument and one of the known names states an expectation. -/
theorem exists_isStated
    {rule : String}
    {statement : Statement}
    (isCall : IsRuleCall rule statement)
    (classified : ∃ call, statement.call = some call ∧
      call.arguments.length = 1 ∧ call.name ∈ expectationNames) :
    ∃ expectation : Expectation,
      expectation.statement = statement ∧ expectation.IsStated rule := by
  obtain ⟨call, call_eq, single, known⟩ := classified
  obtain ⟨argument, arguments_eq⟩ := List.length_eq_one_iff.mp single
  obtain ⟨kind, kind_eq⟩ := Option.isSome_iff_exists.mp
    ((kindOf?_isSome_iff argument.form).mpr known)
  exact ⟨⟨kind, argument, statement⟩, rfl, isCall, rfl, call, call_eq, arguments_eq, kind_eq⟩

theorem exists_finds_of_splits
    {rule : String}
    {statements leading calls body : List Statement}
    (splits : Splits rule statements leading calls body) :
    ∃ expectations, expectations.map (·.statement) = calls ∧
      Finds rule statements leading expectations body := by
  have each : ∀ statement ∈ calls, ∃ expectation : Expectation,
      expectation.statement = statement ∧ expectation.IsStated rule := fun statement inside =>
    exists_isStated (splits.areCalls statement inside) (splits.classified statement inside)
  obtain ⟨expectations, calls_eq, stated⟩ : ∃ expectations : List Expectation,
      expectations.map (·.statement) = calls ∧
        ∀ expectation ∈ expectations, expectation.IsStated rule := by
    generalize calls = some at each
    induction some with
    | nil => exact ⟨[], rfl, by simp⟩
    | cons first rest inductionHypothesis =>
        obtain ⟨⟨expectation, rfl, stated⟩, eachLater⟩ := List.forall_mem_cons.mp each
        obtain ⟨expectations, rfl, statedLater⟩ := inductionHypothesis eachLater
        exact ⟨expectation :: expectations, rfl, List.forall_mem_cons.mpr ⟨stated, statedLater⟩⟩
  subst calls_eq
  refine ⟨expectations, rfl, splits.statements_eq, stated, ?_, fun statement inside => ?_⟩
  · simpa [Function.comp_def] using splits.distinct
  · exact ⟨splits.onlyCalls statement inside,
      by simpa [mentions] using splits.unmentioned statement inside⟩

theorem Finds.splits
    {rule : String}
    {statements leading body : List Statement}
    {expectations : List Expectation}
    (finds : Finds rule statements leading expectations body)
    (nonempty : expectations ≠ []) :
    Splits rule statements leading (expectations.map (·.statement)) body where
  statements_eq := finds.statements_eq
  nonempty := by simpa using nonempty
  areCalls := by
    intro statement inside
    obtain ⟨expectation, isFound, rfl⟩ := List.mem_map.mp inside
    exact (finds.stated expectation isFound).isRuleCall
  onlyCalls := fun statement inside => (finds.apart statement inside).1
  classified := by
    intro statement inside
    obtain ⟨expectation, isFound, rfl⟩ := List.mem_map.mp inside
    obtain ⟨call, call_eq, arguments_eq, kind_eq⟩ := (finds.stated expectation isFound).expects.2
    refine ⟨call, call_eq, by rw [arguments_eq]; rfl, ?_⟩
    exact (kindOf?_isSome_iff _).mp (Option.isSome_iff_exists.mpr ⟨_, kind_eq⟩)
  distinct := by simpa [Function.comp_def] using finds.distinct
  unmentioned := by
    intro statement inside
    simpa [mentions] using (finds.apart statement inside).2

/-! ## The order of expectations -/

theorem kind_of_find?
    {expectations : List Expectation}
    {kind : ExpectationKind}
    {expectation : Expectation}
    (found : expectations.find? (·.kind == kind) = some expectation) : expectation.kind = kind := by
  simpa using List.find?_some found

/-- The kinds of ordered expectations come in the order of all kinds, each at most once. -/
theorem sublist_kinds_inOrder (expectations : List Expectation) :
    ((inOrder expectations).map (·.kind)).Sublist ExpectationKind.all := by
  unfold inOrder
  generalize ExpectationKind.all = kinds
  induction kinds with
  | nil => exact List.Sublist.refl []
  | cons kind rest inductionHypothesis =>
      rw [List.filterMap_cons]
      cases found : expectations.find? (·.kind == kind) with
      | none => exact .cons _ inductionHypothesis
      | some expectation =>
          rw [List.map_cons, kind_of_find? found]
          exact .cons_cons _ inductionHypothesis

/-- No expectation is lost or added in ordering if no two of them have the same kind. -/
theorem inOrder_perm
    {expectations : List Expectation}
    (distinct : (expectations.map (·.kind)).Nodup) : (inOrder expectations).Perm expectations := by
  have ordered : ((inOrder expectations).map (·.kind)).Nodup :=
    (sublist_kinds_inOrder expectations).nodup (by decide)
  refine (List.perm_ext_iff_of_nodup ordered.of_map distinct.of_map).mpr fun expectation => ?_
  unfold inOrder
  rw [List.mem_filterMap]
  constructor
  · rintro ⟨kind, -, found⟩
    exact List.mem_of_find?_eq_some found
  · intro inside
    refine ⟨expectation.kind, by cases expectation.kind <;> decide, ?_⟩
    obtain ⟨first, found⟩ := Option.isSome_iff_exists.mp
      (List.find?_isSome (p := (·.kind == expectation.kind)).mpr
        ⟨expectation, inside, beq_self_eq_true _⟩)
    have same := List.inj_on_of_nodup_map distinct (List.mem_of_find?_eq_some found) inside
      (kind_of_find? found)
    rw [found, same]

/-- Stated expectations that call different methods are of different kinds. -/
theorem nodup_kinds_of_isStated
    {rule : String}
    {expectations : List Expectation}
    (stated : ∀ expectation ∈ expectations, expectation.IsStated rule)
    (distinct : (expectations.map fun expectation => callName? expectation.statement).Nodup) :
    (expectations.map (·.kind)).Nodup := by
  have names_eq : (expectations.map fun expectation => callName? expectation.statement) =
      (expectations.map (·.kind)).map (some ·.method) := by
    rw [List.map_map]
    refine List.map_congr_left fun expectation inside => ?_
    obtain ⟨call, call_eq, -, kind_eq⟩ := (stated expectation inside).expects.2
    rw [callName?, call_eq, Option.map_some, name_eq_of_kindOf? kind_eq]
    rfl
  exact (names_eq ▸ distinct).of_map

/-! ## The outcomes of a scan -/

/-- What a plan says of the statements it was made from. -/
structure MethodPlan.Describes (plan : MethodPlan) (calls : List Statement) : Prop where
  anchor_eq : calls.head? = some plan.anchor
  each : ∃ found, List.Forall₂ Expects calls found ∧ plan.expectations.Perm found
  ordered : (plan.expectations.map (·.kind)).Sublist ExpectationKind.all

/-- A method is scanned without a plan, with one, or not at all. -/
structure ScansAsSplit (rule : String) (decl : Method) : Prop where
  unused_iff : scanMethod rule decl = .ok none ↔ ∀ statement ∈ bodyStatements decl,
    ¬IsRuleCall rule statement ∧ rule ∉ statement.references
  planned_iff : (∃ plan, scanMethod rule decl = .ok (some plan)) ↔
    ∃ leading calls body, Splits rule (bodyStatements decl) leading calls body
  refused_iff : (∃ use, scanMethod rule decl = .error use) ↔
    (∃ statement ∈ bodyStatements decl,
      IsRuleCall rule statement ∨ rule ∈ statement.references) ∧
    ¬∃ leading calls body, Splits rule (bodyStatements decl) leading calls body
  plan_eq : ∀ plan, scanMethod rule decl = .ok (some plan) →
    ∃ calls, Splits rule (bodyStatements decl) plan.leading calls plan.body ∧ plan.Describes calls

theorem describes_of_isStated
    {rule : String}
    {leading body : List Statement}
    {first : Expectation}
    {rest : List Expectation}
    (stated : ∀ expectation ∈ first :: rest, expectation.IsStated rule)
    (distinct : ((first :: rest).map fun expectation => callName? expectation.statement).Nodup) :
    (MethodPlan.mk leading (inOrder (first :: rest)) body first.statement).Describes
      ((first :: rest).map (·.statement)) where
  anchor_eq := rfl
  each := by
    refine ⟨first :: rest, ?_, inOrder_perm (nodup_kinds_of_isStated stated distinct)⟩
    rw [List.forall₂_map_left_iff, List.forall₂_same]
    exact fun expectation inside => (stated expectation inside).expects
  ordered := sublist_kinds_inOrder _

/-- A plan holds all statements of its method, and what the calls of the rule expect. -/
theorem describes_of_scanMethod
    {rule : String}
    {decl : Method}
    {plan : MethodPlan}
    (planned : scanMethod rule decl = .ok (some plan)) :
    ∃ calls, bodyStatements decl = plan.leading ++ (calls ++ plan.body) ∧
      plan.Describes calls := by
  obtain ⟨leading, others, expectations, body, leadingFound, callsFound, -, plan_eq⟩ :=
    scanMethod_eq_ok_iff.mp planned
  obtain ⟨statements_eq, -⟩ := scanLeading_eq_ok_iff.mp leadingFound
  obtain ⟨rfl, stated, distinct, -⟩ := scanCalls_eq_ok_iff.mp callsFound
  cases expectations with
  | nil => cases plan_eq
  | cons first rest =>
      cases plan_eq
      exact ⟨_, statements_eq, describes_of_isStated stated distinct⟩

/-- If every call of the rule mentions it, a method is scanned as it splits. -/
theorem scansAsSplit_of_callsMention
    {rule : String}
    {decl : Method}
    (callsMention : ∀ statement ∈ bodyStatements decl,
      IsRuleCall rule statement → mentions rule statement = true) : ScansAsSplit rule decl := by
  have unused_iff : scanMethod rule decl = .ok none ↔ ∀ statement ∈ bodyStatements decl,
      ¬IsRuleCall rule statement ∧ rule ∉ statement.references := by
    rw [scanMethod_eq_ok_iff_finds callsMention]
    constructor
    · rintro ⟨leading, expectations, body, finds, none_eq⟩ statement inside
      cases expectations with
      | cons first rest => cases none_eq
      | nil =>
          rw [finds.statements_eq] at inside
          simpa [mentions] using finds.apart statement inside
    · intro unused
      refine ⟨bodyStatements decl, [], [], ⟨by simp, by simp, by simp, ?_⟩, rfl⟩
      simpa [mentions] using unused
  have planned_iff (plan : MethodPlan) : scanMethod rule decl = .ok (some plan) ↔
      ∃ first rest, Finds rule (bodyStatements decl) plan.leading (first :: rest) plan.body ∧
        plan = ⟨plan.leading, inOrder (first :: rest), plan.body, first.statement⟩ := by
    rw [scanMethod_eq_ok_iff_finds callsMention]
    constructor
    · rintro ⟨leading, expectations, body, finds, plan_eq⟩
      cases expectations with
      | nil => cases plan_eq
      | cons first rest =>
          cases plan_eq
          exact ⟨first, rest, finds, rfl⟩
    · rintro ⟨first, rest, finds, plan_eq⟩
      exact ⟨plan.leading, first :: rest, plan.body, finds, congrArg some plan_eq⟩
  have exists_iff : (∃ plan, scanMethod rule decl = .ok (some plan)) ↔
      ∃ leading calls body, Splits rule (bodyStatements decl) leading calls body := by
    constructor
    · rintro ⟨plan, planned⟩
      obtain ⟨first, rest, finds, -⟩ := (planned_iff plan).mp planned
      exact ⟨_, _, _, finds.splits (List.cons_ne_nil first rest)⟩
    · rintro ⟨leading, calls, body, splits⟩
      obtain ⟨expectations, rfl, finds⟩ := exists_finds_of_splits splits
      cases expectations with
      | nil => exact absurd rfl splits.nonempty
      | cons first rest =>
          exact ⟨⟨leading, inOrder (first :: rest), body, first.statement⟩,
            (planned_iff _).mpr ⟨first, rest, finds, rfl⟩⟩
  have used_iff : (∃ statement ∈ bodyStatements decl,
      IsRuleCall rule statement ∨ rule ∈ statement.references) ↔
      scanMethod rule decl ≠ .ok none := by
    rw [Ne, unused_iff]
    simp only [not_forall, not_and_or, not_not, exists_prop]
  refine ⟨unused_iff, exists_iff, ?_, fun plan planned => ?_⟩
  · rw [used_iff, ← exists_iff]
    cases scanMethod rule decl with
    | error use => simp
    | ok plan => cases plan <;> simp
  · obtain ⟨first, rest, finds, plan_eq⟩ := (planned_iff plan).mp planned
    refine ⟨_, finds.splits (List.cons_ne_nil first rest), ?_⟩
    rw [plan_eq]
    exact describes_of_isStated finds.stated finds.distinct

end ExpectedException

end JupiterMigration
