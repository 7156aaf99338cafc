import JupiterMigration.Proofs.Initialization.Plan

/-!
# In which order fields receive arguments

Fields that receive arguments are told apart by their positions.  Those that are recorded are kept
ascending (`Facts.fields_of_observations`), so that only their positions decide in which order a
plan has them, and not when they were recorded; two fields for one position rule a plan out
(`classPlan_of_shared`).  Together these make up `plans_by_position`.
-/

namespace JupiterMigration

namespace Parameterized

/-! ## Fields that ascend by position -/

namespace FieldParameter

variable {first second parameter : FieldParameter} {parameters others : List FieldParameter}

/-- The positions of some fields ascend, so that no two fields share one. -/
def Ascending (parameters : List FieldParameter) : Prop :=
  parameters.Pairwise fun earlier later => earlier.position < later.position

theorem perm_insert (parameter : FieldParameter) (parameters : List FieldParameter) :
    (insert parameter parameters).Perm (parameter :: parameters) := by
  induction parameters with
  | nil => exact .refl _
  | cons first rest inductionHypothesis =>
      rw [insert]
      split
      · exact .refl _
      · exact (inductionHypothesis.cons first).trans (.swap parameter first rest)

theorem Ascending.insert
    (ascending : Ascending parameters)
    (isNew : ∀ other ∈ parameters, other.position ≠ parameter.position) :
    Ascending (insert parameter parameters) := by
  induction parameters with
  | nil => exact List.pairwise_singleton _ _
  | cons first rest inductionHypothesis =>
      obtain ⟨firstIsLeast, restAscending⟩ := List.pairwise_cons.mp ascending
      obtain ⟨firstDiffers, restDiffer⟩ := List.forall_mem_cons.mp isNew
      rw [FieldParameter.insert]
      split
      · next isLeast =>
          refine List.pairwise_cons.mpr ⟨List.forall_mem_cons.mpr ⟨isLeast, ?_⟩, ascending⟩
          exact fun other inside => Int.lt_trans isLeast (firstIsLeast other inside)
      · next notLeast =>
          refine List.pairwise_cons.mpr ⟨fun other inside => ?_,
            inductionHypothesis restAscending restDiffer⟩
          cases mem_insert.mp inside with
          | inl new => rw [new]; omega
          | inr old => exact firstIsLeast other old

/-- Fields for different positions get to the same places in either order. -/
theorem insert_comm_of_lt
    (lt : first.position < second.position)
    (parameters : List FieldParameter) :
    insert second (insert first parameters) = insert first (insert second parameters) := by
  have notBefore : ¬second.position < first.position := by omega
  induction parameters with
  | nil => simp only [insert, if_pos lt, if_neg notBefore]
  | cons other rest inductionHypothesis =>
      by_cases firstIsBefore : first.position < other.position <;>
        by_cases secondIsBefore : second.position < other.position
      · simp only [insert, if_pos firstIsBefore, if_pos secondIsBefore, if_pos lt, if_neg notBefore]
      · simp only [insert, if_pos firstIsBefore, if_neg secondIsBefore, if_neg notBefore]
      · omega
      · simp only [insert, if_neg firstIsBefore, if_neg secondIsBefore, inductionHypothesis]

theorem insert_comm
    (differ : first.position ≠ second.position)
    (parameters : List FieldParameter) :
    insert second (insert first parameters) = insert first (insert second parameters) := by
  rcases Int.lt_or_gt_of_ne differ with lt | gt
  · exact insert_comm_of_lt lt parameters
  · exact (insert_comm_of_lt gt parameters).symm

/-- Some fields put at their places one after the other. -/
def insertAll (parameters recorded : List FieldParameter) : List FieldParameter :=
  recorded.foldl (fun parameters parameter => insert parameter parameters) parameters

theorem perm_insertAll (parameters recorded : List FieldParameter) :
    (insertAll parameters recorded).Perm (parameters ++ recorded) := by
  induction recorded generalizing parameters with
  | nil => simp [insertAll]
  | cons first rest inductionHypothesis =>
      refine (inductionHypothesis (insert first parameters)).trans ?_
      exact ((perm_insert first parameters).append_right rest).trans List.perm_middle.symm

/-- The first of further fields for different positions, and what is left of them. -/
theorem distinct_insert
    (distinct : ((parameters ++ first :: others).map (·.position)).Nodup) :
    (∀ other ∈ parameters, other.position ≠ first.position) ∧
      ((insert first parameters ++ others).map (·.position)).Nodup := by
  have front : ((parameters ++ first :: others).map (·.position)).Perm
      (first.position :: (parameters ++ others).map (·.position)) :=
    List.perm_middle.map _
  have reordered : ((insert first parameters ++ others).map (·.position)).Perm
      (first.position :: (parameters ++ others).map (·.position)) :=
    ((perm_insert first parameters).append_right others).map _
  have nodup := front.nodup_iff.mp distinct
  refine ⟨fun other inside same => (List.nodup_cons.mp nodup).1 ?_, reordered.nodup_iff.mpr nodup⟩
  exact List.mem_map.mpr ⟨other, List.mem_append_left others inside, same⟩

theorem Ascending.insertAll
    (ascending : Ascending parameters)
    (distinct : ((parameters ++ others).map (·.position)).Nodup) :
    Ascending (insertAll parameters others) := by
  induction others generalizing parameters with
  | nil => exact ascending
  | cons first rest inductionHypothesis =>
      obtain ⟨isNew, stillDistinct⟩ := distinct_insert distinct
      exact inductionHypothesis (ascending.insert isNew) stillDistinct

/-- It does not matter in which order fields for different positions are put at their places. -/
theorem insertAll_of_perm
    (perm : parameters.Perm others)
    (distinct : (parameters.map (·.position)).Nodup) :
    insertAll [] parameters = insertAll [] others := by
  refine perm.foldl_eq' (fun first isFirst second isSecond placed => ?_) []
  by_cases same : first.position = second.position
  · rw [List.inj_on_of_nodup_map distinct isFirst isSecond same]
  · exact insert_comm same placed

end FieldParameter

/-! ## What observations amount to -/

/-- The field for a position that an observation is about. -/
def Observation.fieldParameter? : Observation → Option FieldParameter
  | field position decl => some ⟨position, decl⟩
  | _ => none

/-- The fields for positions among some observations. -/
def fieldParameters (observations : List Observation) : List FieldParameter :=
  observations.filterMap Observation.fieldParameter?

/-- The observations that are about no field for a position. -/
def otherObservations (observations : List Observation) : List Observation :=
  observations.filter (·.fieldParameter?.isNone)

/-- The facts that some observations of a class amount to. -/
def Facts.ofObservations (className : String) (observations : List Observation) : Facts :=
  observations.foldl (fun facts observation => observation.record facts) (.empty className)

variable {facts : Facts} {observations reordered : List Observation} {className : String}

/-- What has been rejected stays so. -/
theorem Observation.rejections_record (observation : Observation) (facts : Facts) :
    facts.rejections <+: (observation.record facts).rejections := by
  cases observation with
  | factory method mark =>
      rw [record, Facts.recordFactory]
      split <;> exact List.prefix_refl _
  | constructor method delegating =>
      rw [record, Facts.recordConstructor]
      dsimp only
      split <;> exact List.prefix_append _ _
  | field position decl =>
      rw [record, Facts.recordField]
      split
      · exact List.prefix_append _ _
      · exact List.prefix_refl _
  | malformed note => exact List.prefix_refl _

/-- What is only added to by one observation is only added to by several. -/
theorem prefix_foldl
    {view : Facts → List String}
    (grows : ∀ (observation : Observation) facts, view facts <+: view (observation.record facts))
    (observations : List Observation)
    (facts : Facts) :
    view facts <+:
      view (observations.foldl (fun facts observation => observation.record facts) facts) := by
  induction observations generalizing facts with
  | nil => exact List.prefix_refl _
  | cons first rest inductionHypothesis =>
      exact (grows first facts).trans (inductionHypothesis (first.record facts))

theorem rejections_foldl (observations : List Observation) (facts : Facts) :
    facts.rejections <+:
      (observations.foldl (fun facts observation => observation.record facts) facts).rejections :=
  prefix_foldl Observation.rejections_record observations facts

/-- Only observations of fields look at the fields recorded so far, or change them. -/
theorem Observation.record_withFields
    {observation : Observation}
    (isOther : observation.fieldParameter? = none)
    (fields : List FieldParameter)
    (facts : Facts) :
    (observation.record facts).fields = facts.fields ∧
      observation.record { facts with fields } = { observation.record facts with fields } := by
  cases observation with
  | factory method mark =>
      simp only [record, Facts.recordFactory]
      split <;> exact ⟨rfl, rfl⟩
  | constructor method delegating =>
      simp only [record, Facts.recordConstructor]
      split <;> exact ⟨rfl, rfl⟩
  | field position decl => cases isOther
  | malformed note => exact ⟨rfl, rfl⟩

theorem foldl_record_withFields
    (areOther : ∀ observation ∈ observations, observation.fieldParameter? = none)
    (fields : List FieldParameter)
    (facts : Facts) :
    observations.foldl (fun facts observation => observation.record facts) { facts with fields } =
      { observations.foldl (fun facts observation => observation.record facts) facts with
        fields } := by
  induction observations generalizing facts with
  | nil => rfl
  | cons first rest inductionHypothesis =>
      rw [List.forall_mem_cons] at areOther
      rw [List.foldl_cons, List.foldl_cons, (first.record_withFields areOther.1 fields facts).2,
        inductionHypothesis areOther.2]

theorem otherObservations_areOther (observations : List Observation) :
    ∀ observation ∈ otherObservations observations, observation.fieldParameter? = none :=
  fun _ inside => Option.isNone_iff_eq_none.mp (List.mem_filter.mp inside).2

theorem Facts.recordField_of_isNew
    {position : Int}
    (decl : Field)
    (isNew : ∀ other ∈ facts.fields, other.position ≠ position) :
    recordField position decl facts =
      { facts with fields := FieldParameter.insert ⟨position, decl⟩ facts.fields } := by
  have notFound : facts.fields.find? (·.position == position) = none := by
    rw [List.find?_eq_none]
    intro other inside same
    exact isNew other inside (beq_iff_eq.mp same)
  rw [recordField, notFound]

/-- A field for a position that another field has leads to a rejection. -/
theorem Facts.rejections_recordField
    {position : Int}
    {other : FieldParameter}
    (decl : Field)
    (inside : other ∈ facts.fields)
    (same : other.position = position) : (recordField position decl facts).rejections ≠ [] := by
  cases found : facts.fields.find? (·.position == position) with
  | none => exact absurd (beq_iff_eq.mpr same) (List.find?_eq_none.mp found other inside)
  | some first =>
      rw [recordField, found]
      exact List.append_ne_nil_of_right_ne_nil _ (List.cons_ne_nil _ _)

/-- Fields for different positions are all recorded, apart from the other observations. -/
theorem foldl_record_of_distinct
    (distinct : ((facts.fields ++ fieldParameters observations).map (·.position)).Nodup) :
    observations.foldl (fun facts observation => observation.record facts) facts =
      { (otherObservations observations).foldl (fun facts observation => observation.record facts)
          facts with
        fields := FieldParameter.insertAll facts.fields (fieldParameters observations) } := by
  induction observations generalizing facts with
  | nil => rfl
  | cons first rest inductionHypothesis =>
      cases isField : first.fieldParameter? with
      | none =>
          have inFields : fieldParameters (first :: rest) = fieldParameters rest :=
            List.filterMap_cons_none isField
          have isOther : otherObservations (first :: rest) = first :: otherObservations rest :=
            List.filter_cons_of_pos (by rw [isField]; rfl)
          have fields_eq := (first.record_withFields isField [] facts).1
          rw [inFields, ← fields_eq] at distinct
          rw [inFields, isOther, List.foldl_cons, List.foldl_cons, inductionHypothesis distinct,
            fields_eq]
      | some parameter =>
          cases first with
          | field position decl =>
              have inFields : fieldParameters (.field position decl :: rest) =
                  ⟨position, decl⟩ :: fieldParameters rest := rfl
              rw [inFields] at distinct
              obtain ⟨isNew, stillDistinct⟩ := FieldParameter.distinct_insert distinct
              rw [List.foldl_cons, Observation.record, Facts.recordField_of_isNew decl isNew,
                inductionHypothesis stillDistinct,
                foldl_record_withFields (otherObservations_areOther rest)]
              rfl
          | _ => cases isField

/-- Observations of which two are about fields for the same position lead to a rejection. -/
theorem rejections_of_shared
    (ascending : FieldParameter.Ascending facts.fields)
    (shared : ¬((facts.fields ++ fieldParameters observations).map (·.position)).Nodup) :
    (observations.foldl (fun facts observation => observation.record facts) facts).rejections ≠
      [] := by
  induction observations generalizing facts with
  | nil =>
      refine absurd ?_ shared
      have distinct := ascending.imp fun {first second} => Int.ne_of_lt
      simpa [fieldParameters, List.Nodup, List.pairwise_map] using distinct
  | cons first rest inductionHypothesis =>
      rw [List.foldl_cons]
      cases isField : first.fieldParameter? with
      | none =>
          have fields_eq := (first.record_withFields isField [] facts).1
          rw [← fields_eq] at ascending shared
          refine inductionHypothesis ascending ?_
          rwa [fieldParameters, List.filterMap_cons_none isField] at shared
      | some parameter =>
          cases first with
          | field position decl =>
              by_cases isNew : ∀ other ∈ facts.fields, other.position ≠ position
              · rw [Observation.record, Facts.recordField_of_isNew decl isNew]
                have reordered := ((FieldParameter.perm_insert ⟨position, decl⟩
                  facts.fields).append_right (fieldParameters rest)).trans List.perm_middle.symm
                refine inductionHypothesis (ascending.insert isNew) fun distinct => shared ?_
                exact (reordered.map _).nodup_iff.mp distinct
              · push Not at isNew
                obtain ⟨other, inside, same⟩ := isNew
                have rejected := Facts.rejections_recordField decl inside same
                intro none
                refine rejected (List.prefix_nil.mp ?_)
                rw [← none]
                exact rejections_foldl rest _
          | _ => cases isField

/-! ## Plans -/

/-- The plan that some observations of a class lead to. -/
def planOf (className : String) (observations : List Observation) :
    Except PatternViolation (Option ClassPlan) :=
  classPlan (.ofObservations className observations)

/-- Observations of which two are about fields for the same position lead to no plan. -/
theorem planOf_of_shared
    (shared : ¬((fieldParameters observations).map (·.position)).Nodup) :
    planOf className observations = .ok none := by
  have rejected : (Facts.ofObservations className observations).rejections ≠ [] :=
    rejections_of_shared List.Pairwise.nil shared
  rw [planOf, classPlan, if_pos (by simpa using rejected)]

theorem Facts.ofObservations_of_distinct
    (distinct : ((fieldParameters observations).map (·.position)).Nodup) :
    ofObservations className observations =
      { ofObservations className (otherObservations observations) with
        fields := FieldParameter.insertAll [] (fieldParameters observations) } :=
  foldl_record_of_distinct distinct

/-- It does not matter when a field is recorded. -/
theorem planOf_of_reordered
    (perm : (fieldParameters observations).Perm (fieldParameters reordered))
    (others : otherObservations observations = otherObservations reordered) :
    planOf className reordered = planOf className observations := by
  have distinct_iff := (perm.map (·.position)).nodup_iff
  by_cases distinct : ((fieldParameters observations).map (·.position)).Nodup
  · rw [planOf, planOf, Facts.ofObservations_of_distinct distinct,
      Facts.ofObservations_of_distinct (distinct_iff.mp distinct), others,
      FieldParameter.insertAll_of_perm perm distinct]
  · rw [planOf_of_shared distinct, planOf_of_shared (mt distinct_iff.mpr distinct)]

/-- A class with a plan has not been rejected. -/
theorem rejections_of_classPlan
    {plan : ClassPlan}
    (planned : classPlan facts = .ok (some plan)) : facts.rejections = [] := by
  unfold classPlan at planned
  split at planned
  · cases planned
  · next accepted => simpa using accepted

/-- The plan of a class whose facts are neither rejected nor malformed. -/
theorem planWith_of_classPlan
    {plan : ClassPlan}
    (planned : classPlan facts = .ok (some plan)) :
    ∃ factory, planWith facts factory = .ok (some plan) := by
  unfold classPlan at planned
  split at planned
  · cases planned
  · split at planned
    · cases planned
    · split at planned
      · cases planned
      · exact ⟨_, planned⟩

/-! ## Plans that assign fields -/

/-- A plan has a parameter for each of some fields, by position, and assigns them in this order. -/
structure ClassPlan.ByPosition (recorded : List FieldParameter) (plan : ClassPlan) : Prop where
  ascending : (plan.parameters.map (·.position)).Pairwise (· < ·)
  parameters : (plan.parameters.map fun parameter =>
      (parameter.position, parameter.type, parameter.name)).Perm
    (recorded.map fun parameter => (parameter.position, parameter.field.type, parameter.field.name))
  fieldIds : plan.fieldIds.Perm (recorded.map (·.field.id))
  constructorId : plan.constructorId = none
  newInitializer : plan.newInitializer = some (plan.parameters.map fun parameter =>
    "this." ++ parameter.name ++ " = " ++ parameter.name ++ ";")

/-- What is told of a planned parameter is what is told of its field. -/
theorem PlannedParameter.view_of_mapM
    {sources : List FieldParameter}
    {parameters : List PlannedParameter}
    (planned : sources.mapM ofField = .ok parameters) :
    parameters.map (fun parameter => (parameter.position, parameter.type, parameter.name)) =
      sources.map fun source => (source.position, source.field.type, source.field.name) := by
  have each := forall₂_of_mapM planned
  clear planned
  induction each with
  | nil => rfl
  | @cons source parameter _ _ isPlanned _ inductionHypothesis =>
      rw [List.map_cons, List.map_cons, inductionHypothesis]
      congr 1
      unfold ofField at isPlanned
      dsimp only at isPlanned
      split at isPlanned
      · cases isPlanned
      · split at isPlanned <;> cases isPlanned
        rfl

/-- A plan for fields has what the facts say about the fields. -/
theorem fields_of_planWith
    {factory : Factory}
    {plan : ClassPlan}
    (planned : planWith facts factory = .ok (some plan))
    (mode_eq : facts.mode = .field) :
    plan.parameters.map (fun parameter => (parameter.position, parameter.type, parameter.name)) =
        facts.fields.map (fun source => (source.position, source.field.type, source.field.name)) ∧
      plan.fieldIds = facts.fields.map (·.field.id) ∧ plan.constructorId = none ∧
      plan.newInitializer = some (plan.parameters.map assignment) := by
  rw [planWith, mode_eq] at planned
  cases parameters_eq : facts.fields.mapM PlannedParameter.ofField with
  | error violation =>
      rw [parameters_eq] at planned
      cases planned
  | ok parameters =>
      rw [parameters_eq] at planned
      cases planned
      exact ⟨PlannedParameter.view_of_mapM parameters_eq, rfl, rfl, rfl⟩

theorem byPosition_of_planOf
    {plan : ClassPlan}
    (planned : planOf className observations = .ok (some plan))
    (mode_eq : (Facts.ofObservations className observations).mode = .field) :
    plan.ByPosition (fieldParameters observations) := by
  have distinct : ((fieldParameters observations).map (·.position)).Nodup := by
    by_contra shared
    rw [planOf_of_shared shared] at planned
    cases planned
  obtain ⟨factory, planned⟩ := planWith_of_classPlan planned
  obtain ⟨parameters_eq, fieldIds_eq, noConstructor, assigns⟩ := fields_of_planWith planned mode_eq
  have fields_eq : (Facts.ofObservations className observations).fields =
      FieldParameter.insertAll [] (fieldParameters observations) := by
    rw [Facts.ofObservations_of_distinct distinct]
  have perm := FieldParameter.perm_insertAll [] (fieldParameters observations)
  have ascending : FieldParameter.Ascending
      (FieldParameter.insertAll [] (fieldParameters observations)) :=
    FieldParameter.Ascending.insertAll List.Pairwise.nil distinct
  rw [fields_eq] at parameters_eq fieldIds_eq
  refine ⟨?_, parameters_eq ▸ perm.map _, fieldIds_eq ▸ perm.map _, noConstructor, assigns⟩
  have positions_eq := congrArg (List.map Prod.fst) parameters_eq
  rw [List.map_map, List.map_map] at positions_eq
  rw [show plan.parameters.map (·.position) = _ from positions_eq]
  exact List.pairwise_map.mpr ascending

/-! ## Plans that convert a constructor -/

/-- A constructor becomes the initializer of a plan, with its parameters as they are. -/
structure ClassPlan.ByConstructor (constructor : Method) (plan : ClassPlan) : Prop where
  parameters : plan.parameters.map (fun parameter => (parameter.type, parameter.name)) =
    constructor.parameters.map fun parameter => (parameter.type, parameter.name)
  positions : plan.parameters.map (·.position) =
    (List.range constructor.parameters.length).map Int.ofNat
  fieldIds : plan.fieldIds = []
  constructorId : plan.constructorId = some constructor.id
  newInitializer : plan.newInitializer = none

/-- Where nothing is rejected, there is no second constructor. -/
theorem constructor_of_counted
    (counted : 0 < facts.constructorCount)
    (accepted : (observations.foldl (fun facts observation => observation.record facts)
      facts).rejections = []) :
    (observations.foldl (fun facts observation => observation.record facts) facts).constructor =
      facts.constructor := by
  induction observations generalizing facts with
  | nil => rfl
  | cons first rest inductionHypothesis =>
      rw [List.foldl_cons] at accepted ⊢
      have stillAccepted : (first.record facts).rejections = [] := by
        have grows := rejections_foldl rest (first.record facts)
        rw [accepted] at grows
        exact List.prefix_nil.mp grows
      cases first with
      | factory method mark =>
          have counted_eq : (Facts.recordFactory method mark facts).constructorCount =
              facts.constructorCount := by
            unfold Facts.recordFactory
            split <;> rfl
          rw [← Facts.constructor_recordFactory method mark facts]
          exact inductionHypothesis (counted_eq ▸ counted) accepted
      | constructor method delegating =>
          rw [Observation.record, Facts.recordConstructor, if_pos counted] at stillAccepted
          exact absurd stillAccepted (List.append_ne_nil_of_right_ne_nil _ (List.cons_ne_nil _ _))
      | field position decl =>
          have counted_eq : (Facts.recordField position decl facts).constructorCount =
              facts.constructorCount := by
            unfold Facts.recordField
            split <;> rfl
          rw [← Facts.constructor_recordField position decl facts]
          exact inductionHypothesis (counted_eq ▸ counted) accepted
      | malformed note => exact inductionHypothesis counted accepted

/-- A constructor that has been observed is the one that counts, if nothing is rejected. -/
theorem constructor_of_observed
    {constructor : Method}
    {delegating : Bool}
    (observed : .constructor constructor delegating ∈ observations)
    (accepted : (observations.foldl (fun facts observation => observation.record facts)
      facts).rejections = []) :
    (observations.foldl (fun facts observation => observation.record facts) facts).constructor =
      some constructor := by
  induction observations generalizing facts with
  | nil => cases observed
  | cons first rest inductionHypothesis =>
      cases List.mem_cons.mp observed with
      | inr later => exact inductionHypothesis later accepted
      | inl same =>
          rw [List.foldl_cons, ← same] at accepted ⊢
          have isFirst : ¬0 < facts.constructorCount := by
            intro counted
            have grows := rejections_foldl rest
              (Observation.record (.constructor constructor delegating) facts)
            rw [accepted, Observation.record, Facts.recordConstructor, if_pos counted] at grows
            exact absurd (List.prefix_nil.mp grows)
              (List.append_ne_nil_of_right_ne_nil _ (List.cons_ne_nil _ _))
          have record_eq : Observation.record (.constructor constructor delegating) facts =
              _ := if_neg isFirst
          rw [constructor_of_counted ?_ accepted, record_eq]
          rw [record_eq]
          exact Nat.succ_pos _

theorem byConstructor_of_planOf
    {plan : ClassPlan}
    {constructor : Method}
    {delegating : Bool}
    (planned : planOf className observations = .ok (some plan))
    (observed : .constructor constructor delegating ∈ observations)
    (nonempty : constructor.parameters ≠ []) :
    (Facts.ofObservations className observations).mode = .constructor ∧
      plan.ByConstructor constructor := by
  have constructor_eq : (Facts.ofObservations className observations).constructor =
      some constructor :=
    constructor_of_observed observed (rejections_of_classPlan planned)
  have parameters_eq : (Facts.ofObservations className observations).constructorParameters =
      constructor.parameters := by
    rw [Facts.constructorParameters, constructor_eq]
    rfl
  have mode_eq : (Facts.ofObservations className observations).mode = .constructor := by
    rw [Facts.mode, parameters_eq]
    exact if_pos (by simpa using nonempty)
  obtain ⟨factory, planned⟩ := planWith_of_classPlan planned
  rw [planWith, mode_eq, parameters_eq, constructor_eq] at planned
  cases planned
  refine ⟨mode_eq, ?_, ?_, rfl, rfl, rfl⟩
  · apply List.ext_getElem?
    intro i
    simp [basePlan, PlannedParameter.ofParameter, Function.comp_def]
  · apply List.ext_getElem
    · simp [basePlan]
    · intro i inside isListed
      simp [basePlan, PlannedParameter.ofParameter]

/-! ## The order of fields -/

/--
Only the positions of fields decide in which order a plan has them.  Fields may be recorded in any
order, before and after the other observations of a class; two fields for one position rule a plan
out; and a constructor with parameters counts before all fields.
-/
theorem plans_by_position (className : String) (observations : List Observation) :
    (∀ reordered, (fieldParameters observations).Perm (fieldParameters reordered) →
        otherObservations observations = otherObservations reordered →
          planOf className reordered = planOf className observations) ∧
      (¬((fieldParameters observations).map (·.position)).Nodup →
        planOf className observations = .ok none) ∧
      ∀ plan, planOf className observations = .ok (some plan) →
        ((Facts.ofObservations className observations).mode = .field →
          plan.ByPosition (fieldParameters observations)) ∧
        ∀ constructor delegating, .constructor constructor delegating ∈ observations →
          constructor.parameters ≠ [] →
            (Facts.ofObservations className observations).mode = .constructor ∧
              plan.ByConstructor constructor := by
  refine ⟨fun reordered perm others => planOf_of_reordered perm others, planOf_of_shared, ?_⟩
  intro plan planned
  refine ⟨byPosition_of_planOf planned, fun constructor delegating observed nonempty => ?_⟩
  exact byConstructor_of_planOf planned observed nonempty

/-- A field with one variable of type `int`. -/
def intField (id : Nat) (name : String) : Field :=
  ⟨id, "\n", [], "", "int " ++ name ++ ";", "int", name, [], 1, [name]⟩

/-- A method without parameters that makes the arguments. -/
def tableMethod : Method :=
  ⟨3, "\n", [], "", "static ", some "Object", " ", "table", "", [], "", "", none, ["table"]⟩

/-- The annotation of the method that makes the arguments. -/
def tableMark : Annotation := ⟨4, "", "@Parameters", "Parameters", [], ["Parameters"]⟩

/-- A constructor with one parameter. -/
def sizeConstructor : Method :=
  ⟨5, "\n", [], "", "", none, " ", "A", "", [⟨6, "", "int size", "int", "size", "", ["size"]⟩], "",
    "", none, ["A", "size"]⟩

/-- Two fields with the positions in the other order than the fields, and what makes arguments. -/
def swappedFields : List Observation :=
  [.field 7 (intField 1 "x"), .factory tableMethod tableMark, .field 2 (intField 2 "y")]

theorem plans_by_position_swappedFields :
    planOf "A" swappedFields.reverse = planOf "A" swappedFields ∧
      (∃ plan, planOf "A" swappedFields = .ok (some plan) ∧
        plan.ByPosition (fieldParameters swappedFields)) ∧
      planOf "A" (swappedFields ++ swappedFields) = .ok none ∧
      ∃ plan, planOf "A" (swappedFields ++ [.constructor sizeConstructor false]) = .ok (some plan) ∧
        plan.ByConstructor sizeConstructor := by
  have perm : (fieldParameters swappedFields).Perm (fieldParameters swappedFields.reverse) :=
    List.Perm.swap _ _ []
  refine ⟨(plans_by_position "A" swappedFields).1 _ perm rfl, ?_, ?_, ?_⟩
  · exact ⟨_, rfl, ((plans_by_position "A" swappedFields).2.2 _ rfl).1 rfl⟩
  · exact (plans_by_position "A" (swappedFields ++ swappedFields)).2.1 (by decide)
  · have planned := plans_by_position "A" (swappedFields ++ [.constructor sizeConstructor false])
    have observed : Observation.constructor sizeConstructor false ∈
        swappedFields ++ [.constructor sizeConstructor false] :=
      List.mem_append_right _ (List.mem_singleton_self _)
    exact ⟨_, rfl, ((planned.2.2 _ rfl).2 sizeConstructor false observed (List.cons_ne_nil _ _)).2⟩

end Parameterized

end JupiterMigration
