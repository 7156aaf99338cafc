import JupiterMigration.Proofs.Collection.OwnFacts

/-!
# Where the parameters of a plan come from

A plan is made from the facts of the class it is for.  Its parameters are those of a constructor of
the class, which then becomes the initializer, or stand for fields of the class, which a new
initializer assigns in order (`ClassPlan.receives_of_ofClass`).  A parameter of a constructor is
planned without its modifiers, which end at the first closing parenthesis (`modifiers_cut_short`).
-/

namespace JupiterMigration

namespace Parameterized

/-! ## The facts that members amount to -/

/-- The constructor and the fields that facts name are among the members of a class. -/
structure Facts.AreOf (members : List Member) (facts : Facts) : Prop where
  constructor : ∀ decl, facts.constructor = some decl → .method decl ∈ members
  fields : ∀ parameter ∈ facts.fields, .field parameter.field ∈ members

variable {members : List Member} {facts : Facts} {scope : TypeScope}

theorem FieldParameter.mem_insert
    {parameter other : FieldParameter}
    {parameters : List FieldParameter} :
    other ∈ insert parameter parameters ↔ other = parameter ∨ other ∈ parameters := by
  induction parameters with
  | nil => simp [insert]
  | cons first rest inductionHypothesis =>
      rw [insert]
      split
      · simp
      · simp only [List.mem_cons, inductionHypothesis]
        exact or_left_comm

/-- Only a field is observed as one. -/
theorem Observation.of_field
    {member : Member}
    {position : Int}
    {decl : Field}
    (observed : ofMember? scope member = some (.field position decl)) : member = .field decl := by
  cases member with
  | method other =>
      simp only [ofMember?] at observed
      split at observed
      · cases observed
      · obtain ⟨mark, -, same⟩ := Option.map_eq_some_iff.mp observed
        cases same
  | field other =>
      obtain ⟨mark, -, same⟩ := Option.map_eq_some_iff.mp observed
      unfold ofMarkedField at same
      split at same
      · cases same
        rfl
      · split at same <;> cases same
        rfl
  | importDecl _ | verbatim _ | classDecl _ _ => cases observed

/-- Recording what a member of a class says. -/
theorem Observation.areOf_record
    {member : Member}
    {observation : Observation}
    (inside : member ∈ members)
    (observed : ofMember? scope member = some observation)
    (areOf : facts.AreOf members) : (observation.record facts).AreOf members := by
  cases observation with
  | factory decl mark =>
      rw [record, Facts.recordFactory]
      split <;> exact ⟨areOf.constructor, areOf.fields⟩
  | constructor decl delegating =>
      obtain ⟨rfl, -⟩ := of_constructor observed
      rw [record, Facts.recordConstructor]
      dsimp only
      split
      · exact ⟨areOf.constructor, areOf.fields⟩
      · refine ⟨fun other named => ?_, areOf.fields⟩
        cases named
        exact inside
  | field position decl =>
      obtain rfl := of_field observed
      rw [record, Facts.recordField]
      split
      · exact ⟨areOf.constructor, areOf.fields⟩
      · refine ⟨areOf.constructor, fun parameter among => ?_⟩
        cases FieldParameter.mem_insert.mp among with
        | inl new =>
            rw [new]
            exact inside
        | inr old => exact areOf.fields parameter old
  | malformed note => exact ⟨areOf.constructor, areOf.fields⟩

theorem Facts.areOf_foldl
    {observations : List Observation}
    (observed : ∀ observation ∈ observations, ∃ member ∈ members,
      Observation.ofMember? scope member = some observation)
    (areOf : facts.AreOf members) :
    (observations.foldl (fun facts observation => observation.record facts) facts).AreOf
      members := by
  induction observations generalizing facts with
  | nil => exact areOf
  | cons first rest inductionHypothesis =>
      obtain ⟨⟨member, inside, isFirst⟩, later⟩ := List.forall_mem_cons.mp observed
      exact inductionHypothesis later (Observation.areOf_record inside isFirst areOf)

theorem Facts.className_foldl (observations : List Observation) (facts : Facts) :
    (observations.foldl (fun facts observation => observation.record facts) facts).className =
      facts.className := by
  induction observations generalizing facts with
  | nil => rfl
  | cons first rest inductionHypothesis =>
      rw [List.foldl_cons, inductionHypothesis, first.className_record]

theorem Facts.areOf_ofClass
    {decl : ClassDecl}
    (found : ofClass scope decl = some facts) :
    facts.AreOf decl.members ∧ facts.className = decl.name := by
  unfold ofClass at found
  dsimp only at found
  split at found
  · cases found
  · cases found
    constructor
    · have observed : ∀ observation ∈ decl.members.filterMap (Observation.ofMember? scope),
          ∃ member ∈ decl.members, Observation.ofMember? scope member = some observation :=
        fun _ among => List.mem_filterMap.mp among
      refine areOf_foldl observed ⟨fun _ named => ?_, fun _ among => ?_⟩
      · cases named
      · cases among
    · exact className_foldl _ _

/-! ## The plan that facts lead to -/

/-- A planned parameter stands for a field with one variable. -/
structure PlannedParameter.IsFor (parameter : PlannedParameter) (field : Field) : Prop where
  single : field.variableCount = 1
  name : parameter.name = field.name
  type : parameter.type = field.type
  node : parameter.node = bareParameter field.type field.name ""

/-- How the parameters of a plan reach the class it is for. -/
inductive ClassPlan.Receives (decl : ClassDecl) (plan : ClassPlan) : Prop
  /-- A constructor becomes the initializer. -/
  | constructor (constructor : Method)
      (own : .method constructor ∈ decl.members)
      (planned : plan.constructorId = some constructor.id)
      (parameters : plan.parameters = constructor.parameters.mapIdx PlannedParameter.ofParameter)
      (converted : plan.newInitializer = none) :
      Receives decl plan
  /-- A new initializer assigns fields. -/
  | fields
      (noConstructor : plan.constructorId = none)
      (parameters : ∀ parameter ∈ plan.parameters, ∃ field, .field field ∈ decl.members ∧
        parameter.IsFor field)
      (assigns : plan.newInitializer = some (plan.parameters.map assignment)) :
      Receives decl plan

/-- The planned parameters have the names of the parameters of the constructor. -/
theorem PlannedParameter.map_name_ofParameter (parameters : List Parameter) :
    (parameters.mapIdx ofParameter).map (·.name) = parameters.map (·.name) := by
  apply List.ext_getElem?
  intro i
  rw [List.getElem?_map, List.getElem?_mapIdx, List.getElem?_map, Option.map_map]
  rfl

/-- The methods and constructors of the classes in a source. -/
def methodsOf (source : String) : List Method :=
  match SourceUnit.parse source none 1 with
  | .ok (unit, _) => unit.classes.flatMap fun decl => decl.members.filterMap Member.method?
  | .error _ => []

/-- A constructor whose parameter is annotated with a text that has a parenthesis in it. -/
def closedEarly : String := "class A \x7b A(@B(\"(a) b\") int x) \x7b \x7d \x7d"

/-- The planned parameter begins within the annotation, and its text is no longer Java. -/
theorem modifiers_cut_short :
    ∃ constructor ∈ methodsOf closedEarly, constructor.returnType = none ∧
      ∃ parameter ∈ constructor.parameters, parameter.text = "@B(\"(a) b\") int x" ∧
        parameter.type = "int" ∧ parameter.name = "x" ∧
        (PlannedParameter.ofParameter 0 parameter).node.text = "b\") int x" ∧
        Java.Token.scan "b\") int x" = none := by
  decide +kernel

theorem PlannedParameter.isFor_of_ofField
    {source : FieldParameter}
    {parameter : PlannedParameter}
    (planned : ofField source = .ok parameter) : parameter.IsFor source.field := by
  unfold ofField at planned
  dsimp only at planned
  split at planned
  · cases planned
  · next single =>
      split at planned
      · cases planned
      · cases planned
        exact ⟨by simpa using single, rfl, rfl, rfl⟩

theorem PlannedParameter.forall₂_of_mapM
    {sources : List FieldParameter}
    {parameters : List PlannedParameter}
    (planned : sources.mapM ofField = .ok parameters) :
    List.Forall₂ (fun source parameter => ofField source = .ok parameter) sources parameters := by
  induction sources generalizing parameters with
  | nil =>
      cases planned
      exact .nil
  | cons first rest inductionHypothesis =>
      rw [List.mapM_cons] at planned
      cases head_eq : ofField first with
      | error violation =>
          rw [head_eq] at planned
          cases planned
      | ok head =>
          cases tail_eq : rest.mapM ofField with
          | error violation =>
              rw [head_eq, tail_eq] at planned
              cases planned
          | ok tail =>
              rw [head_eq, tail_eq] at planned
              cases planned
              exact .cons head_eq (inductionHypothesis tail_eq)

/-- Facts whose constructor receives the arguments name one with parameters. -/
theorem Facts.constructor_of_mode
    (mode_eq : facts.mode = .constructor) :
    ∃ decl, facts.constructor = some decl ∧ facts.constructorParameters = decl.parameters ∧
      decl.parameters ≠ [] := by
  unfold mode at mode_eq
  split at mode_eq
  · next some =>
      unfold constructorParameters at some ⊢
      cases constructor_eq : facts.constructor with
      | none =>
          rw [constructor_eq] at some
          cases some
      | some decl =>
          rw [constructor_eq] at some
          exact ⟨decl, rfl, rfl, by simpa using some⟩
  · split at mode_eq <;> cases mode_eq

theorem Facts.fields_of_mode (mode_eq : facts.mode = .field) : facts.fields ≠ [] := by
  unfold mode at mode_eq
  split at mode_eq
  · cases mode_eq
  · split at mode_eq
    · next some => simpa using some
    · cases mode_eq

/-- The parameters of a plan come from the class that the facts are of. -/
theorem ClassPlan.receives_of_classPlan
    {decl : ClassDecl}
    {plan : ClassPlan}
    (areOf : facts.AreOf decl.members)
    (planned : classPlan facts = .ok (some plan)) :
    plan.parameters ≠ [] ∧ plan.Receives decl := by
  unfold classPlan at planned
  split at planned
  · cases planned
  · split at planned
    · cases planned
    · split at planned
      · cases planned
      · unfold planWith at planned
        split at planned
        · next mode_eq =>
            cases planned
            obtain ⟨constructor, constructor_eq, parameters_eq, nonempty⟩ :=
              Facts.constructor_of_mode mode_eq
            rw [← parameters_eq] at nonempty
            refine ⟨by simpa [basePlan] using nonempty, ?_⟩
            refine .constructor constructor (areOf.constructor constructor constructor_eq) ?_ ?_ rfl
            · simp [constructor_eq]
            · simp [basePlan, parameters_eq]
        · next mode_eq =>
            have nonempty := Facts.fields_of_mode mode_eq
            cases parameters_eq : facts.fields.mapM PlannedParameter.ofField with
            | error violation =>
                rw [parameters_eq] at planned
                cases planned
            | ok parameters =>
                rw [parameters_eq] at planned
                cases planned
                have each := PlannedParameter.forall₂_of_mapM parameters_eq
                constructor
                · intro none
                  rw [show parameters = [] from none] at each
                  exact nonempty (List.forall₂_nil_right_iff.mp each)
                · refine .fields rfl (fun parameter among => ?_) rfl
                  obtain ⟨source, inside, isPlanned⟩ := exists_of_forall₂ each among
                  exact ⟨source.field, areOf.fields source inside,
                    PlannedParameter.isFor_of_ofField isPlanned⟩
        · cases planned

/-- The plan for a class is made from the facts of the class. -/
theorem ClassPlan.classPlan_of_ofClass
    {decl : ClassDecl}
    {plan : ClassPlan}
    (planned : ofClass scope decl = some plan) :
    ∃ facts, Facts.ofClass scope decl = some facts ∧ classPlan facts = .ok (some plan) := by
  unfold ofClass at planned
  split at planned
  · cases facts_eq : Facts.ofClass scope decl with
    | none =>
        rw [facts_eq] at planned
        cases planned
    | some facts =>
        refine ⟨facts, rfl, ?_⟩
        rw [facts_eq, Option.map_some] at planned
        cases classPlan_eq : classPlan facts with
        | error violation =>
            rw [classPlan_eq] at planned
            cases planned
        | ok plan? =>
            rw [classPlan_eq] at planned
            cases planned
            rfl
  · cases planned

/--
The plan for a class has parameters, which come from the class, and its initializer is called after
the class.
-/
theorem ClassPlan.receives_of_ofClass
    {decl : ClassDecl}
    {plan : ClassPlan}
    (planned : ofClass scope decl = some plan) :
    plan.initializerName = "init" ++ decl.name ∧ plan.parameters ≠ [] ∧ plan.Receives decl := by
  obtain ⟨facts, facts_eq, classPlan_eq⟩ := classPlan_of_ofClass planned
  obtain ⟨areOf, className_eq⟩ := Facts.areOf_ofClass facts_eq
  have named := (of_classPlan classPlan_eq).1
  rw [className_eq] at named
  exact ⟨named, receives_of_classPlan areOf classPlan_eq⟩

end Parameterized

end JupiterMigration
