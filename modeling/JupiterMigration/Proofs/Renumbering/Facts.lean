import JupiterMigration.Parameterized.Recipe
import JupiterMigration.Proofs.Renumbering.Stages

/-!
# Facts about parameterized classes in two runs

The members of a class with other numbers say the same about it, apart from the numbers
(`Parameterized.Observation.ofMember?_renumbered`), and lead to the same plan
(`Parameterized.classPlan_renumbered`).  What is known of a class is found by its new number
(`Parameterized.FactBoard.facts?_renumbered`).
-/

namespace JupiterMigration

namespace Parameterized

variable (number : Nat → Nat)

/-! ## Facts and plans with other numbers -/

/-- The factory with another number at its mark. -/
def Factory.renumbered (factory : Factory) : Factory :=
  { factory with mark := factory.mark.renumbered number }

/-- The field for a position with other numbers in it. -/
def FieldParameter.renumbered (parameter : FieldParameter) : FieldParameter :=
  { parameter with field := parameter.field.renumbered number }

/-- The facts with other numbers in them. -/
def Facts.renumbered (facts : Facts) : Facts :=
  { facts with
    factory := facts.factory.map (Factory.renumbered number)
    constructor := facts.constructor.map (Method.renumbered number)
    fields := facts.fields.map (FieldParameter.renumbered number) }

/-- The board with other numbers of classes, and other numbers in the facts. -/
def FactBoard.renumbered (board : FactBoard) : FactBoard where
  entries := board.entries.map fun entry => (number entry.1, entry.2.renumbered number)

/-- The planned parameter with another number. -/
def PlannedParameter.renumbered (parameter : PlannedParameter) : PlannedParameter :=
  { parameter with node := parameter.node.renumbered number }

/-- The plan of a class with other numbers in it. -/
def ClassPlan.renumbered (plan : ClassPlan) : ClassPlan :=
  { plan with
    parameters := plan.parameters.map (PlannedParameter.renumbered number)
    constructorId := plan.constructorId.map number
    fieldIds := plan.fieldIds.map number }

/-- The observation of a member with other numbers in it. -/
def Observation.renumbered : Observation → Observation
  | factory method mark => factory (method.renumbered number) (mark.renumbered number)
  | constructor method delegating => constructor (method.renumbered number) delegating
  | field position decl => field position (decl.renumbered number)
  | malformed note => malformed note

/-- The collection with other numbers in it. -/
def Collection.renumbered (collection : Collection) : Collection where
  board := collection.board.renumbered number
  plans := collection.plans.map fun entry => (number entry.1, entry.2.renumbered number)

/-! ## Observations -/

namespace Observation

theorem delegates_renumbered (method : Method) :
    delegates (method.renumbered number) = delegates method := by
  unfold delegates Method.renumbered
  cases method.body with
  | none => rfl
  | some block =>
      dsimp only [Option.map_some, Option.getD_some]
      unfold Block.renumbered
      rw [List.any_map]
      rfl

theorem ofMarkedField_renumbered (field : Field) (mark : Annotation) :
    ofMarkedField (field.renumbered number) (mark.renumbered number) =
      (ofMarkedField field mark).renumbered number := by
  have element_eq : (mark.renumbered number).element? "value" = mark.element? "value" := rfl
  unfold ofMarkedField
  rw [element_eq]
  cases mark.element? "value" with
  | none => rfl
  | some value =>
      dsimp only
      cases value.form <;> rfl

/-- What a member says is the same, whatever the numbers are. -/
theorem ofMember?_renumbered (scope : TypeScope) (member : Member) :
    ofMember? scope (member.renumbered number) =
      (ofMember? scope member).map (renumbered number) := by
  cases member with
  | method decl =>
      have isConstructor_eq : (decl.renumbered number).isConstructor = decl.isConstructor := rfl
      have found := Marker.find?_renumbered number [.parameters] scope decl.annotations
      rw [Member.renumbered, ofMember?, ofMember?, isConstructor_eq, delegates_renumbered]
      split
      · rfl
      · rw [Method.renumbered, found]
        cases Marker.find? [.parameters] scope decl.annotations <;> rfl
  | field decl =>
      have found := Marker.find?_renumbered number [.parameter] scope decl.annotations
      rw [Member.renumbered, ofMember?, ofMember?]
      have annotations_eq : (decl.renumbered number).annotations =
          decl.annotations.map ( Annotation.renumbered number) := rfl
      rw [annotations_eq, found]
      cases Marker.find? [.parameter] scope decl.annotations with
      | none => rfl
      | some mark => exact congrArg some (ofMarkedField_renumbered number decl mark)
  | importDecl _ | verbatim _ | classDecl _ _ => rfl

end Observation

theorem FieldParameter.insert_renumbered
    (parameter : FieldParameter)
    (fields : List FieldParameter) :
    (parameter.renumbered number).insert (fields.map (renumbered number)) =
      (parameter.insert fields).map (renumbered number) := by
  induction fields with
  | nil => rfl
  | cons first rest inductionHypothesis =>
      have position_eq (field : FieldParameter) : (field.renumbered number).position =
          field.position := rfl
      rw [List.map_cons, insert, insert, position_eq, position_eq, inductionHypothesis]
      split <;> rfl

/-- What is observed is recorded in the same way, whatever the numbers are. -/
theorem Observation.record_renumbered (observation : Observation) (facts : Facts) :
    (observation.renumbered number).record (facts.renumbered number) =
      (observation.record facts).renumbered number := by
  cases observation with
  | factory method mark =>
      simp only [renumbered, record, Facts.recordFactory, Facts.renumbered]
      cases facts.factory <;> rfl
  | constructor method delegating =>
      have count_eq : (facts.renumbered number).constructorCount = facts.constructorCount := rfl
      rw [renumbered, record, record, Facts.recordConstructor, Facts.recordConstructor, count_eq]
      dsimp only
      by_cases counted : 0 < facts.constructorCount
      · rw [if_pos counted, if_pos counted]
        rfl
      · rw [if_neg counted, if_neg counted]
        rfl
  | field position decl =>
      have found : (facts.renumbered number).fields.find? (·.position == position) =
          (facts.fields.find? (·.position == position)).map (FieldParameter.renumbered number) :=
        List.find?_map
      rw [renumbered, record, record, Facts.recordField, Facts.recordField, found]
      cases facts.fields.find? (·.position == position) with
      | some other => rfl
      | none =>
          exact congrArg (fun fields => { facts.renumbered number with fields })
            (FieldParameter.insert_renumbered number ⟨position, decl⟩ facts.fields)
  | malformed note => rfl

/-! ## The board -/

namespace FactBoard

variable {number} (injective : Function.Injective number) (head : ClassHead) (board : FactBoard)
include injective

/-- The facts about a class are found by its new number. -/
theorem facts?_renumbered :
    (board.renumbered number).facts? (head.renumbered number) =
      (board.facts? head).map (Facts.renumbered number) :=
  lookup_renumbered injective _ _ _

theorem publish_renumbered :
    (board.renumbered number).publish (head.renumbered number) =
      (board.publish head).renumbered number := by
  unfold publish
  rw [facts?_renumbered injective]
  cases board.facts? head with
  | some facts => rfl
  | none =>
      dsimp only [Option.map_none]
      unfold renumbered
      rw [List.map_append]
      rfl

theorem record_renumbered (observation : Observation) :
    (board.renumbered number).record (head.renumbered number)
        (observation.renumbered number).record =
      (board.record head observation.record).renumbered number := by
  have each (entry : Nat × Facts) :
      (if number entry.1 = (head.renumbered number).id then
        (number entry.1, (observation.renumbered number).record (entry.2.renumbered number))
      else (number entry.1, entry.2.renumbered number)) =
        let recorded := if entry.1 = head.id then (entry.1, observation.record entry.2) else entry
        (number recorded.1, recorded.2.renumbered number) := by
    have same : number entry.1 = (head.renumbered number).id ↔ entry.1 = head.id :=
      injective.eq_iff
    simp only [same, observation.record_renumbered]
    split <;> rfl
  unfold record
  rw [publish_renumbered injective]
  unfold renumbered
  dsimp only
  rw [List.map_map, List.map_map]
  exact congrArg mk (List.map_congr_left fun entry _ => each entry)

theorem remove_renumbered :
    (board.renumbered number).remove (head.renumbered number) =
      (board.remove head).renumbered number := by
  have same (entry : Nat × Facts) : (number entry.1 ≠ (head.renumbered number).id) =
      (entry.1 ≠ head.id) := propext injective.ne_iff
  unfold remove renumbered
  dsimp only
  rw [List.filter_map]
  refine congrArg (fun entries => mk (entries.map fun entry : Nat × Facts =>
    (number entry.1, entry.2.renumbered number))) (List.filter_congr fun entry _ => ?_)
  simp only [Function.comp_apply, same]

end FactBoard

/-! ## Planning -/

section Planning

variable {number} (zero : number 0 = 0)
include zero

theorem bareParameter_renumbered (type name text : String) :
    (bareParameter type name text).renumbered number = bareParameter type name text := by
  unfold Parameter.renumbered bareParameter
  rw [zero]

theorem PlannedParameter.ofParameter_renumbered (position : Nat) (parameter : Parameter) :
    ofParameter position (parameter.renumbered number) =
      (ofParameter position parameter).renumbered number := by
  unfold renumbered ofParameter
  rw [bareParameter_renumbered zero]
  rfl

theorem PlannedParameter.ofField_renumbered (parameter : FieldParameter) :
    ofField (parameter.renumbered number) = (ofField parameter).map (renumbered number) := by
  have count_eq : (parameter.renumbered number).field.variableCount =
      parameter.field.variableCount := rfl
  have type_eq : (parameter.renumbered number).field.type = parameter.field.type := rfl
  have name_eq : (parameter.renumbered number).field.name = parameter.field.name := rfl
  unfold ofField
  dsimp only
  rw [count_eq, type_eq, name_eq]
  split
  · rfl
  · split
    · rfl
    · simp only [Except.map, renumbered, bareParameter_renumbered zero]
      rfl

theorem PlannedParameter.mapM_ofField_renumbered (fields : List FieldParameter) :
    (fields.map (FieldParameter.renumbered number)).mapM ofField =
      (fields.mapM ofField).map (List.map (renumbered number)) := by
  induction fields with
  | nil => rfl
  | cons first rest inductionHypothesis =>
      rw [List.map_cons, List.mapM_cons, List.mapM_cons, ofField_renumbered zero,
        inductionHypothesis]
      cases ofField first with
      | error violation => rfl
      | ok parameter => cases rest.mapM ofField <;> rfl

omit zero in
theorem Facts.constructorParameters_renumbered (facts : Facts) :
    (facts.renumbered number).constructorParameters =
      facts.constructorParameters.map (Parameter.renumbered number) := by
  unfold constructorParameters renumbered
  cases facts.constructor <;> rfl

omit zero in
theorem Facts.mode_renumbered (facts : Facts) : (facts.renumbered number).mode = facts.mode := by
  have fields_eq : (facts.renumbered number).fields.isEmpty = facts.fields.isEmpty :=
    List.isEmpty_map
  unfold mode
  rw [constructorParameters_renumbered, List.isEmpty_map, fields_eq]

theorem planWith_renumbered (facts : Facts) (factory : Factory) :
    planWith (facts.renumbered number) (factory.renumbered number) =
      (planWith facts factory).map (Option.map (ClassPlan.renumbered number)) := by
  have parameters_eq :
      (facts.constructorParameters.map (Parameter.renumbered number)).mapIdx
          PlannedParameter.ofParameter =
        (facts.constructorParameters.mapIdx PlannedParameter.ofParameter).map
          (PlannedParameter.renumbered number) := by
    simp only [List.mapIdx_eq_zipIdx_map, List.zipIdx_map, List.map_map]
    exact List.map_congr_left fun entry _ =>
      PlannedParameter.ofParameter_renumbered zero entry.2 entry.1
  have fields_eq : (facts.renumbered number).fields =
      facts.fields.map (FieldParameter.renumbered number) := rfl
  have constructorId_eq : (facts.renumbered number).constructor.map (·.id) =
      (facts.constructor.map (·.id)).map number := by
    unfold Facts.renumbered
    cases facts.constructor <;> rfl
  have fieldIds_eq : (facts.fields.map (FieldParameter.renumbered number)).map (·.field.id) =
      (facts.fields.map (·.field.id)).map number := by
    rw [List.map_map, List.map_map]
    rfl
  have assignments_eq (parameters : List PlannedParameter) :
      (parameters.map (PlannedParameter.renumbered number)).map assignment =
        parameters.map assignment := List.map_map
  unfold planWith
  rw [facts.mode_renumbered, facts.constructorParameters_renumbered, parameters_eq, fields_eq,
    PlannedParameter.mapM_ofField_renumbered zero]
  cases facts.mode with
  | constructor =>
      dsimp only
      rw [constructorId_eq]
      rfl
  | field =>
      dsimp only
      rw [fieldIds_eq]
      cases facts.fields.mapM PlannedParameter.ofField with
      | error violation => rfl
      | ok parameters =>
          simp only [Except.map, bind, Except.bind, assignments_eq]
          rfl
  | none => rfl

/-- A class with other numbers is planned in the same way. -/
theorem classPlan_renumbered (facts : Facts) :
    classPlan (facts.renumbered number) =
      (classPlan facts).map (Option.map (ClassPlan.renumbered number)) := by
  have rejections_eq : (facts.renumbered number).rejections = facts.rejections := rfl
  have malformed_eq : (facts.renumbered number).malformed = facts.malformed := rfl
  have factory_eq : (facts.renumbered number).factory =
      facts.factory.map (Factory.renumbered number) := rfl
  unfold classPlan
  rw [rejections_eq, malformed_eq, factory_eq]
  split
  · rfl
  · split
    · rfl
    · cases facts.factory with
      | none => rfl
      | some factory => exact planWith_renumbered zero facts factory

end Planning

/-! ## Collecting -/

namespace Collecting

section Plans

variable {number}

theorem renumbers_report (facts : Facts) :
    (Migration.renumbering number).Holds (fun _ _ => True) (report facts) (report facts) := by
  have same (items : List String) : List.Forall₂ Eq items items := List.forall₂_refl items
  refine (Migration.renumbering number).bind
    ((Migration.renumbering number).forM (same facts.conflicts) ?_) fun _ _ _ => ?_
  · rintro conflict _ rfl
    exact Migration.renumbers_warn _
  · refine (Migration.renumbering number).forM (same facts.rejections) ?_
    rintro rejection _ rfl
    exact Migration.renumbers_warn _

variable (zero : number 0 = 0)
include zero

theorem renumbers_plan (facts : Facts) :
    (Migration.renumbering number).Holds
      (fun plan? other? => other? = plan?.map (ClassPlan.renumbered number))
      (plan facts) (plan (facts.renumbered number)) := by
  have report_eq : report (facts.renumbered number) = report facts := rfl
  unfold plan
  rw [report_eq, classPlan_renumbered zero]
  refine (Migration.renumbering number).bind (renumbers_report facts) fun _ _ _ => ?_
  cases classPlan facts with
  | error violation =>
      exact (Migration.renumbering number).bind (Migration.renumbers_warn _) fun _ _ _ =>
        (Migration.renumbering number).pure rfl
  | ok plan? =>
      cases plan? with
      | some plan =>
          have names_eq : (plan.renumbered number).parameters.map (·.name) =
              plan.parameters.map (·.name) := List.map_map
          dsimp only [Except.map, Option.map_some]
          rw [names_eq]
          exact (Migration.renumbering number).bind (Migration.renumbers_log _ _) fun _ _ _ =>
            (Migration.renumbering number).pure rfl
      | none =>
          have factory_eq : (facts.renumbered number).factory.map (·.name) =
              facts.factory.map (·.name) := Option.map_map _ _ _
          have rejections_eq : (facts.renumbered number).rejections = facts.rejections := rfl
          dsimp only [Except.map, Option.map_none]
          rw [factory_eq, facts.mode_renumbered, rejections_eq]
          split
          · exact (Migration.renumbering number).bind (Migration.renumbers_skip _ _) fun _ _ _ =>
              (Migration.renumbering number).pure rfl
          · exact (Migration.renumbering number).pure rfl

theorem renumbers_planClass (name : String) (facts? : Option Facts) :
    (Migration.renumbering number).Holds
      (fun plan? other? => other? = plan?.map (ClassPlan.renumbered number))
      (planClass name facts?) (planClass name (facts?.map (Facts.renumbered number))) := by
  unfold planClass
  refine (Migration.renumbering number).bind (Migration.renumbers_record _) fun _ _ _ => ?_
  cases facts? with
  | some facts => exact renumbers_plan zero facts
  | none =>
      exact (Migration.renumbering number).bind (Migration.renumbers_skip _ _) fun _ _ _ =>
        (Migration.renumbering number).pure rfl

end Plans

section Walks

variable {number} (injective : Function.Injective number)
include injective

theorem renumbers_observe
    {above others : List Node}
    (nearest : nearestClass? others = (nearestClass? above).map (ClassDecl.renumbered number))
    (observation : Observation) :
    ((Migration.renumbering number).withState fun collection other =>
        other = collection.renumbered number).Holds (fun _ _ => True)
      (observe above observation) (observe others (observation.renumbered number)) := by
  unfold observe
  rw [nearest]
  cases nearestClass? above with
  | none => exact PairKind.pure _ trivial
  | some decl =>
      refine (Migration.renumbering number).withState_modify ?_
      rintro collection _ rfl
      have recorded := FactBoard.record_renumbered injective decl.toClassHead collection.board
        observation
      exact congrArg (fun board => { collection.renumbered number with board }) recorded

theorem renumbers_leaveClass (zero : number 0 = 0) (scope : TypeScope) (head : ClassHead) :
    ((Migration.renumbering number).withState fun collection other =>
        other = collection.renumbered number).Holds (fun _ _ => True)
      (leaveClass scope head) (leaveClass scope (head.renumbered number)) := by
  let kind : PairKind Collecting Collecting :=
    (Migration.renumbering number).withState fun collection other =>
      other = collection.renumbered number
  have marks_eq : Marker.find? [.runner] scope (head.renumbered number).annotations =
      (Marker.find? [.runner] scope head.annotations).map ( Annotation.renumbered number) :=
    Marker.find?_renumbered number _ _ _
  have name_eq : (head.renumbered number).name = head.name := rfl
  unfold leaveClass
  rw [marks_eq, Option.isSome_map, name_eq]
  refine kind.bind (Migration.renumbering number).withState_get ?_
  rintro collection _ rfl
  have facts_eq := FactBoard.facts?_renumbered injective head collection.board
  refine kind.bind ((Migration.renumbering number).withState_modify ?_) fun _ _ _ => ?_
  · rintro collection _ rfl
    exact congrArg (fun board => { collection.renumbered number with board })
      (FactBoard.remove_renumbered injective head collection.board)
  · have same : (collection.renumbered number).board.facts? (head.renumbered number) =
        (collection.board.facts? head).map (Facts.renumbered number) := facts_eq
    rw [same]
    split
    · refine kind.bind ((Migration.renumbering number).withState_lift
        (renumbers_planClass zero head.name _)) ?_
      rintro plan? _ rfl
      cases plan? with
      | none => exact kind.pure trivial
      | some plan =>
          refine (Migration.renumbering number).withState_modify ?_
          rintro collection _ rfl
          unfold Collection.renumbered
          rw [List.map_append]
          rfl
    · exact kind.pure trivial

theorem renumbers_leave
    (zero : number 0 = 0)
    (scope : TypeScope)
    {departure other : Departure}
    (related : departure.IsRenumbered number other) :
    ((Migration.renumbering number).withState fun collection other =>
        other = collection.renumbered number).Holds (fun _ _ => True)
      (leave scope departure.above (.member departure.member))
      (leave scope other.above (.member other.member)) := by
  obtain ⟨above, member⟩ := departure
  obtain ⟨others, _⟩ := other
  obtain ⟨rfl, nearest⟩ := related
  have other {member : Member} (noClass : member.class? = none) :
      ((Migration.renumbering number).withState fun collection other =>
          other = collection.renumbered number).Holds (fun _ _ => True)
        (leave scope above (.member member))
        (leave scope others (.member (member.renumbered number))) := by
    have stillNoClass : (member.renumbered number).class? = none := by
      cases member with
      | classDecl head members => cases noClass
      | importDecl _ | verbatim _ | field _ | method _ => rfl
    rw [leave_of_noClass noClass, leave_of_noClass stillNoClass,
      Observation.ofMember?_renumbered]
    cases Observation.ofMember? scope member with
    | none => exact PairKind.pure _ trivial
    | some observation => exact renumbers_observe injective nearest observation
  cases member with
  | classDecl head members =>
      dsimp only
      rw [Member.renumbered_classDecl]
      exact renumbers_leaveClass injective zero scope head
  | importDecl _ | verbatim _ | field _ | method _ => exact other rfl

end Walks

end Collecting

theorem renumbers_collect
    {number : Nat → Nat}
    (injective : Function.Injective number)
    (zero : number 0 = 0)
    {unit other : SourceUnit}
    (related : unit.IsRenumbered number other) :
    (Migration.renumbering number).Holds
      (fun collection twinCollection => twinCollection = collection.renumbered number)
      (collect unit) (collect other) := by
  let kind : PairKind Collecting Collecting :=
    (Migration.renumbering number).withState fun collection twinCollection =>
      twinCollection = collection.renumbered number
  have visits : kind.Holds (fun _ _ => True)
      ((Collecting.visitor (.ofUnit unit)).visit unit)
      ((Collecting.visitor (.ofUnit unit)).visit other) :=
    Visitor.renumbers_visit (leavesMembers_visitor _)
      (fun _ _ => Collecting.renumbers_leave injective zero _) related
  unfold collect
  rw [related.scope_eq]
  refine (Migration.renumbering number).bind (visits .empty .empty rfl) fun _ _ results => ?_
  exact (Migration.renumbering number).pure results.2

end Parameterized

end JupiterMigration
