import JupiterMigration.Proofs.Recording

/-!
# What plans are about

The plans that a walk through a file collects are about classes of that file.  The initializer of a
parameterized class is called after the class, and a constructor that becomes the initializer is a
constructor in the file (`Parameterized.isIn_of_planned`).  A class with a rule is planned by
scanning its own members (`ExpectedException.scanned_of_planned`).
-/

namespace JupiterMigration

/-- What is found in an association list is in it. -/
theorem mem_of_lookup
    {α : Type}
    {entries : List (Nat × α)}
    {key : Nat}
    {value : α}
    (found : entries.lookup key = some value) : (key, value) ∈ entries := by
  obtain ⟨front, back, rfl, -⟩ := List.lookup_eq_some_iff.mp found
  simp

section Lookup

variable {α β : Type} {key : α → Nat} {value? : α → Option β}

theorem lookup_filterMap_eq_none
    {items : List α}
    {absent : Nat}
    (isAbsent : absent ∉ items.map key) :
    (items.filterMap fun item => (value? item).map fun value => (key item, value)).lookup absent =
      none := by
  rw [List.lookup_eq_none_iff]
  intro entry inside
  obtain ⟨item, itemInside, valued⟩ := List.mem_filterMap.mp inside
  obtain ⟨value, -, rfl⟩ := Option.map_eq_some_iff.mp valued
  have other : absent ≠ key item := fun same => isAbsent (same ▸ List.mem_map_of_mem itemInside)
  simpa using other

/-- Where no two items have one key, what is found under the key of an item is its own value. -/
theorem lookup_filterMap
    {items : List α}
    {item : α}
    (nodup : (items.map key).Nodup)
    (inside : item ∈ items) :
    (items.filterMap fun item => (value? item).map fun value => (key item, value)).lookup
      (key item) = value? item := by
  induction items with
  | nil => exact absurd inside List.not_mem_nil
  | cons first rest inductionHypothesis =>
      obtain ⟨absent, nodupRest⟩ := List.nodup_cons.mp nodup
      cases inside with
      | head =>
          cases valued : value? item with
          | none =>
              rw [List.filterMap_cons_none (by rw [valued]; rfl)]
              exact lookup_filterMap_eq_none absent
          | some value =>
              rw [List.filterMap_cons_some (by rw [valued]; rfl), List.lookup_cons_self]
      | tail _ inRest =>
          have apart : (key item == key first) = false :=
            beq_eq_false_iff_ne.mpr fun same => absent (same ▸ List.mem_map_of_mem inRest)
          have found := inductionHypothesis nodupRest inRest
          cases valued : value? first with
          | none =>
              rw [List.filterMap_cons_none (by rw [valued]; rfl)]
              exact found
          | some value =>
              rw [List.filterMap_cons_some (by rw [valued]; rfl), List.lookup_cons, apart]
              exact found

end Lookup

/-! ## Parameterized classes -/

namespace Parameterized

/-- A constructor among some nodes. -/
def ConstructorIn (nodes : List Node) (decl : Method) : Prop :=
  Node.member (.method decl) ∈ nodes ∧ decl.isConstructor = true

/-- A class with a number and a name among some nodes. -/
def ClassIn (nodes : List Node) (id : Nat) (name : String) : Prop :=
  ∃ head members, Node.member (.classDecl head members) ∈ nodes ∧ head.id = id ∧ head.name = name

/--
Facts are about the class with a number, and the constructor that they name is among the nodes.
-/
structure Facts.AreIn (nodes : List Node) (id : Nat) (facts : Facts) : Prop where
  named : ClassIn nodes id facts.className
  constructor : ∀ decl, facts.constructor = some decl → ConstructorIn nodes decl

/--
The initializer of a plan is called after the class with a number, and the constructor that the plan
names is among the nodes.
-/
structure ClassPlan.IsIn (nodes : List Node) (id : Nat) (plan : ClassPlan) : Prop where
  named : ∃ name, ClassIn nodes id name ∧ plan.initializerName = "init" ++ name
  constructor :
    ∀ own, plan.constructorId = some own → ∃ decl, ConstructorIn nodes decl ∧ decl.id = own

/-- Everything collected is about classes and constructors among some nodes. -/
structure Collection.IsIn (nodes : List Node) (collection : Collection) : Prop where
  board : ∀ entry ∈ collection.board.entries, entry.2.AreIn nodes entry.1
  plans : ∀ entry ∈ collection.plans, entry.2.IsIn nodes entry.1

variable {nodes : List Node}

theorem Facts.areIn_empty
    {head : ClassHead}
    {members : List Member}
    (inside : Node.member (.classDecl head members) ∈ nodes) :
    (Facts.empty head.name).AreIn nodes head.id where
  named := ⟨head, members, inside, rfl, rfl⟩
  constructor _ named := absurd named (by simp [Facts.empty])

theorem Facts.constructor_recordFactory (method : Method) (mark : Annotation) (facts : Facts) :
    (recordFactory method mark facts).constructor = facts.constructor := by
  unfold recordFactory
  split <;> rfl

theorem Facts.constructor_recordField (position : Int) (field : Field) (facts : Facts) :
    (recordField position field facts).constructor = facts.constructor := by
  unfold recordField
  split <;> rfl

theorem Facts.constructor_recordConstructor
    (method : Method)
    (delegating : Bool)
    (facts : Facts) :
    (recordConstructor method delegating facts).constructor = facts.constructor ∨
      (recordConstructor method delegating facts).constructor = some method := by
  unfold recordConstructor
  dsimp only
  split
  · exact .inl rfl
  · exact .inr rfl

/-- Recording an observation does not change what class the facts are about. -/
theorem Observation.className_record (observation : Observation) (facts : Facts) :
    (observation.record facts).className = facts.className := by
  cases observation with
  | factory decl mark =>
      rw [record, Facts.recordFactory]
      split <;> rfl
  | constructor decl delegating =>
      rw [record, Facts.recordConstructor]
      dsimp only
      split <;> rfl
  | field position decl =>
      rw [record, Facts.recordField]
      split <;> rfl
  | malformed note => rfl

/-- Only a constructor is observed as one. -/
theorem Observation.of_constructor
    {scope : TypeScope}
    {member : Member}
    {decl : Method}
    {delegating : Bool}
    (observed : ofMember? scope member = some (.constructor decl delegating)) :
    member = .method decl ∧ decl.isConstructor = true := by
  cases member with
  | method other =>
      simp only [ofMember?] at observed
      split at observed
      · next isConstructor =>
          cases observed
          exact ⟨rfl, isConstructor⟩
      · obtain ⟨mark, -, same⟩ := Option.map_eq_some_iff.mp observed
        cases same
  | field other =>
      obtain ⟨mark, -, same⟩ := Option.map_eq_some_iff.mp observed
      unfold ofMarkedField at same
      split at same
      · cases same
      · split at same <;> cases same
  | importDecl _ | verbatim _ | classDecl _ _ => cases observed

/-- An observation of a member names no other constructor than that member. -/
theorem Observation.areIn_record
    {scope : TypeScope}
    {member : Member}
    {observation : Observation}
    {facts : Facts}
    {id : Nat}
    (inside : Node.member member ∈ nodes)
    (observed : ofMember? scope member = some observation)
    (areIn : facts.AreIn nodes id) : (observation.record facts).AreIn nodes id := by
  refine ⟨observation.className_record facts ▸ areIn.named, fun named => ?_⟩
  cases observation with
  | factory decl mark =>
      rw [record, Facts.constructor_recordFactory]
      exact areIn.constructor named
  | constructor decl delegating =>
      obtain ⟨rfl, isConstructor⟩ := of_constructor observed
      rw [record]
      cases Facts.constructor_recordConstructor decl delegating facts with
      | inl old =>
          rw [old]
          exact areIn.constructor named
      | inr new =>
          rw [new]
          rintro ⟨⟩
          exact ⟨inside, isConstructor⟩
  | field position decl =>
      rw [record, Facts.constructor_recordField]
      exact areIn.constructor named
  | malformed note => exact areIn.constructor named

/-- A plan names the class and the constructor that the facts name. -/
theorem of_classPlan
    {facts : Facts}
    {plan : ClassPlan}
    (planned : classPlan facts = .ok (some plan)) :
    plan.initializerName = "init" ++ facts.className ∧
      (plan.constructorId = none ∨ plan.constructorId = facts.constructor.map (·.id)) := by
  unfold classPlan at planned
  split at planned
  · cases planned
  · split at planned
    · cases planned
    · split at planned
      · cases planned
      · unfold planWith at planned
        split at planned
        · cases planned
          exact ⟨rfl, .inr rfl⟩
        · cases parameters_eq : facts.fields.mapM PlannedParameter.ofField with
          | error violation => rw [parameters_eq] at planned; cases planned
          | ok parameters =>
              rw [parameters_eq] at planned
              cases planned
              exact ⟨rfl, .inl rfl⟩
        · cases planned

theorem isIn_of_classPlan
    {facts : Facts}
    {plan : ClassPlan}
    {id : Nat}
    (areIn : facts.AreIn nodes id)
    (planned : classPlan facts = .ok (some plan)) : plan.IsIn nodes id := by
  obtain ⟨initializerName_eq, constructorId_eq⟩ := of_classPlan planned
  refine ⟨⟨_, areIn.named, initializerName_eq⟩, fun id named => ?_⟩
  rw [named] at constructorId_eq
  have fromFacts := constructorId_eq.resolve_left (Option.some_ne_none id)
  obtain ⟨decl, constructor_eq, id_eq⟩ := Option.map_eq_some_iff.mp fromFacts.symm
  exact ⟨decl, areIn.constructor decl constructor_eq, id_eq⟩

namespace Collection.IsIn

variable {collection : Collection}

/-- Recording an observation of a member. -/
theorem record
    {scope : TypeScope}
    {member : Member}
    {observation : Observation}
    {head : ClassHead}
    {members : List Member}
    (isIn : collection.IsIn nodes)
    (inside : Node.member member ∈ nodes)
    (observed : Observation.ofMember? scope member = some observation)
    (classInside : Node.member (.classDecl head members) ∈ nodes) :
    Collection.IsIn nodes
      { collection with board := collection.board.record head observation.record } where
  board := by
    have published : ∀ entry ∈ (collection.board.publish head).entries,
        entry.2.AreIn nodes entry.1 := by
      unfold FactBoard.publish
      split
      · exact isIn.board
      · intro entry member
        cases List.mem_append.mp member with
        | inl old => exact isIn.board entry old
        | inr new =>
            obtain rfl := List.mem_singleton.mp new
            exact Facts.areIn_empty classInside
    intro entry member
    obtain ⟨old, oldMember, rfl⟩ := List.mem_map.mp member
    split
    · exact Observation.areIn_record inside observed (published old oldMember)
    · exact published old oldMember
  plans := isIn.plans

/-- Taking the facts about a class off the board. -/
theorem remove (isIn : collection.IsIn nodes) (head : ClassHead) :
    Collection.IsIn nodes { collection with board := collection.board.remove head } where
  board entry member := isIn.board entry (List.mem_filter.mp member |>.1)
  plans := isIn.plans

/-- Planning a class whose facts were on the board. -/
theorem plan
    {id : Nat}
    {plan : ClassPlan}
    (isIn : collection.IsIn nodes)
    (planned : plan.IsIn nodes id) :
    Collection.IsIn nodes { collection with plans := collection.plans ++ [(id, plan)] } where
  board := isIn.board
  plans entry member := by
    cases List.mem_append.mp member with
    | inl old => exact isIn.plans entry old
    | inr new =>
        obtain rfl := List.mem_singleton.mp new
        exact planned

end Collection.IsIn

namespace Collecting

/-- A class is planned by the facts about it. -/
theorem classPlan_of_planClass
    {name : String}
    {facts : Option Facts}
    {plan : ClassPlan}
    {session : Session}
    (planned : ((planClass name facts).run session).1 = some plan) :
    ∃ known, facts = some known ∧ classPlan known = .ok (some plan) := by
  unfold planClass at planned
  rw [Migration.run_bind] at planned
  cases facts with
  | none => cases planned
  | some known =>
      refine ⟨known, rfl, ?_⟩
      dsimp only at planned
      unfold Collecting.plan at planned
      rw [Migration.run_bind] at planned
      cases outcome : classPlan known with
      | error violation =>
          rw [outcome] at planned
          cases planned
      | ok result =>
          rw [outcome] at planned
          cases result with
          | none =>
              dsimp only at planned
              split at planned <;> cases planned
          | some other =>
              cases planned
              rfl

/-- The steps that collect only what is about classes and constructors among some nodes. -/
def about (nodes : List Node) : StepKind Collecting :=
  StepKind.preserving fun collection _ => collection.IsIn nodes

theorem about_leaveClass (scope : TypeScope) (head : ClassHead) :
    (about nodes).Holds (leaveClass scope head) := by
  unfold leaveClass
  refine StepKind.preserving_bind
    (fun known collection _ => collection.IsIn nodes ∧ known.IsIn nodes)
    (fun _ _ isIn => ⟨isIn, isIn⟩) ?_
  rintro known collection session ⟨isIn, knownIsIn⟩
  have removing : (about nodes).Holds (modify fun collection =>
      { collection with board := collection.board.remove head } : Collecting PUnit) :=
    fun _ _ isIn => isIn.remove head
  refine (about nodes).bind removing (fun _ => ?_) collection session isIn
  split
  · refine StepKind.preserving_bind
      (fun planned collection _ => collection.IsIn nodes ∧
        ∀ plan, planned = some plan → plan.IsIn nodes head.id) ?_ ?_
    · intro collection session isIn
      refine ⟨isIn, fun plan planned => ?_⟩
      obtain ⟨facts, onBoard, classPlan_eq⟩ := classPlan_of_planClass planned
      exact isIn_of_classPlan (knownIsIn.board _ (mem_of_lookup onBoard)) classPlan_eq
    · rintro planned collection session ⟨isIn, plannedIsIn⟩
      cases planned with
      | none => exact isIn
      | some plan => exact isIn.plan (plannedIsIn plan rfl)
  · exact (about nodes).pure _

/-- The innermost class around a node is one of the enclosing nodes. -/
theorem mem_of_nearestClass
    {above : List Node}
    {decl : ClassDecl}
    (nearest : nearestClass? above = some decl) : Node.member decl.toMember ∈ above := by
  obtain ⟨node, inside, class_eq⟩ := List.exists_of_findSome?_eq_some nearest
  cases node with
  | member other =>
      cases other <;> cases class_eq
      exact inside
  | _ => cases class_eq

theorem about_leave
    {above : List Node}
    {node : Node}
    (scope : TypeScope)
    (aboveInside : above ⊆ nodes)
    (inside : node ∈ nodes) : (about nodes).Holds (leave scope above node) := by
  unfold leave
  split
  · exact about_leaveClass scope _
  · split
    · next observed =>
        unfold observe
        split
        · next nearest =>
            intro collection session isIn
            exact isIn.record inside observed (aboveInside (mem_of_nearestClass nearest))
        · exact (about nodes).pure _
    · exact (about nodes).pure _
  · exact (about nodes).pure _

end Collecting

/-- The initializer is called after the planned class, and a planned constructor is in the file. -/
theorem isIn_of_planned
    (unit : SourceUnit)
    (session : Session)
    {id : Nat}
    {plan : ClassPlan}
    (planned : (id, plan) ∈ ((collect unit).run session).1.plans) : plan.IsIn unit.walk id := by
  have visits : (Collecting.about unit.walk).Holds
      ((Collecting.visitor (TypeScope.ofUnit unit)).visit unit) :=
    Visitor.holds_visit {
      enter := fun _ _ _ _ => (Collecting.about unit.walk).pure _
      leave := fun _ aboveInside _ inside => Collecting.about_leave _ aboveInside inside }
  have isIn := visits .empty session ⟨fun _ none => absurd none List.not_mem_nil,
    fun _ none => absurd none List.not_mem_nil⟩
  exact isIn.plans _ planned

end Parameterized

/-! ## Classes with a rule for expected exceptions -/

namespace ExpectedException

/-- A class among some nodes is planned by scanning its members for its rule field. -/
def RulePlan.IsFor (scope : TypeScope) (nodes : List Node) (id : Nat) (plan : RulePlan) : Prop :=
  ∃ head members rule, Node.member (.classDecl head members) ∈ nodes ∧ head.id = id ∧
    ruleField? scope members = some rule ∧ scanClass rule members = .ok plan

namespace Collecting

/-- The steps that collect only plans for classes among some nodes. -/
def about (scope : TypeScope) (nodes : List Node) : StepKind Collecting :=
  StepKind.preserving fun plans _ => ∀ entry ∈ plans, entry.2.IsFor scope nodes entry.1

variable {scope : TypeScope} {nodes : List Node}

theorem about_lift
    {α : Type}
    (step : Migration α) : (about scope nodes).Holds (liftM step : Collecting α) :=
  fun _ _ plansFor => plansFor

theorem about_leave
    {node : Node}
    (above : List Node)
    (inside : node ∈ nodes) : (about scope nodes).Holds (leave scope above node) := by
  unfold leave
  split
  · next head members =>
      unfold leaveClass
      split
      · exact about_lift _
      · next rule ruleField =>
          split
          · exact about_lift _
          · next plan scanned =>
              refine (about scope nodes).bind (about_lift _) fun _ => ?_
              intro plans session plansFor entry member
              cases List.mem_append.mp member with
              | inl old => exact plansFor entry old
              | inr new =>
                  obtain rfl := List.mem_singleton.mp new
                  exact ⟨head, members, rule, inside, rfl, ruleField, scanned⟩
  · exact (about scope nodes).pure _

end Collecting

/-- Each plan is the scan of the members of a class of the file. -/
theorem scanned_of_planned
    (unit : SourceUnit)
    (session : Session)
    {id : Nat}
    {plan : RulePlan}
    (planned : (id, plan) ∈ ((collect unit).run session).1) :
    plan.IsFor (TypeScope.ofUnit unit) unit.walk id := by
  have visits : (Collecting.about (TypeScope.ofUnit unit) unit.walk).Holds
      ((Collecting.visitor (TypeScope.ofUnit unit)).visit unit) :=
    Visitor.holds_visit {
      enter := fun _ _ _ _ => (Collecting.about _ unit.walk).pure _
      leave := fun above _ _ inside => Collecting.about_leave above inside }
  exact visits [] session (fun _ none => absurd none List.not_mem_nil) _ planned

end ExpectedException

end JupiterMigration
