import JupiterMigration.Proofs.Printing
import JupiterMigration.Proofs.Traversal.Departures

/-!
# Facts stay with their class

While a walk is inside a class, the facts about the class stand on the board together with those
about the classes around it.  Whatever the nesting, the walk takes exactly the facts that the direct
members of a class amount to off the board when it leaves the class, and the board is empty in the
end (`Parameterized.takes_departuresAll`).  So the plan for a class depends on the class alone
(`Parameterized.ClassPlan.ofClass`).
-/

namespace JupiterMigration

open Migration (run_run_bind run_run_get run_run_modify run_run_lift)

namespace Parameterized

/-! ## The board -/

namespace FactBoard

/-- No class with the number has an entry. -/
def Lacks (id : Nat) (board : FactBoard) : Prop :=
  ∀ entry ∈ board.entries, entry.1 ≠ id

/-- The board after some observations of members of a class have been recorded. -/
def recordAll (head : ClassHead) (observations : List Observation) (board : FactBoard) :
    FactBoard :=
  observations.foldl (fun board observation => board.record head observation.record) board

variable {board : FactBoard} {head : ClassHead}

theorem facts?_eq_none (lacks : board.Lacks head.id) : board.facts? head = none := by
  rw [facts?, List.lookup_eq_none_iff]
  intro entry inside
  simpa using (lacks entry inside).symm

theorem map_eq_self
    (change : Facts → Facts)
    (lacks : board.Lacks head.id) :
    (board.entries.map fun entry =>
      if entry.1 = head.id then (entry.1, change entry.2) else entry) = board.entries := by
  refine (List.map_congr_left fun entry inside => ?_).trans (List.map_id _)
  exact if_neg (lacks entry inside)

theorem facts?_last (facts : Facts) (lacks : board.Lacks head.id) :
    facts? head ⟨board.entries ++ [(head.id, facts)]⟩ = some facts := by
  have missing : board.entries.lookup head.id = none := facts?_eq_none lacks
  rw [facts?, List.lookup_append, missing, Option.none_or, List.lookup_cons_self]

/-- The first observation of a member of a class makes an entry for the class. -/
theorem record_of_lacks (change : Facts → Facts) (lacks : board.Lacks head.id) :
    board.record head change = ⟨board.entries ++ [(head.id, change (.empty head.name))]⟩ := by
  unfold record publish
  rw [facts?_eq_none lacks]
  simp [map_eq_self change lacks]

/-- Every other observation changes this entry. -/
theorem record_last (change : Facts → Facts) (facts : Facts) (lacks : board.Lacks head.id) :
    record head change ⟨board.entries ++ [(head.id, facts)]⟩ =
      ⟨board.entries ++ [(head.id, change facts)]⟩ := by
  unfold record publish
  rw [facts?_last facts lacks]
  simp [map_eq_self change lacks]

theorem recordAll_last
    (observations : List Observation)
    (facts : Facts)
    (lacks : board.Lacks head.id) :
    recordAll head observations ⟨board.entries ++ [(head.id, facts)]⟩ =
      ⟨board.entries ++ [(head.id,
        observations.foldl (fun facts observation => observation.record facts) facts)]⟩ := by
  induction observations generalizing facts with
  | nil => rfl
  | cons first rest inductionHypothesis =>
      have step := record_last first.record facts lacks
      rw [recordAll, List.foldl_cons, step]
      exact inductionHypothesis (first.record facts)

/-- The entry that the direct members of a class make stands after all others. -/
theorem recordAll_of_lacks
    (scope : TypeScope)
    (members : List Member)
    (lacks : board.Lacks head.id) :
    recordAll head (members.filterMap (Observation.ofMember? scope)) board =
      ⟨board.entries ++
        ((Facts.ofClass scope ⟨head, members⟩).map fun facts => (head.id, facts)).toList⟩ := by
  unfold Facts.ofClass
  cases observations_eq : members.filterMap (Observation.ofMember? scope) with
  | nil => simp [recordAll]
  | cons first rest =>
      rw [recordAll, List.foldl_cons, record_of_lacks _ lacks]
      exact recordAll_last rest _ lacks

theorem lacks_record
    {id : Nat}
    (change : Facts → Facts)
    (lacks : board.Lacks id)
    (other : head.id ≠ id) : (board.record head change).Lacks id := by
  have published : (board.publish head).Lacks id := by
    unfold publish
    split
    · exact lacks
    · intro entry inside
      cases List.mem_append.mp inside with
      | inl old => exact lacks entry old
      | inr new =>
          obtain rfl := List.mem_singleton.mp new
          exact other
  intro entry inside
  obtain ⟨old, oldInside, rfl⟩ := List.mem_map.mp inside
  split
  · exact published old oldInside
  · exact published old oldInside

theorem lacks_recordAll
    {id : Nat}
    (observations : List Observation)
    (lacks : board.Lacks id)
    (other : head.id ≠ id) : (recordAll head observations board).Lacks id := by
  induction observations generalizing board with
  | nil => exact lacks
  | cons first rest inductionHypothesis =>
      exact inductionHypothesis (lacks_record first.record lacks other)

/-- The facts about a class that had no entry are those of its direct members. -/
theorem facts?_recordAll
    (scope : TypeScope)
    (members : List Member)
    (lacks : board.Lacks head.id) :
    (recordAll head (members.filterMap (Observation.ofMember? scope)) board).facts? head =
      Facts.ofClass scope ⟨head, members⟩ := by
  rw [recordAll_of_lacks scope members lacks]
  cases Facts.ofClass scope ⟨head, members⟩ with
  | none =>
      have missing := facts?_eq_none lacks
      simpa using missing
  | some facts => exact facts?_last facts lacks

/-- Without them the board is as before. -/
theorem remove_recordAll
    (scope : TypeScope)
    (members : List Member)
    (lacks : board.Lacks head.id) :
    (recordAll head (members.filterMap (Observation.ofMember? scope)) board).remove head =
      board := by
  have others : board.entries.filter (fun entry => entry.1 ≠ head.id) = board.entries := by
    rw [List.filter_eq_self]
    intro entry inside
    simpa using lacks entry inside
  rw [recordAll_of_lacks scope members lacks, remove, List.filter_append, others]
  cases Facts.ofClass scope ⟨head, members⟩ <;> simp

end FactBoard

/-! ## Leaving declarations -/

/-- The plan for a class that has the runner, by the facts of its own members. -/
def ClassPlan.ofClass (scope : TypeScope) (decl : ClassDecl) : Option ClassPlan :=
  if (Marker.find? [.runner] scope decl.annotations).isSome then
    match (Facts.ofClass scope decl).map classPlan with
    | some (.ok plan) => plan
    | _ => none
  else none

/-- The plans for some classes, by their numbers. -/
def plansOf (scope : TypeScope) (classes : List ClassDecl) : List (Nat × ClassPlan) :=
  classes.filterMap fun decl => (ClassPlan.ofClass scope decl).map fun plan => (decl.id, plan)

/-- What a walk finds on the board about each class when it is about to leave the class. -/
def taken (scope : TypeScope) : List Departure → Collecting (List (ClassDecl × Option Facts))
  | [] => return []
  | first :: rest => do
    let board := (← get).board
    Collecting.leave scope first.above (.member first.member)
    let others ← taken scope rest
    return (first.member.class?.map fun decl => (decl, board.facts? decl.toClassHead)).toList ++
      others

/-- Leaving declarations is what finding out about the board does besides. -/
theorem discard_taken (scope : TypeScope) (departures : List Departure) :
    (fun _ => ()) <$> taken scope departures = departures.forM fun departure =>
      Collecting.leave scope departure.above (.member departure.member) := by
  induction departures with
  | nil => rfl
  | cons first rest inductionHypothesis =>
      rw [List.forM_eq_forM, List.forM_cons, ← List.forM_eq_forM, ← inductionHypothesis, taken]
      simp only [map_bind, map_pure]
      rfl

/--
Leaving some declarations turns a board into a later one; on the way it finds facts about classes on
the board and adds plans.
-/
def Takes (scope : TypeScope) (departures : List Departure) (board later : FactBoard)
    (facts : List (ClassDecl × Option Facts)) (plans : List (Nat × ClassPlan)) : Prop :=
  ∀ known session, ∃ afterwards,
    ((taken scope departures).run ⟨board, known⟩).run session =
      ((facts, ⟨later, known ++ plans⟩), afterwards)

variable {scope : TypeScope} {board later latest : FactBoard}

theorem takes_nil : Takes scope [] board board [] [] := by
  intro known session
  rw [List.append_nil]
  exact ⟨session, rfl⟩

theorem taken_append (front back : List Departure) :
    taken scope (front ++ back) = (do
      let facts ← taken scope front
      let others ← taken scope back
      return facts ++ others) := by
  induction front with
  | nil => simp [taken]
  | cons first rest inductionHypothesis =>
      rw [List.cons_append, taken, taken, inductionHypothesis]
      simp only [bind_assoc, pure_bind, List.append_assoc]

theorem Takes.append
    {front back : List Departure}
    {facts others : List (ClassDecl × Option Facts)}
    {plans more : List (Nat × ClassPlan)}
    (first : Takes scope front board later facts plans)
    (second : Takes scope back later latest others more) :
    Takes scope (front ++ back) board latest (facts ++ others) (plans ++ more) := by
  intro known session
  obtain ⟨between, firstRun⟩ := first known session
  obtain ⟨afterwards, secondRun⟩ := second (known ++ plans) between
  refine ⟨afterwards, ?_⟩
  rw [taken_append, StateT.run_bind, Migration.run_bind, firstRun, StateT.run_bind,
    Migration.run_bind, secondRun, List.append_assoc]
  rfl

/-- A declaration of another kind than a class is recorded for the class around it, if any. -/
theorem takes_of_noClass
    {member : Member}
    (noClass : member.class? = none)
    (above : List Node) :
    Takes scope [⟨above, member⟩] board
      ((nearestClass? above).elim board fun owner =>
        board.recordAll owner.toClassHead (Observation.ofMember? scope member).toList) [] [] := by
  intro known session
  refine ⟨session, ?_⟩
  rw [List.append_nil]
  simp only [taken, Collecting.leave_of_noClass noClass, noClass]
  cases Observation.ofMember? scope member with
  | none => cases nearestClass? above <;> rfl
  | some observation =>
      unfold Collecting.observe
      cases nearestClass? above <;> rfl

/-- A class that is planned gets the plan that the facts about it lead to. -/
theorem fst_run_planClass (name : String) (facts : Option Facts) (session : Session) :
    ((Collecting.planClass name facts).run session).1 =
      match facts.map classPlan with
      | some (.ok plan) => plan
      | _ => none := by
  unfold Collecting.planClass
  rw [Migration.run_bind]
  cases facts with
  | none => rfl
  | some known =>
      dsimp only [Option.map_some]
      unfold Collecting.plan
      rw [Migration.run_bind]
      cases classPlan known with
      | error violation => rfl
      | ok result =>
          cases result with
          | some plan => rfl
          | none =>
              dsimp only
              split <;> rfl

/-- Leaving a class removes the facts about it from the board and plans the class by them. -/
theorem run_leaveClass
    {head : ClassHead}
    {members : List Member}
    (own : board.facts? head = Facts.ofClass scope ⟨head, members⟩)
    (known : List (Nat × ClassPlan))
    (session : Session) :
    ∃ afterwards, ((Collecting.leaveClass scope head).run ⟨board, known⟩).run session =
      (((), ⟨board.remove head, known ++ plansOf scope [⟨head, members⟩]⟩), afterwards) := by
  have planned := fst_run_planClass head.name (board.facts? head) session
  unfold Collecting.leaveClass
  cases marked : (Marker.find? [.runner] scope head.annotations).isSome with
  | false =>
      have noPlan : plansOf scope [⟨head, members⟩] = [] := by
        simp [plansOf, ClassPlan.ofClass, marked]
      rw [noPlan, List.append_nil]
      exact ⟨session, rfl⟩
  | true =>
      cases run_eq : (Collecting.planClass head.name (board.facts? head)).run session with
      | mk plan? afterwards =>
          rw [run_eq, own] at planned
          have plan_eq : ClassPlan.ofClass scope ⟨head, members⟩ = plan? := by
            rw [ClassPlan.ofClass, if_pos marked]
            exact planned.symm
          refine ⟨afterwards, ?_⟩
          rw [plansOf, List.filterMap_cons, plan_eq, run_run_bind, run_run_bind, if_pos rfl,
            run_run_bind]
          rw [run_run_get, run_run_modify, run_run_lift, run_eq]
          cases plan? with
          | none => rw [List.filterMap_nil, Option.map_none, List.append_nil]; rfl
          | some plan => rfl

/-- A class is planned by the facts that are on the board about it, which are removed. -/
theorem takes_classDecl
    {head : ClassHead}
    {members : List Member}
    (own : board.facts? head = Facts.ofClass scope ⟨head, members⟩)
    (above : List Node) :
    Takes scope [⟨above, .classDecl head members⟩] board (board.remove head)
      [(⟨head, members⟩, Facts.ofClass scope ⟨head, members⟩)]
      (plansOf scope [⟨head, members⟩]) := by
  intro known session
  obtain ⟨afterwards, left⟩ := run_leaveClass own known session
  refine ⟨afterwards, ?_⟩
  rw [taken, Collecting.leave]
  rw [run_run_bind, run_run_bind, run_run_get, left, ← own]
  rfl

theorem plansOf_append (front back : List ClassDecl) :
    plansOf scope (front ++ back) = plansOf scope front ++ plansOf scope back :=
  List.filterMap_append

/-- Classes with the facts of their own members. -/
def withOwnFacts (scope : TypeScope) (classes : List ClassDecl) :
    List (ClassDecl × Option Facts) :=
  classes.map fun decl => (decl, Facts.ofClass scope decl)

theorem withOwnFacts_append (front back : List ClassDecl) :
    withOwnFacts scope (front ++ back) = withOwnFacts scope front ++ withOwnFacts scope back :=
  List.map_append

/-- The board after some declarations in a class, or in none, have been left. -/
def boardAfter (scope : TypeScope) (owner : Option ClassDecl) (members : List Member)
    (board : FactBoard) : FactBoard :=
  owner.elim board fun decl =>
    board.recordAll decl.toClassHead (members.filterMap (Observation.ofMember? scope))

theorem boardAfter_cons
    (owner : Option ClassDecl)
    (first : Member)
    (rest : List Member) :
    boardAfter scope owner (first :: rest) board =
      boardAfter scope owner rest (boardAfter scope owner [first] board) := by
  cases owner with
  | none => rfl
  | some decl =>
      simp only [boardAfter, Option.elim_some, FactBoard.recordAll, ← List.foldl_append,
        ← List.filterMap_append]
      rfl

theorem lacks_boardAfter
    {owner : Option ClassDecl}
    {id : Nat}
    (lacks : board.Lacks id)
    (other : ∀ decl ∈ owner, decl.id ≠ id)
    (members : List Member) : (boardAfter scope owner members board).Lacks id := by
  cases owner with
  | none => exact lacks
  | some decl => exact FactBoard.lacks_recordAll _ lacks (other decl rfl)

mutual

/--
Leaving a declaration and what is in it takes the facts of each class in it off the board and
records only what the declaration itself says.
-/
theorem takes_departures
    {board : FactBoard}
    (above : List Node)
    (member : Member)
    (lacks : ∀ decl ∈ member.classes, board.Lacks decl.id)
    (apart : ∀ decl ∈ member.classes, ∀ owner ∈ nearestClass? above, owner.id ≠ decl.id)
    (nodup : (member.classes.map (·.id)).Nodup) :
    Takes scope (member.departures above) board
      (boardAfter scope (nearestClass? above) [member] board)
      (withOwnFacts scope (Departure.classes (member.departures above)))
      (plansOf scope (Departure.classes (member.departures above))) := by
  cases member with
  | classDecl head members =>
      rw [Member.classes_classDecl] at lacks apart nodup
      rw [List.map_cons, List.nodup_cons] at nodup
      have headLacks := lacks ⟨head, members⟩ List.mem_cons_self
      have inside := takes_departuresAll (.member (.classDecl head members) :: above) members
        (fun decl inside => lacks decl (List.mem_cons_of_mem _ inside))
        (fun decl inside owner isOwner same => by
          cases isOwner
          exact nodup.1 (same ▸ List.mem_map_of_mem inside))
        nodup.2
      have own := FactBoard.facts?_recordAll scope members headLacks
      have last := inside.append (takes_classDecl own above)
      rw [FactBoard.remove_recordAll scope members headLacks] at last
      rw [Member.departures, Departure.classes_append, withOwnFacts_append, plansOf_append]
      have unchanged :
          boardAfter scope (nearestClass? above) [.classDecl head members] board = board := by
        cases nearestClass? above <;> rfl
      rw [unchanged]
      exact last
  | importDecl _ | verbatim _ | field _ | method _ =>
      rw [Member.departures_eq_singleton rfl]
      exact takes_of_noClass rfl above

/-- The same of some declarations one after the other. -/
theorem takes_departuresAll
    {board : FactBoard}
    (above : List Node)
    (members : List Member)
    (lacks : ∀ decl ∈ Member.classesAll members, board.Lacks decl.id)
    (apart : ∀ decl ∈ Member.classesAll members, ∀ owner ∈ nearestClass? above,
      owner.id ≠ decl.id)
    (nodup : ((Member.classesAll members).map (·.id)).Nodup) :
    Takes scope (Member.departuresAll above members) board
      (boardAfter scope (nearestClass? above) members board)
      (withOwnFacts scope (Departure.classes (Member.departuresAll above members)))
      (plansOf scope (Departure.classes (Member.departuresAll above members))) := by
  cases members with
  | nil =>
      cases nearestClass? above <;> exact takes_nil
  | cons first rest =>
      rw [Member.classesAll_cons] at lacks apart nodup
      rw [List.map_append, List.nodup_append] at nodup
      have head := takes_departures above first
        (fun decl inside => lacks decl (List.mem_append_left _ inside))
        (fun decl inside => apart decl (List.mem_append_left _ inside))
        nodup.1
      have laterLacks : ∀ decl ∈ Member.classesAll rest,
          (boardAfter scope (nearestClass? above) [first] board).Lacks decl.id :=
        fun decl inside => lacks_boardAfter (lacks decl (List.mem_append_right _ inside))
          (apart decl (List.mem_append_right _ inside)) [first]
      have tail := takes_departuresAll above rest laterLacks
        (fun decl inside => apart decl (List.mem_append_right _ inside))
        nodup.2.1
      rw [Member.departuresAll, Departure.classes_append, withOwnFacts_append, plansOf_append,
        boardAfter_cons]
      exact head.append tail

end

/-! ## Collecting from a file -/

/-- A walk through a file finds the own facts of every class on the board. -/
theorem takes_unit
    {unit : SourceUnit}
    (nodup : ((Member.classesAll unit.members).map (·.id)).Nodup) :
    Takes scope unit.departures .empty .empty (withOwnFacts scope unit.classesLeft)
      (plansOf scope unit.classesLeft) :=
  takes_departuresAll [.sourceUnit unit] unit.members
    (fun _ _ _ none => absurd none List.not_mem_nil)
    (fun _ _ _ none => absurd none (by simp [nearestClass?])) nodup

/-- Collecting from a file gives the plans of its classes by their own facts. -/
theorem fst_run_collect
    {unit : SourceUnit}
    (nodup : ((Member.classesAll unit.members).map (·.id)).Nodup)
    (session : Session) :
    ((collect unit).run session).1 =
      ⟨.empty, plansOf (TypeScope.ofUnit unit) unit.classesLeft⟩ := by
  have takes : Takes (.ofUnit unit) unit.departures .empty .empty _ _ := takes_unit nodup
  obtain ⟨afterwards, taken_eq⟩ := takes [] session
  have visit_eq := Visitor.visit_eq_forM (leavesMembers_visitor (.ofUnit unit)) unit
  have left : (Collecting.visitor (.ofUnit unit)).leave = Collecting.leave (.ofUnit unit) := rfl
  rw [left, ← discard_taken] at visit_eq
  unfold collect
  rw [Migration.run_bind, visit_eq]
  change (((taken (.ofUnit unit) unit.departures).run ⟨.empty, []⟩).run session).1.2 = _
  rw [taken_eq]
  rfl

/-- Nested classes say nothing about the class they are in. -/
theorem filterMap_ofMember?_filter (members : List Member) :
    (members.filter (·.class?.isNone)).filterMap (Observation.ofMember? scope) =
      members.filterMap (Observation.ofMember? scope) := by
  rw [List.filterMap_filter]
  refine List.filterMap_congr fun member _ => ?_
  cases member <;> rfl

/-- The plan for a class depends on its name, its annotations and its other direct members. -/
theorem ClassPlan.ofClass_congr
    {decl other : ClassDecl}
    (name_eq : other.name = decl.name)
    (annotations_eq : other.annotations = decl.annotations)
    (members_eq : other.members.filter (·.class?.isNone) =
      decl.members.filter (·.class?.isNone)) :
    ClassPlan.ofClass scope other = ClassPlan.ofClass scope decl := by
  have observations_eq : other.members.filterMap (Observation.ofMember? scope) =
      decl.members.filterMap (Observation.ofMember? scope) := by
    rw [← filterMap_ofMember?_filter other.members, members_eq, filterMap_ofMember?_filter]
  unfold ofClass Facts.ofClass
  rw [name_eq, annotations_eq, observations_eq]

theorem lookup_collect
    {unit : SourceUnit}
    (nodup : ((Member.classesAll unit.members).map (·.id)).Nodup)
    {decl : ClassDecl}
    (inside : decl ∈ Member.classesAll unit.members)
    (session : Session) :
    ((collect unit).run session).1.plans.lookup decl.id =
      ClassPlan.ofClass (TypeScope.ofUnit unit) decl := by
  have perm := unit.perm_classesLeft
  rw [fst_run_collect nodup]
  exact lookup_filterMap ((perm.map _).nodup_iff.mpr nodup) (perm.mem_iff.mpr inside)

/--
In a file whose classes have different numbers, the walk leaves every class once and then takes off
the board the facts of its own direct members.  The board is empty in the end.  So classes of the
same name with the same annotations and the same members, nested classes apart, have the same plan
in files with the same imports and the same package.
-/
theorem takes_own_facts
    {unit : SourceUnit}
    (nodup : ((Member.classesAll unit.members).map (·.id)).Nodup)
    (session : Session) :
    (Collecting.visitor (.ofUnit unit)).visit unit =
        (fun _ => ()) <$> taken (.ofUnit unit) unit.departures ∧
      (∃ afterwards,
        ((taken (.ofUnit unit) unit.departures).run .empty).run session =
          ((unit.classesLeft.map fun decl => (decl, Facts.ofClass (.ofUnit unit) decl),
            ⟨.empty, plansOf (.ofUnit unit) unit.classesLeft⟩), afterwards)) ∧
      unit.classesLeft.Perm (Member.classesAll unit.members) ∧
      ∀ other : SourceUnit, ∀ later : Session,
        ((Member.classesAll other.members).map (·.id)).Nodup →
        other.imports = unit.imports → other.package? = unit.package? →
        ∀ decl ∈ Member.classesAll unit.members, ∀ twin ∈ Member.classesAll other.members,
          twin.name = decl.name → twin.annotations = decl.annotations →
          twin.members.filter (·.class?.isNone) = decl.members.filter (·.class?.isNone) →
          ((collect other).run later).1.plans.lookup twin.id =
            ((collect unit).run session).1.plans.lookup decl.id := by
  refine ⟨?_, takes_unit nodup [] session, unit.perm_classesLeft, ?_⟩
  · rw [discard_taken]
    exact Visitor.visit_eq_forM (leavesMembers_visitor _) unit
  · intro other later otherNodup imports_eq package_eq decl inside twin twinInside name_eq
      annotations_eq members_eq
    have scope_eq : TypeScope.ofUnit other = TypeScope.ofUnit unit := by
      rw [TypeScope.ofUnit, imports_eq, package_eq]
      rfl
    rw [lookup_collect otherNodup twinInside, lookup_collect nodup inside, scope_eq]
    exact ClassPlan.ofClass_congr name_eq annotations_eq members_eq

/-- A parameterized class in another one, with a factory of the same name. -/
def nestedTables : String :=
  "import org.junit.runner.RunWith;\nimport org.junit.runners.Parameterized;\n" ++
    "@RunWith(Parameterized.class)\nclass A \x7b\n    A(int x) \x7b \x7d\n" ++
    "    @RunWith(Parameterized.class)\n    static class B \x7b\n        B(int x) \x7b \x7d\n" ++
    "        @Parameterized.Parameters\n        static Object f() \x7b return null; \x7d\n" ++
    "    \x7d\n    @Parameterized.Parameters\n    static Object f() \x7b return null; \x7d\n\x7d\n"

theorem takes_own_facts_nestedTables :
    ∃ result, SourceUnit.parse nestedTables none 1 = .ok result ∧
      ((Member.classesAll result.1.members).map (·.id)).Nodup ∧
      ∃ afterwards,
        ((taken (.ofUnit result.1) result.1.departures).run .empty).run ⟨.empty, result.2⟩ =
          ((result.1.classesLeft.map fun decl => (decl, Facts.ofClass (.ofUnit result.1) decl),
            ⟨.empty, plansOf (.ofUnit result.1) result.1.classesLeft⟩), afterwards) := by
  have accepted : (SourceUnit.parse nestedTables none 1).toBool = true := by decide +kernel
  obtain ⟨result, parsed⟩ := SourceUnit.exists_of_accepted accepted
  have nodup := Member.nodup_classesAll_of_parse parsed
  have own := takes_own_facts nodup ⟨.empty, result.2⟩
  exact ⟨result, parsed, nodup, own.2.1⟩

end Parameterized

end JupiterMigration
