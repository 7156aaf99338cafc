import JupiterMigration.Proofs.Isolation.Uniform
import JupiterMigration.Proofs.Revision.Basic

/-!
# Two runs over planned classes

Which classes a run migrates depends on the plans and not on the session, so that two runs with the
same plans make the same, apart from numbers (`Member.twins_rewriteAll`), and a migration that fails
in one run fails in every run (`Fails.always`).  A run in which the migration of a class fails
leaves the class alone: it does the same as a run without a plan for the class
(`leavesAlone_rewriteAll`).
-/

namespace JupiterMigration

open Member (Twin Revised RevisedAll rewrite rewriteAll classesAll)
open Migration (run_run_bind run_run_lift)

variable
  {Plan σ : Type}
  {plans others : List (Nat × Plan)}
  {migrate : Plan → ClassDecl → Synthesis ClassDecl}
  {note : String → Plan → σ → σ}

/-! ## Decisions about planned classes -/

section Decisions

variable {entered decl : ClassDecl} {plan : Plan} (state : σ)

theorem run_decideByPlan_of_unplanned
    (unplanned : plans.lookup entered.id = none)
    (session : Session) :
    (((decideByPlan plans migrate note entered decl).run state).run session).1 =
      (.keep, state) := by
  unfold decideByPlan
  rw [unplanned]
  rfl

theorem run_decideByPlan_of_error
    {session : Session}
    {error : SynthesisError}
    (planned : plans.lookup entered.id = some plan)
    (fails : (migrate plan decl).outcome session = .error error) :
    (((decideByPlan plans migrate note entered decl).run state).run session).1 =
      (.keep, state) := by
  unfold Synthesis.outcome at fails
  unfold decideByPlan
  rw [planned]
  dsimp only
  rw [run_run_bind, run_run_lift, fails]
  rfl

theorem run_decideByPlan_of_ok
    {session : Session}
    {result : ClassDecl}
    (planned : plans.lookup entered.id = some plan)
    (comes : (migrate plan decl).outcome session = .ok result) :
    (((decideByPlan plans migrate note entered decl).run state).run session).1 =
      (.replace result.toMember, note entered.name plan state) := by
  unfold Synthesis.outcome at comes
  unfold decideByPlan
  rw [planned]
  dsimp only
  rw [run_run_bind, run_run_lift, comes]
  rfl

end Decisions

/-! ## Failing classes -/

/--
With the classes in it migrated from some session on, a planned class cannot be migrated: some new
node cannot be made.
-/
def Fails
    (plans : List (Nat × Plan))
    (migrate : Plan → ClassDecl → Synthesis ClassDecl)
    (note : String → Plan → σ → σ)
    (decl : ClassDecl) : Prop :=
  ∃ plan state session error, plans.lookup decl.id = some plan ∧
    let inner := ((rewriteAll (decideByPlan plans migrate note) decl.members).run state).run session
    (migrate plan { decl with members := inner.1.1 }).outcome inner.2 = .error error

theorem fails_of_run
    {decl : ClassDecl}
    {plan : Plan}
    (planned : plans.lookup decl.id = some plan)
    (state : σ)
    (session : Session)
    (fails :
      let inner := ((rewriteAll (decideByPlan plans migrate note) decl.members).run state).run
        session
      ((migrate plan { decl with members := inner.1.1 }).outcome inner.2).toBool = false) :
    Fails plans migrate note decl := by
  dsimp only at fails
  cases comes : (migrate plan { decl with members := (((rewriteAll (decideByPlan plans migrate note)
      decl.members).run state).run session).1.1 }).outcome
        (((rewriteAll (decideByPlan plans migrate note) decl.members).run state).run session).2 with
  | error error => exact ⟨plan, state, session, error, planned, comes⟩
  | ok result =>
      rw [comes] at fails
      cases fails

/-- The migration of a planned class fails from whatever session, before it and inside the class. -/
def FailsAlways
    (plans : List (Nat × Plan))
    (migrate : Plan → ClassDecl → Synthesis ClassDecl)
    (note : String → Plan → σ → σ)
    (decl : ClassDecl) : Prop :=
  ∃ plan, plans.lookup decl.id = some plan ∧ ∀ state session other,
    let inner := ((rewriteAll (decideByPlan plans migrate note) decl.members).run state).run session
    ∃ error, (migrate plan { decl with members := inner.1.1 }).outcome other = .error error

/-! ## Two runs -/

namespace Member

theorem Twin.of_unnumberedInside
    {result other : ClassDecl}
    (same : result.unnumberedInside = other.unnumberedInside) :
    Twin result.toMember other.toMember := by
  obtain ⟨head, members⟩ := result
  obtain ⟨otherHead, others⟩ := other
  cases congrArg ClassDecl.toClassHead same
  exact .inside head (congrArg ClassDecl.members same)

/-- A class is decided about alike in two runs, by a plan that is the same or that fails. -/
theorem twins_decide
    (uniform : Uniform migrate)
    {head : ClassHead}
    {members inner twinInner : List Member}
    (twins : List.Forall₂ Twin inner twinInner)
    (state twinState : σ)
    (session other : Session)
    (agree : plans.lookup head.id = others.lookup head.id ∨
      others.lookup head.id = none ∧ ∃ plan error, plans.lookup head.id = some plan ∧
        (migrate plan ⟨head, inner⟩).outcome session = .error error) :
    let run := ((decideByPlan plans migrate note ⟨head, members⟩ ⟨head, inner⟩).run state).run
      session
    let twin := ((decideByPlan others migrate note ⟨head, members⟩ ⟨head, twinInner⟩).run
      twinState).run other
    List.Forall₂ Twin (run.1.1.apply (classDecl head inner)).toList
        (twin.1.1.apply (classDecl head twinInner)).toList ∧
      (state = twinState → run.1.2 = twin.1.2) := by
  dsimp only
  have kept : List.Forall₂ Twin [classDecl head inner] [classDecl head twinInner] :=
    .cons (.inside head (Twin.unnumberedAll_eq twins)) .nil
  cases agree with
  | inr failing =>
      obtain ⟨unplanned, plan, error, planned, fails⟩ := failing
      rw [run_decideByPlan_of_error state planned fails,
        run_decideByPlan_of_unplanned twinState unplanned]
      exact ⟨kept, fun same => same⟩
  | inl same =>
      cases planned : others.lookup head.id with
      | none =>
          rw [run_decideByPlan_of_unplanned state (same.trans planned),
            run_decideByPlan_of_unplanned twinState planned]
          exact ⟨kept, fun same => same⟩
      | some plan =>
          have alike := uniform plan head inner twinInner twins session other
          cases left : (migrate plan ⟨head, inner⟩).outcome session with
          | error error =>
              cases right : (migrate plan ⟨head, twinInner⟩).outcome other with
              | error twinError =>
                  rw [run_decideByPlan_of_error state (same.trans planned) left,
                    run_decideByPlan_of_error twinState planned right]
                  exact ⟨kept, fun same => same⟩
              | ok result =>
                  rw [left, right] at alike
                  cases alike
          | ok result =>
              cases right : (migrate plan ⟨head, twinInner⟩).outcome other with
              | error error =>
                  rw [left, right] at alike
                  cases alike
              | ok twinResult =>
                  rw [left, right] at alike
                  rw [run_decideByPlan_of_ok state (same.trans planned) left,
                    run_decideByPlan_of_ok twinState planned right]
                  exact ⟨.cons (.of_unnumberedInside (Except.ok.inj alike)) .nil,
                    congrArg (note head.name plan)⟩

/-- Two tables of plans agree about a class, or the first has a plan for it that fails. -/
def AgreeOn
    (plans others : List (Nat × Plan))
    (migrate : Plan → ClassDecl → Synthesis ClassDecl)
    (note : String → Plan → σ → σ)
    (decl : ClassDecl) : Prop :=
  plans.lookup decl.id = others.lookup decl.id ∨
    others.lookup decl.id = none ∧ FailsAlways plans migrate note decl

mutual

theorem twins_rewrite
    (uniform : Uniform migrate)
    (member : Member)
    (agree : ∀ decl ∈ member.classes, AgreeOn plans others migrate note decl)
    (state twinState : σ)
    (session other : Session) :
    let run := ((rewrite (decideByPlan plans migrate note) member).run state).run session
    let twin := ((rewrite (decideByPlan others migrate note) member).run twinState).run other
    List.Forall₂ Twin run.1.1.toList twin.1.1.toList ∧
      (state = twinState → run.1.2 = twin.1.2) := by
  cases member with
  | classDecl head members =>
      rw [classes_classDecl] at agree
      obtain ⟨innerTwins, innerSame⟩ := twins_rewriteAll uniform members
        (fun decl below => agree decl (List.mem_cons_of_mem _ below))
        state twinState session other
      rw [run_rewrite_classDecl, run_rewrite_classDecl]
      dsimp only
      have own : plans.lookup head.id = others.lookup head.id ∨
          others.lookup head.id = none ∧ ∃ plan error, plans.lookup head.id = some plan ∧
            (migrate plan ⟨head, (((rewriteAll (decideByPlan plans migrate note) members).run
              state).run session).1.1⟩).outcome (((rewriteAll (decideByPlan plans migrate note)
                members).run state).run session).2 = .error error := by
        cases agree ⟨head, members⟩ List.mem_cons_self with
        | inl agrees => exact .inl agrees
        | inr failing =>
            obtain ⟨unplanned, plan, planned, fails⟩ := failing
            obtain ⟨error, fails⟩ := fails state session _
            exact .inr ⟨unplanned, plan, error, planned, fails⟩
      obtain ⟨twins, same⟩ := twins_decide uniform innerTwins _ _ _ _ own
      exact ⟨twins, fun sameStart => same (innerSame sameStart)⟩
  | _ => exact ⟨.cons (.same _) .nil, fun same => same⟩

/--
Two runs with plans that agree, but for plans that fail, make the same of the classes in some
declarations, apart from numbers, and note the same.
-/
theorem twins_rewriteAll
    (uniform : Uniform migrate)
    (members : List Member)
    (agree : ∀ decl ∈ classesAll members, AgreeOn plans others migrate note decl)
    (state twinState : σ)
    (session other : Session) :
    let run := ((rewriteAll (decideByPlan plans migrate note) members).run state).run session
    let twin := ((rewriteAll (decideByPlan others migrate note) members).run twinState).run other
    List.Forall₂ Twin run.1.1 twin.1.1 ∧ (state = twinState → run.1.2 = twin.1.2) := by
  cases members with
  | nil => exact ⟨.nil, fun same => same⟩
  | cons first rest =>
      rw [classesAll_cons] at agree
      obtain ⟨headTwins, headSame⟩ := twins_rewrite uniform first
        (fun decl below => agree decl (List.mem_append_left _ below)) state twinState session other
      rw [run_rewriteAll_cons, run_rewriteAll_cons]
      dsimp only
      obtain ⟨tailTwins, tailSame⟩ := twins_rewriteAll uniform rest
        (fun decl below => agree decl (List.mem_append_right _ below)) _ _ _ _
      exact ⟨List.rel_append headTwins tailTwins, fun sameStart => tailSame (headSame sameStart)⟩

end

end Member

/-- A class whose migration fails once fails from whatever session. -/
theorem Fails.always
    {decl : ClassDecl}
    (uniform : Uniform migrate)
    (fails : Fails plans migrate note decl) : FailsAlways plans migrate note decl := by
  obtain ⟨plan, state, session, error, planned, comes⟩ := fails
  refine ⟨plan, planned, ?_⟩
  intro laterState laterSession other
  have agree : ∀ other ∈ classesAll decl.members, Member.AgreeOn plans plans migrate note other :=
    fun _ _ => .inl rfl
  have twins := (Member.twins_rewriteAll uniform decl.members agree state laterState session
    laterSession).1
  have alike := uniform plan decl.toClassHead _ _ twins
    (((rewriteAll (decideByPlan plans migrate note) decl.members).run state).run session).2 other
  rw [comes] at alike
  dsimp only
  cases again : (migrate plan { decl with members := (((rewriteAll (decideByPlan plans migrate note)
      decl.members).run laterState).run laterSession).1.1 }).outcome other with
  | error error => exact ⟨error, rfl⟩
  | ok result =>
      rw [again] at alike
      cases alike

/-! ## The place of a class -/

/-- A class as a migration by one of some plans makes it from the class with its members revised. -/
def MadeBy
    (plans : List (Nat × Plan))
    (migrate : Plan → ClassDecl → Synthesis ClassDecl)
    (entered inner result : ClassDecl) : Prop :=
  ∃ plan earlier later, (entered.id, plan) ∈ plans ∧ (migrate plan inner).Makes earlier result later

/--
The migrations of the classes of some declarations keep the classes inside those, as far as a
relation between classes tells.
-/
structure KeepsClasses
    (plans : List (Nat × Plan))
    (migrate : Plan → ClassDecl → Synthesis ClassDecl)
    (Same : ClassDecl → ClassDecl → Prop)
    (root : List Member) : Prop where
  quietly : ∀ plan decl, Synthesis.quiet.Holds (migrate plan decl)
  refl : ∀ decl, Same decl decl
  trans : ∀ {first second third}, Same first second → Same second third → Same first third
  keeps : ∀ head members inner ids result, ⟨head, members⟩ ∈ classesAll root →
    RevisedAll (MadeBy plans migrate) ids members inner →
    MadeBy plans migrate ⟨head, members⟩ ⟨head, inner⟩ result →
    ∀ decl ∈ classesAll inner, ∃ other ∈ classesAll result.members, Same decl other

namespace Member

/-- Rewriting classes by plans revises some declarations. -/
theorem revisedAll_madeBy
    (quietly : ∀ plan decl, Synthesis.quiet.Holds (migrate plan decl))
    (note : String → Plan → σ → σ)
    (members : List Member)
    (state : σ)
    (session : Session) :
    ∃ ids, RevisedAll (MadeBy plans migrate) ids members
      (((rewriteAll (decideByPlan plans migrate note) members).run state).run session).1.1 := by
  have decides : Decides (MadeBy plans migrate) (decideByPlan plans migrate note) members := by
    apply decides_decideByPlan plans note quietly
    intro head inner _ _ plan result earlier later _ _ planned makes
    exact ⟨plan, earlier, later, planned, makes⟩
  exact revisedAll_rewriteAll decides members (fun _ inside => inside) state session

variable {Same : ClassDecl → ClassDecl → Prop} {root members : List Member} {head : ClassHead}

mutual

theorem kept_rewrite
    (keeps : KeepsClasses plans migrate Same root)
    (fails : FailsAlways plans migrate note ⟨head, members⟩)
    (member : Member)
    (below : member.classes ⊆ classesAll root)
    (inside : ⟨head, members⟩ ∈ member.classes)
    (state : σ)
    (session : Session) :
    ∃ ids inner other, RevisedAll (MadeBy plans migrate) ids members inner ∧
      Same ⟨head, inner⟩ other ∧
      other ∈ classesAll
        (((rewrite (decideByPlan plans migrate note) member).run state).run
          session).1.1.toList := by
  cases member with
  | classDecl outer outerMembers =>
      rw [classes_classDecl] at below inside
      obtain ⟨ids, revised⟩ := revisedAll_madeBy keeps.quietly note outerMembers state session
      rw [run_rewrite_classDecl]
      dsimp only
      cases inside with
      | head =>
          obtain ⟨plan, planned, fails⟩ := fails
          obtain ⟨error, comes⟩ := fails state session _
          rw [run_decideByPlan_of_error _ planned comes]
          refine ⟨ids, _, _, revised, keeps.refl _, ?_⟩
          simp [Edit.apply, classesAll_singleton, classes_classDecl]
      | tail _ deeper =>
          obtain ⟨ownIds, own, kept, ownRevised, same, isClass⟩ :=
            kept_rewriteAll keeps fails outerMembers (List.subset_of_cons_subset below) deeper state
              session
          cases decideByPlan_cases plans note keeps.quietly ⟨outer, outerMembers⟩ ⟨outer, _⟩ _
            _ with
          | inl keeping =>
              rw [keeping.1]
              refine ⟨ownIds, own, kept, ownRevised, same, ?_⟩
              simp [Edit.apply, classesAll_singleton, classes_classDecl, isClass]
          | inr replaced =>
              obtain ⟨plan, result, later, planned, makes, edit_eq, -⟩ := replaced
              obtain ⟨other, otherInside, sameOther⟩ :=
                keeps.keeps outer outerMembers _ ids result (below List.mem_cons_self) revised
                  ⟨plan, _, later, mem_of_lookup planned, makes⟩ kept isClass
              rw [edit_eq]
              refine ⟨ownIds, own, other, ownRevised, keeps.trans same sameOther, ?_⟩
              simp [Edit.apply, ClassDecl.toMember, classesAll_singleton, classes_classDecl,
                otherInside]
  | importDecl _ | verbatim _ | field _ | method _ =>
      rw [classes_eq_nil rfl] at inside
      cases inside

/-- A class whose migration fails is kept, whatever becomes of the classes around it. -/
theorem kept_rewriteAll
    (keeps : KeepsClasses plans migrate Same root)
    (fails : FailsAlways plans migrate note ⟨head, members⟩)
    (declarations : List Member)
    (below : classesAll declarations ⊆ classesAll root)
    (inside : ⟨head, members⟩ ∈ classesAll declarations)
    (state : σ)
    (session : Session) :
    ∃ ids inner other, RevisedAll (MadeBy plans migrate) ids members inner ∧
      Same ⟨head, inner⟩ other ∧
      other ∈ classesAll
        (((rewriteAll (decideByPlan plans migrate note) declarations).run state).run
          session).1.1 := by
  cases declarations with
  | nil => cases inside
  | cons first rest =>
      rw [classesAll_cons, List.append_subset] at below
      rw [classesAll_cons, List.mem_append] at inside
      rw [run_rewriteAll_cons]
      dsimp only
      cases inside with
      | inl inFirst =>
          obtain ⟨ids, inner, other, revised, same, isClass⟩ :=
            kept_rewrite keeps fails first below.1 inFirst state session
          refine ⟨ids, inner, other, revised, same, ?_⟩
          rw [classesAll_append]
          exact List.mem_append_left _ isClass
      | inr inRest =>
          obtain ⟨ids, inner, other, revised, same, isClass⟩ :=
            kept_rewriteAll keeps fails rest below.2 inRest _ _
          refine ⟨ids, inner, other, revised, same, ?_⟩
          rw [classesAll_append]
          exact List.mem_append_right _ isClass

end

end Member

namespace Member

mutual

theorem revised_rewrite_of_fails
    {root : List Member}
    {decl : ClassDecl}
    (quietly : ∀ plan decl, Synthesis.quiet.Holds (migrate plan decl))
    (nodup : ((classesAll root).map (·.id)).Nodup)
    (isClass : decl ∈ classesAll root)
    (fails : FailsAlways plans migrate note decl)
    (member : Member)
    (below : member.classes ⊆ classesAll root)
    (state : σ)
    (session : Session) :
    ∃ rewritten other,
      (((rewrite (decideByPlan plans migrate note) member).run state).run session).1.1 =
          some other ∧
        Revised (MadeBy plans migrate) rewritten member other ∧ decl.id ∉ rewritten := by
  cases member with
  | classDecl head members =>
      rw [classes_classDecl] at below
      obtain ⟨ids, revised, absent⟩ := revisedAll_rewriteAll_of_fails quietly nodup isClass fails
        members (List.subset_of_cons_subset below) state session
      rw [run_rewrite_classDecl]
      dsimp only
      by_cases own : head.id = decl.id
      · obtain rfl : ⟨head, members⟩ = decl :=
          List.inj_on_of_nodup_map nodup (below List.mem_cons_self) isClass own
        obtain ⟨plan, planned, fails⟩ := fails
        obtain ⟨error, comes⟩ := fails state session _
        rw [run_decideByPlan_of_error _ planned comes]
        exact ⟨ids, _, rfl, .kept revised, absent⟩
      · cases decideByPlan_cases plans note quietly ⟨head, members⟩ ⟨head, _⟩ _ _ with
        | inl keeping =>
            rw [keeping.1]
            exact ⟨ids, _, rfl, .kept revised, absent⟩
        | inr replaced =>
            obtain ⟨plan, result, later, planned, makes, edit_eq, -⟩ := replaced
            rw [edit_eq]
            refine ⟨_, _, rfl, .rewritten revised ?_, ?_⟩
            · exact ⟨plan, _, later, mem_of_lookup planned, makes⟩
            · rw [List.mem_append, List.mem_singleton, not_or]
              exact ⟨absent, Ne.symm own⟩
  | importDecl _ | verbatim _ | field _ | method _ =>
      exact ⟨[], _, rfl, .other rfl, List.not_mem_nil⟩

/-- Rewriting by plans revises declarations without rewriting a class whose migration fails. -/
theorem revisedAll_rewriteAll_of_fails
    {root : List Member}
    {decl : ClassDecl}
    (quietly : ∀ plan decl, Synthesis.quiet.Holds (migrate plan decl))
    (nodup : ((classesAll root).map (·.id)).Nodup)
    (isClass : decl ∈ classesAll root)
    (fails : FailsAlways plans migrate note decl)
    (members : List Member)
    (below : classesAll members ⊆ classesAll root)
    (state : σ)
    (session : Session) :
    ∃ rewritten, RevisedAll (MadeBy plans migrate) rewritten members
        (((rewriteAll (decideByPlan plans migrate note) members).run state).run session).1.1 ∧
      decl.id ∉ rewritten := by
  cases members with
  | nil => exact ⟨[], .nil, List.not_mem_nil⟩
  | cons first rest =>
      rw [classesAll_cons, List.append_subset] at below
      obtain ⟨headIds, other, head_eq, head, headAbsent⟩ := revised_rewrite_of_fails quietly nodup
        isClass fails first below.1 state session
      rw [run_rewriteAll_cons]
      dsimp only
      rw [head_eq]
      obtain ⟨tailIds, tail, tailAbsent⟩ := revisedAll_rewriteAll_of_fails quietly nodup isClass
        fails rest below.2 _ _
      refine ⟨headIds ++ tailIds, .cons head tail, ?_⟩
      rw [List.mem_append, not_or]
      exact ⟨headAbsent, tailAbsent⟩

end

end Member

/-! ## Runs without a plan that fails -/

theorem lookup_without
    (plans : List (Nat × Plan))
    (id key : Nat) :
    (plans.filter (·.1 != id)).lookup key = if key = id then none else plans.lookup key := by
  induction plans with
  | nil => simp
  | cons first rest inductionHypothesis =>
      obtain ⟨own, plan⟩ := first
      rw [List.filter_cons, List.lookup_cons]
      split
      · next differs =>
          rw [List.lookup_cons, inductionHypothesis]
          split
          · next same =>
              rw [beq_iff_eq] at same
              subst same
              rw [if_neg (by simpa using differs)]
          · rfl
      · next same =>
          rw [inductionHypothesis]
          have same : own = id := by simpa using same
          subst same
          split
          · rfl
          · next differs => rw [beq_false_of_ne differs]

/-- The same plans without one that fails agree about every class. -/
theorem agreeOn_without
    {members : List Member}
    {decl : ClassDecl}
    (nodup : ((classesAll members).map (·.id)).Nodup)
    (inside : decl ∈ classesAll members)
    (fails : FailsAlways plans migrate note decl) :
    ∀ other ∈ classesAll members,
      Member.AgreeOn plans (plans.filter (·.1 != decl.id)) migrate note other := by
  intro other isClass
  unfold Member.AgreeOn
  rw [lookup_without]
  split
  · next same =>
      cases List.inj_on_of_nodup_map nodup isClass inside same
      exact .inr ⟨rfl, fails⟩
  · exact .inl rfl

/--
A run over some declarations leaves a class among them alone, in comparison with a run without a
plan for the class.
-/
structure LeavesAlone
    (Rewrites : ClassDecl → ClassDecl → ClassDecl → Prop)
    (Same : ClassDecl → ClassDecl → Prop)
    (root : List Member)
    (decl : ClassDecl)
    (run without : List Member × σ) : Prop where
  /-- What has become of the declarations comes from rewriting other classes. -/
  revised : ∃ rewritten, RevisedAll Rewrites rewritten root run.1 ∧ decl.id ∉ rewritten
  /-- The class is still there, and only classes in it have been rewritten. -/
  kept : ∃ ids inner other, RevisedAll Rewrites ids decl.members inner ∧
    Same ⟨decl.toClassHead, inner⟩ other ∧ other ∈ classesAll run.1
  /-- Nothing has been noted for the class. -/
  noted : run.2 = without.2
  /-- All else is as without the plan, apart from the numbers of nodes. -/
  others : Member.unnumberedAll run.1 = Member.unnumberedAll without.1

/-- A run leaves a planned class alone if the migration of the class fails. -/
theorem leavesAlone_rewriteAll
    {Same : ClassDecl → ClassDecl → Prop}
    {root : List Member}
    {decl : ClassDecl}
    (uniform : Uniform migrate)
    (keeps : KeepsClasses plans migrate Same root)
    (nodup : ((classesAll root).map (·.id)).Nodup)
    (inside : decl ∈ classesAll root)
    (fails : Fails plans migrate note decl)
    (state : σ)
    (session other : Session) :
    LeavesAlone (MadeBy plans migrate) Same root decl
      (((rewriteAll (decideByPlan plans migrate note) root).run state).run session).1
      (((rewriteAll (decideByPlan (plans.filter (·.1 != decl.id)) migrate note) root).run
        state).run other).1 := by
  have always := fails.always uniform
  have agree := agreeOn_without nodup inside always
  have all : classesAll root ⊆ classesAll root := List.Subset.refl _
  obtain ⟨twins, same⟩ := Member.twins_rewriteAll uniform root agree state state session other
  exact {
    revised :=
      Member.revisedAll_rewriteAll_of_fails keeps.quietly nodup inside always root all state
      session
    kept := Member.kept_rewriteAll keeps always root all inside state session
    noted := same rfl
    others := Twin.unnumberedAll_eq twins }

end JupiterMigration
