import JupiterMigration.Proofs.Imports.Exchange
import JupiterMigration.Proofs.Revision.Imports

/-!
# Removing several imports

The declaration behind a removed one keeps the lead with more line feeds, its own if both have
equally many, and at the head of a file takes the lead of the removed one in any case.  Where
several imports go that follow each other, it does not matter which of them goes first
(`Member.following_assoc`), so that removals may be made in any order
(`Imports.makeAll_removals_of_perm`).
-/

namespace JupiterMigration

namespace Member

variable {p q : Member → Bool} {removed next : Member} {members front middle back : List Member}

/-! ## The declaration behind a removed one -/

theorem following_atHead (removed next : Member) :
    following true removed next = next.withLead removed.lead := rfl

theorem leadLines_withLead (lead : String) (member : Member) :
    (member.withLead lead).leadLines = Text.count '\n' lead := by
  rw [leadLines, lead_withLead]

/--
Of two neighbours either may go first.  Away from the head, the lead that is left is the last one of
those with most line feeds.
-/
theorem following_assoc (atHead : Bool) (first second next : Member) :
    following atHead (following atHead first second) next =
      following atHead first (following false second next) := by
  cases atHead with
  | true =>
      rw [following_atHead, following_atHead, following_atHead, lead_withLead]
      obtain ⟨lead, following_eq⟩ := SameButLead.of_following false second next
      rw [following_eq, withLead_withLead]
  | false =>
      have lines (member : Member) : Text.count '\n' member.lead = member.leadLines := rfl
      simp only [following, Bool.false_or, decide_eq_true_eq]
      by_cases firstWins : second.leadLines < first.leadLines <;>
        by_cases secondWins : next.leadLines < second.leadLines
      · have outright : next.leadLines < first.leadLines := secondWins.trans firstWins
        simp [firstWins, secondWins, leadLines_withLead, lines, outright]
      · simp [firstWins, secondWins, leadLines_withLead, lines]
      · simp [firstWins, secondWins, leadLines_withLead, lines]
      · have neither : ¬next.leadLines < first.leadLines := by omega
        simp [firstWins, secondWins, neither]

/-- What follows a removed declaration, at the head of a sequence or not. -/
def inherit (atHead : Bool) (removed : Member) : List Member → List Member
  | [] => []
  | next :: rest => following atHead removed next :: rest

theorem inherit_assoc (atHead : Bool) (first second : Member) (back : List Member) :
    inherit atHead (following atHead first second) back =
      inherit atHead first (inherit false second back) := by
  cases back with
  | nil => rfl
  | cons next rest =>
      exact congrArg (fun next => next :: rest) (following_assoc atHead first second next)

theorem removeAt_append (front : List Member) (removed : Member) (back : List Member) :
    removeAt front.length (front ++ removed :: back) =
      front ++ inherit front.isEmpty removed back := by
  have atHead : (front.length == 0) = front.isEmpty := by cases front <;> rfl
  unfold removeAt
  rw [List.drop_left, List.take_left, atHead]
  cases back with
  | nil => exact (List.append_nil front).symm
  | cons next rest => rfl

/-! ## Removing the first declaration of a kind -/

/-- The declarations without the first one that satisfies a test, its follower adjusted. -/
def removeFirst (p : Member → Bool) (members : List Member) : List Member :=
  match members.findIdx? p with
  | some position => removeAt position members
  | none => members

theorem removeFirst_of_forall (noneOf : ∀ member ∈ members, p member = false) :
    removeFirst p members = members := by
  rw [removeFirst, Imports.findIdx?_eq_none noneOf]

theorem removeFirst_append
    (passed : ∀ member ∈ front, p member = false)
    (holds : p removed = true) :
    removeFirst p (front ++ removed :: back) = front ++ inherit front.isEmpty removed back := by
  rw [removeFirst, Imports.findIdx?_append_cons passed holds]
  exact removeAt_append front removed back

/-- A test that does not look at what stands before a declaration. -/
def IgnoresLead (p : Member → Bool) : Prop :=
  ∀ lead member, p (member.withLead lead) = p member

theorem IgnoresLead.following
    (ignores : IgnoresLead p)
    (atHead : Bool)
    (removed next : Member) : p (following atHead removed next) = p next := by
  obtain ⟨lead, following_eq⟩ := SameButLead.of_following atHead removed next
  rw [following_eq, ignores]

theorem IgnoresLead.inherit
    (ignores : IgnoresLead p)
    (noneOf : ∀ member ∈ back, p member = false)
    (atHead : Bool)
    (removed : Member) : ∀ member ∈ inherit atHead removed back, p member = false := by
  cases back with
  | nil => exact noneOf
  | cons next rest =>
      rw [Member.inherit, List.forall_mem_cons, ignores.following]
      exact List.forall_mem_cons.mp noneOf

/-- Where there is no declaration of a kind, none comes up when others are removed. -/
theorem IgnoresLead.removeFirst
    (ignores : IgnoresLead p)
    (noneOf : ∀ member ∈ members, p member = false)
    (q : Member → Bool) : ∀ member ∈ removeFirst q members, p member = false := by
  rcases Imports.none_or_first q members with
    noOther | ⟨front, removed, back, rfl, holds, passed⟩
  · rwa [removeFirst_of_forall noOther]
  · rw [List.forall_mem_append, List.forall_mem_cons] at noneOf
    rw [removeFirst_append passed holds, List.forall_mem_append]
    exact ⟨noneOf.1, ignores.inherit noneOf.2.2 _ removed⟩

/-- Two declarations may be removed in either order. -/
theorem removeFirst_comm_of_before
    {first second : Member}
    (ignores : IgnoresLead q)
    (isFirst : p first = true)
    (isSecond : q second = true)
    (passedFirst : ∀ member ∈ front, p member = false)
    (passedSecond : ∀ member ∈ front ++ first :: middle, q member = false) :
    removeFirst q (removeFirst p (front ++ first :: (middle ++ second :: back))) =
      removeFirst p (removeFirst q (front ++ first :: (middle ++ second :: back))) := by
  have regrouped : front ++ first :: (middle ++ second :: back) =
      (front ++ first :: middle) ++ second :: back := by
    simp
  have notAtHead : (front ++ first :: middle).isEmpty = false := by cases front <;> rfl
  have secondGone : removeFirst q (front ++ first :: (middle ++ second :: back)) =
      front ++ first :: (middle ++ inherit false second back) := by
    rw [regrouped, removeFirst_append passedSecond isSecond, notAtHead]
    simp
  rw [removeFirst_append passedFirst isFirst, secondGone, removeFirst_append passedFirst isFirst]
  rw [List.forall_mem_append, List.forall_mem_cons] at passedSecond
  cases middle with
  | nil =>
      rw [List.nil_append, List.nil_append, inherit, removeFirst_append passedSecond.1,
        inherit_assoc]
      rwa [ignores.following]
  | cons next rest =>
      have stillPassed : ∀ member ∈ front ++ following front.isEmpty first next :: rest,
          q member = false := by
        rw [List.forall_mem_append, List.forall_mem_cons, ignores.following]
        exact ⟨passedSecond.1, List.forall_mem_cons.mp passedSecond.2.2⟩
      have regrouped : front ++ inherit front.isEmpty first (next :: rest ++ second :: back) =
          (front ++ following front.isEmpty first next :: rest) ++ second :: back := by
        simp [inherit]
      have notAtHead : (front ++ following front.isEmpty first next :: rest).isEmpty = false := by
        cases front <;> rfl
      rw [regrouped, removeFirst_append stillPassed isSecond, notAtHead]
      simp [inherit]

/-- The first declarations of two kinds may be removed in either order. -/
theorem removeFirst_comm
    (ignoresFirst : IgnoresLead p)
    (ignoresSecond : IgnoresLead q)
    (disjoint : ∀ member, p member = true → q member = false)
    (members : List Member) :
    removeFirst q (removeFirst p members) = removeFirst p (removeFirst q members) := by
  rcases Imports.none_or_first p members with
    noFirst | ⟨front, first, back, rfl, isFirst, passedFirst⟩
  · rw [removeFirst_of_forall noFirst, removeFirst_of_forall (ignoresFirst.removeFirst noFirst q)]
  · rcases Imports.none_or_first q front with
      passedSecond | ⟨before, second, middle, rfl, isSecond, passedSecond⟩
    · rcases Imports.none_or_first q back with
        noSecond | ⟨middle, second, behind, rfl, isSecond, passedMiddle⟩
      · have none : ∀ member ∈ front ++ first :: back, q member = false :=
          List.forall_mem_append.mpr
            ⟨passedSecond, List.forall_mem_cons.mpr ⟨disjoint first isFirst, noSecond⟩⟩
        rw [removeFirst_of_forall none, removeFirst_of_forall (ignoresSecond.removeFirst none p)]
      · exact removeFirst_comm_of_before ignoresSecond isFirst isSecond passedFirst
          (List.forall_mem_append.mpr
            ⟨passedSecond, List.forall_mem_cons.mpr ⟨disjoint first isFirst, passedMiddle⟩⟩)
    · rw [List.append_assoc, List.cons_append]
      exact (removeFirst_comm_of_before ignoresFirst isSecond isFirst passedSecond passedFirst).symm

end Member

namespace Imports

open Member (IgnoresLead removeFirst SameButLead)

variable {change other : Change} {unit : SourceUnit}

/-! ## Removals as functions of the file -/

/-- Whether a change is a removal. -/
def Change.isRemoval : Change → Bool
  | ensure _ _ => false
  | removeIfUnused _ _ | removeWildcardIfUnused _ _ => true

/-- Whether nothing that a change would take away is among the names used. -/
def Change.isUnneeded (used : Names) : Change → Bool
  | ensure _ _ => false
  | removeIfUnused name _ => !used.contains (Text.afterLastDot name)
  | removeWildcardIfUnused _ types => (used.filter types.contains).isEmpty

/-- Whether a declaration is an import that a change removes. -/
def Change.isTarget (change : Change) (member : Member) : Bool :=
  member.import?.any change.removes

/-- A file after a removal. -/
def removed (unit : SourceUnit) (change : Change) : SourceUnit :=
  if change.isUnneeded unit.namesUsed then
    { unit with members := removeFirst change.isTarget unit.members }
  else unit

theorem run_make_of_isRemoval
    (isRemoval : change.isRemoval = true)
    (unit : SourceUnit)
    (session : Session) : ((change.make unit).run session).1.getD unit = removed unit change := by
  have untouched (absent : unit.members.findIdx? change.isTarget = none) :
      removed unit change = unit := by
    unfold removed Member.removeFirst
    rw [absent]
    split <;> rfl
  have taken {position : Nat} (found : unit.members.findIdx? change.isTarget = some position) :
      removed unit change = if change.isUnneeded unit.namesUsed then
        { unit with members := Member.removeAt position unit.members } else unit := by
    unfold removed Member.removeFirst
    rw [found]
  cases change with
  | ensure name isStatic => cases isRemoval
  | removeIfUnused name isStatic =>
      unfold Change.make removeIfUnused
      dsimp only
      split
      · next absent => exact (untouched absent).symm
      · next position found =>
          have unneeded_eq : Change.isUnneeded unit.namesUsed (.removeIfUnused name isStatic) =
              !unit.namesUsed.contains (Text.afterLastDot name) := rfl
          rw [taken found, unneeded_eq]
          cases unit.namesUsed.contains (Text.afterLastDot name) <;> rfl
  | removeWildcardIfUnused package types =>
      unfold Change.make removeWildcardIfUnused
      dsimp only
      split
      · next absent => exact (untouched absent).symm
      · next position found =>
          have unneeded_eq :
              Change.isUnneeded unit.namesUsed (.removeWildcardIfUnused package types) =
              (unit.namesUsed.filter types.contains).isEmpty := rfl
          rw [taken found, unneeded_eq]
          cases (unit.namesUsed.filter types.contains).isEmpty <;> rfl

theorem run_makeAll_of_removals
    {changes : List Change}
    (areRemovals : ∀ change ∈ changes, change.isRemoval = true)
    (unit : SourceUnit)
    (session : Session) :
    ((makeAll changes unit).run session).1 = changes.foldl removed unit := by
  unfold makeAll
  induction changes generalizing unit session with
  | nil => rfl
  | cons first rest inductionHypothesis =>
      rw [List.forall_mem_cons] at areRemovals
      rw [List.foldlM_cons, Migration.run_bind, List.foldl_cons, inductionHypothesis areRemovals.2]
      congr 1
      rw [Migration.run_bind, Migration.run_pure]
      exact run_make_of_isRemoval areRemovals.1 unit session

/-! ## Two removals -/

theorem ignoresLead_isTarget (change : Change) : IgnoresLead change.isTarget := by
  intro lead member
  cases member with
  | importDecl decl => cases change <;> rfl
  | _ => rfl

theorem namesUsedByAll_of_sameButLead
    {members others : List Member}
    (same : List.Forall₂ SameButLead members others) :
    Member.namesUsedByAll others = Member.namesUsedByAll members := by
  unfold Member.namesUsedByAll
  congr 1
  induction same with
  | nil => rfl
  | cons sameHead _ inductionHypothesis =>
      obtain ⟨lead, rfl⟩ := sameHead
      rw [List.map_cons, List.map_cons, inductionHypothesis, Member.namesUsed_withLead]

/-- The names used outside the imports stay the same when an import goes. -/
theorem namesUsed_removed (unit : SourceUnit) (change : Change) :
    (removed unit change).namesUsed = unit.namesUsed := by
  unfold removed Member.removeFirst
  split
  · cases found : unit.members.findIdx? change.isTarget with
    | none => rfl
    | some position =>
        obtain ⟨decl, decl_eq, -⟩ := import_of_found found
        exact namesUsedByAll_of_sameButLead (Member.sameButLead_removeAt decl_eq rfl)
  · rfl

/-- Two removals look for the same imports, or for different ones. -/
theorem same_or_disjoint (change other : Change) :
    change.removes = other.removes ∨
      ∀ decl, change.removes decl = true → other.removes decl = false := by
  cases change with
  | ensure name isStatic => exact .inr fun _ isRemoved => absurd isRemoved Bool.false_ne_true
  | removeIfUnused name isStatic =>
      cases other with
      | ensure _ _ => exact .inr fun _ _ => rfl
      | removeIfUnused otherName group =>
          by_cases same : name = otherName ∧ isStatic = group
          · exact .inl (by rw [same.1, same.2])
          · refine .inr fun decl isRemoved => Bool.eq_false_iff.mpr fun isOther => same ?_
            simp only [Change.removes, Bool.and_eq_true, beq_iff_eq] at isRemoved isOther
            exact ⟨isRemoved.2.symm.trans isOther.2, isRemoved.1.2.symm.trans isOther.1.2⟩
      | removeWildcardIfUnused _ _ =>
          refine .inr fun decl isRemoved => ?_
          simp only [Change.removes, Bool.and_eq_true, Bool.not_eq_true'] at isRemoved ⊢
          rw [isRemoved.1.1, Bool.false_and, Bool.false_and]
  | removeWildcardIfUnused package types =>
      cases other with
      | ensure _ _ => exact .inr fun _ _ => rfl
      | removeIfUnused _ _ =>
          refine .inr fun decl isRemoved => ?_
          simp only [Change.removes, Bool.and_eq_true] at isRemoved ⊢
          rw [isRemoved.1.1, Bool.not_true, Bool.false_and, Bool.false_and]
      | removeWildcardIfUnused otherPackage otherTypes =>
          by_cases same : package = otherPackage
          · exact .inl (by rw [same]; rfl)
          · refine .inr fun decl isRemoved => Bool.eq_false_iff.mpr fun isOther => same ?_
            simp only [Change.removes, Bool.and_eq_true, beq_iff_eq] at isRemoved isOther
            exact isRemoved.2.symm.trans isOther.2

theorem removeFirst_isTarget_comm (change other : Change) (members : List Member) :
    removeFirst other.isTarget (removeFirst change.isTarget members) =
      removeFirst change.isTarget (removeFirst other.isTarget members) := by
  rcases same_or_disjoint change other with same | disjoint
  · have sameTarget : change.isTarget = other.isTarget := by
      unfold Change.isTarget
      rw [same]
    rw [sameTarget]
  · refine Member.removeFirst_comm (ignoresLead_isTarget change) (ignoresLead_isTarget other) ?_
      members
    intro member isTarget
    obtain ⟨decl, rfl, isRemoved⟩ := exists_of_any isTarget
    exact disjoint decl isRemoved

theorem removed_comm (unit : SourceUnit) (change other : Change) :
    removed (removed unit change) other = removed (removed unit other) change := by
  rw [removed, namesUsed_removed, removed.eq_def (removed unit other), namesUsed_removed]
  unfold removed
  cases change.isUnneeded unit.namesUsed <;> cases other.isUnneeded unit.namesUsed
  case true.true => simp only [if_true, removeFirst_isTarget_comm change other]
  all_goals rfl

/--
Imports may be removed in any order: the file that results is the same, to its declarations and what
stands before each of them.
-/
theorem makeAll_removals_of_perm
    {changes others : List Change}
    (areRemovals : ∀ change ∈ changes, change.isRemoval = true)
    (perm : changes.Perm others)
    (unit : SourceUnit)
    (session later : Session) :
    ((makeAll changes unit).run session).1 = ((makeAll others unit).run later).1 := by
  have othersAreRemovals : ∀ change ∈ others, change.isRemoval = true :=
    fun change isOther => areRemovals change (perm.mem_iff.mpr isOther)
  rw [run_makeAll_of_removals areRemovals, run_makeAll_of_removals othersAreRemovals]
  exact perm.foldl_eq' (fun change _ other _ unit => removed_comm unit change other) unit

/-- A file with an import at its head and two that follow each other further down. -/
def neighbouringImports : SourceUnit where
  id := 0
  lead := ""
  members := [.importDecl (.declare 1 "a.A" false ""), .verbatim ⟨2, "\n", ";", []⟩,
    .importDecl ⟨3, "\n\n", "import b.*;", "b", false, true⟩,
    .importDecl (.declare 4 "c.C.f" true "\n"),
    .verbatim ⟨5, " ", "interface D \x7b \x7d", ["D"]⟩]
  tail := "\n"
  path := none

/-- Removals of all imports, from the first to the last. -/
def removalsInTurn : List Change :=
  [.removeIfUnused "a.A" false, .removeWildcardIfUnused "b" ["B"], .removeIfUnused "c.C.f" true]

/-- Removals of all imports, in another order. -/
def removalsOutOfTurn : List Change :=
  [.removeIfUnused "c.C.f" true, .removeIfUnused "a.A" false, .removeWildcardIfUnused "b" ["B"]]

theorem makeAll_removals_of_perm_neighbouringImports :
    (∀ change ∈ removalsInTurn, change.isRemoval = true) ∧
      removalsInTurn.Perm removalsOutOfTurn ∧
      ((makeAll removalsInTurn neighbouringImports).run ⟨.empty, 1⟩).1 =
        ((makeAll removalsOutOfTurn neighbouringImports).run ⟨.empty, 1⟩).1 ∧
      ((makeAll removalsInTurn neighbouringImports).run ⟨.empty, 1⟩).1.print =
        ";\n\ninterface D \x7b \x7d\n" := by
  have areRemovals : ∀ change ∈ removalsInTurn, change.isRemoval = true := by decide
  have perm : removalsInTurn.Perm removalsOutOfTurn := by decide
  refine ⟨areRemovals, perm,
    makeAll_removals_of_perm areRemovals perm neighbouringImports _ _, ?_⟩
  decide

end Imports

end JupiterMigration
