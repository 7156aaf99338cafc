import JupiterMigration.Proofs.Revision.ExpectedException
import JupiterMigration.Proofs.Revision.Imports
import JupiterMigration.Proofs.Revision.Parameterized
import JupiterMigration.Recipe

/-!
# Sheltered leads

Recipes remove imports and fields with annotations only.  The lead of a declaration that stays is
sheltered if what stands before the declaration stays as well (`Member.ShelteredIn`): no change to
the imports and no rewritten class loses it, though a new import may take it over.
-/

namespace JupiterMigration

/-! ## What may be removed -/

/-- The names of the imports that recipes add. -/
def Imports.addedNames : List String :=
  (Parameterized.importUpdate.required ++
    ExpectedException.requiredImports ⟨[], true, true⟩).filterMap
    fun change =>
      match change with
      | .ensure name _ => some name
      | _ => none

/-- Whether an import may be removed: one on demand may, and any but those that recipes add. -/
def Import.mayGo (decl : Import) : Bool :=
  decl.isWildcard || !Imports.addedNames.contains decl.name

namespace Member

/-- Whether a declaration may be removed: some imports, and fields with annotations. -/
def mayGo : Member → Bool
  | importDecl decl => decl.mayGo
  | field decl => !decl.annotations.isEmpty
  | _ => false

/-- Whether the last one of some declarations may be removed. -/
def lastMayGo (members : List Member) : Bool :=
  members.getLast?.any mayGo

/--
A declaration that stays has a given lead, and what stands right before it, if anything, stays as
well.
-/
def Sheltered (text : String) (members : List Member) : Prop :=
  ∃ front keeper back, members = front ++ keeper :: back ∧ keeper.lead = text ∧
    keeper.mayGo = false ∧ lastMayGo front = false

/-- Some declarations, or those of a class below them, shelter a lead. -/
inductive ShelteredIn (text : String) : List Member → Prop
  | here {members : List Member} (sheltered : Sheltered text members) : ShelteredIn text members
  | inside {members inner : List Member} {head : ClassHead}
      (isMember : classDecl head inner ∈ members)
      (below : ShelteredIn text inner) : ShelteredIn text members

@[simp]
theorem mayGo_withLead (lead : String) (member : Member) :
    (member.withLead lead).mayGo = member.mayGo := by
  cases member <;> rfl

@[simp]
theorem mayGo_following (atHead : Bool) (removed next : Member) :
    (following atHead removed next).mayGo = next.mayGo := by
  unfold following
  split
  · exact mayGo_withLead _ _
  · rfl

theorem lastMayGo_append_cons (front : List Member) (member : Member) (back : List Member) :
    lastMayGo (front ++ member :: back) = lastMayGo (member :: back) := by
  rw [lastMayGo, lastMayGo, List.getLast?_append_of_ne_nil _ (List.cons_ne_nil member back)]

/-- Only what stands last matters, and only whether it may go. -/
theorem lastMayGo_cons_congr
    {first other : Member}
    (same : first.mayGo = other.mayGo)
    (rest : List Member) : lastMayGo (first :: rest) = lastMayGo (other :: rest) := by
  cases rest with
  | nil => simp [lastMayGo, same]
  | cons second more => simp [lastMayGo]

theorem lastMayGo_cons_cons (first second : Member) (rest : List Member) :
    lastMayGo (first :: second :: rest) = lastMayGo (second :: rest) :=
  lastMayGo_append_cons [first] second rest

theorem lastMayGo_singleton (member : Member) : lastMayGo [member] = member.mayGo := rfl

/-- Where two declarations stand in the same list. -/
theorem cases_of_append_cons
    {front back otherFront otherBack : List Member}
    {member other : Member}
    (same : front ++ member :: back = otherFront ++ other :: otherBack) :
    (front = otherFront ∧ member = other ∧ back = otherBack) ∨
      (∃ between, front = otherFront ++ other :: between ∧
        otherBack = between ++ member :: back) ∨
      ∃ between, otherFront = front ++ member :: between ∧
        back = between ++ other :: otherBack := by
  rcases List.append_eq_append_iff.mp same with ⟨gap, rfl, tail_eq⟩ | ⟨gap, rfl, tail_eq⟩
  · cases gap with
    | nil =>
        cases tail_eq
        exact .inl ⟨by simp, rfl, rfl⟩
    | cons first rest =>
        cases tail_eq
        exact .inr (.inr ⟨rest, rfl, rfl⟩)
  · cases gap with
    | nil =>
        cases tail_eq
        exact .inl ⟨by simp, rfl, rfl⟩
    | cons first rest =>
        cases tail_eq
        exact .inr (.inl ⟨rest, rfl, rfl⟩)

namespace Sheltered

variable {text : String}

/-- Removing a declaration that may go. -/
theorem removeAt
    {front back : List Member}
    {removed : Member}
    (sheltered : Sheltered text (front ++ removed :: back))
    (goes : removed.mayGo = true) :
    Sheltered text (removeAt front.length (front ++ removed :: back)) := by
  obtain ⟨before, keeper, after, members_eq, lead_eq, stays, clear⟩ := sheltered
  unfold Member.removeAt
  rw [List.drop_left, List.take_left]
  rcases cases_of_append_cons members_eq with
    ⟨-, rfl, -⟩ | ⟨between, rfl, rfl⟩ | ⟨between, rfl, rfl⟩
  · rw [goes] at stays
    cases stays
  · cases back with
    | nil => exact ⟨before, keeper, between, by simp, lead_eq, stays, clear⟩
    | cons next rest =>
        let atHead := (before ++ keeper :: between).length == 0
        exact ⟨before, keeper, between ++ following atHead removed next :: rest,
          by simp [atHead], lead_eq, stays, clear⟩
  · cases between with
    | nil =>
        rw [lastMayGo_append_cons, lastMayGo_singleton, goes] at clear
        cases clear
    | cons next rest =>
        dsimp only [List.cons_append]
        refine ⟨front ++ following (front.length == 0) removed next :: rest, keeper, after,
          by simp, lead_eq, stays, ?_⟩
        rw [lastMayGo_append_cons, lastMayGo_cons_congr (mayGo_following _ removed next)]
        rw [lastMayGo_append_cons] at clear
        exact clear

/-- Inserting a declaration that stays. -/
theorem insert
    {front back : List Member}
    {new : Member}
    (sheltered : Sheltered text (front ++ back))
    (newStays : new.mayGo = false) : Sheltered text (front ++ new :: back) := by
  obtain ⟨before, keeper, after, members_eq, lead_eq, stays, clear⟩ := sheltered
  have behind
      (gap : List Member)
      (before_eq : before = front ++ gap) : lastMayGo (front ++ new :: gap) = false := by
    rw [lastMayGo_append_cons]
    cases gap with
    | nil => exact newStays
    | cons first rest =>
        rw [before_eq, lastMayGo_append_cons] at clear
        rw [lastMayGo_cons_cons]
        exact clear
  rcases List.append_eq_append_iff.mp members_eq with ⟨gap, rfl, rfl⟩ | ⟨gap, rfl, tail_eq⟩
  · exact ⟨front ++ new :: gap, keeper, after, by simp, lead_eq, stays, behind gap rfl⟩
  · cases gap with
    | nil =>
        cases tail_eq
        exact ⟨_, keeper, after, by simp, lead_eq, stays, behind [] (by simp)⟩
    | cons first rest =>
        cases tail_eq
        exact ⟨before, keeper, rest ++ new :: back, by simp, lead_eq, stays, clear⟩

/-- Inserting a declaration that stays and takes over the lead of the next one. -/
theorem insertLead
    {front rest : List Member}
    {new next : Member}
    (sheltered : Sheltered text (front ++ next :: rest))
    (newStays : new.mayGo = false)
    (takesOver : new.lead = next.lead)
    (nextLead : String) : Sheltered text (front ++ new :: next.withLead nextLead :: rest) := by
  obtain ⟨before, keeper, after, members_eq, lead_eq, stays, clear⟩ := sheltered
  rcases cases_of_append_cons members_eq with
    ⟨rfl, rfl, rfl⟩ | ⟨between, rfl, rfl⟩ | ⟨between, rfl, rfl⟩
  · exact ⟨front, new, _, rfl, takesOver.trans lead_eq, newStays, clear⟩
  · exact ⟨before, keeper, between ++ new :: next.withLead nextLead :: rest, by simp, lead_eq,
      stays, clear⟩
  · refine ⟨front ++ new :: next.withLead nextLead :: between, keeper, after, by simp, lead_eq,
      stays, ?_⟩
    rw [lastMayGo_append_cons] at clear ⊢
    rw [lastMayGo_cons_cons, lastMayGo_cons_congr (mayGo_withLead nextLead next)]
    exact clear

end Sheltered

end Member

/-! ## Declarations that keep their leads -/

namespace Member

/-- Where a declaration stands among some, its counterpart stands among theirs. -/
theorem exists_of_forall₂_append
    {Relation : Member → Member → Prop}
    {front back others : List Member}
    {member : Member}
    (related : List.Forall₂ Relation (front ++ member :: back) others) :
    ∃ newFront other newBack, others = newFront ++ other :: newBack ∧
      List.Forall₂ Relation front newFront ∧ Relation member other := by
  induction front generalizing others with
  | nil =>
      cases related with
      | cons head tail => exact ⟨[], _, _, rfl, .nil, head⟩
  | cons first rest inductionHypothesis =>
      cases related with
      | cons head tail =>
          obtain ⟨newFront, other, newBack, rfl, frontRelated, own⟩ := inductionHypothesis tail
          exact ⟨_ :: newFront, other, newBack, rfl, .cons head frontRelated, own⟩

/-- What becomes of a declaration keeps its lead, and does not go if the declaration stays. -/
structure KeepsLead (member other : Member) : Prop where
  lead_eq : other.lead = member.lead
  stays : member.mayGo = false → other.mayGo = false

theorem KeepsLead.refl (member : Member) : KeepsLead member member where
  lead_eq := rfl
  stays stays := stays

theorem lastMayGo_of_keepsLead
    {members others : List Member}
    (keeps : List.Forall₂ KeepsLead members others)
    (clear : lastMayGo members = false) : lastMayGo others = false := by
  induction keeps with
  | nil => exact clear
  | cons head tail inductionHypothesis =>
      cases tail with
      | nil => exact head.stays clear
      | cons second rest =>
          rw [lastMayGo_cons_cons] at clear ⊢
          exact inductionHypothesis clear

variable {text : String} {members others : List Member}

theorem Sheltered.of_keepsLead
    (sheltered : Sheltered text members)
    (keeps : List.Forall₂ KeepsLead members others) : Sheltered text others := by
  obtain ⟨front, keeper, back, rfl, lead_eq, stays, clear⟩ := sheltered
  obtain ⟨newFront, newKeeper, newBack, rfl, frontKeeps, own⟩ := exists_of_forall₂_append keeps
  exact ⟨newFront, newKeeper, newBack, rfl, own.lead_eq.trans lead_eq, own.stays stays,
    lastMayGo_of_keepsLead frontKeeps clear⟩

theorem Sheltered.append
    (sheltered : Sheltered text members)
    (more : List Member) : Sheltered text (members ++ more) := by
  obtain ⟨front, keeper, back, rfl, lead_eq, stays, clear⟩ := sheltered
  exact ⟨front, keeper, back ++ more, by simp, lead_eq, stays, clear⟩

namespace ShelteredIn

/-- What keeps sheltered leads and the members of classes keeps them below classes as well. -/
theorem congr
    (keepsLead : Sheltered text members → Sheltered text others)
    (keepsClass : ∀ head inner, classDecl head inner ∈ members →
      ∃ newHead, classDecl newHead inner ∈ others)
    (shelteredIn : ShelteredIn text members) : ShelteredIn text others := by
  cases shelteredIn with
  | here sheltered => exact .here (keepsLead sheltered)
  | inside isMember below =>
      obtain ⟨newHead, isStillMember⟩ := keepsClass _ _ isMember
      exact .inside isStillMember below

theorem append
    (shelteredIn : ShelteredIn text members)
    (more : List Member) : ShelteredIn text (members ++ more) :=
  shelteredIn.congr (·.append more) fun head _ isMember =>
    ⟨head, List.mem_append_left more isMember⟩

/-- Changed members shelter the same leads if they keep their leads and no class is changed. -/
theorem of_forall₂
    {Relation : Member → Member → Prop}
    (shelteredIn : ShelteredIn text members)
    (related : List.Forall₂ Relation members others)
    (keeps : ∀ member other, Relation member other → KeepsLead member other)
    (keepsClass : ∀ head inner other, Relation (classDecl head inner) other →
      other = classDecl head inner) : ShelteredIn text others := by
  refine shelteredIn.congr (·.of_keepsLead (related.imp keeps)) fun head inner isMember => ?_
  obtain ⟨front, back, rfl⟩ := List.append_of_mem isMember
  obtain ⟨newFront, other, newBack, rfl, -, own⟩ := exists_of_forall₂_append related
  obtain rfl := keepsClass head inner other own
  exact ⟨head, List.mem_append_right _ List.mem_cons_self⟩

end ShelteredIn

/-! ## Revised declarations -/

/-- A way of rewriting classes that keeps the lead of a class and a lead sheltered in it. -/
structure Shelters
    (text : String)
    (Rewrites : ClassDecl → ClassDecl → ClassDecl → Prop) : Prop where
  lead_eq : ∀ entered inner result, Rewrites entered inner result → result.lead = inner.lead
  members : ∀ entered inner result, Rewrites entered inner result →
    ShelteredIn text inner.members → ShelteredIn text result.members

variable
  {Rewrites : ClassDecl → ClassDecl → ClassDecl → Prop}
  {rewritten : List Nat}

theorem Revised.keepsLead
    (shelters : Shelters text Rewrites)
    {member other : Member}
    (revised : Revised Rewrites rewritten member other) : KeepsLead member other := by
  cases revised with
  | other noClass => exact .refl member
  | kept revised => exact ⟨rfl, fun _ => rfl⟩
  | rewritten revised rewrites => exact ⟨shelters.lead_eq _ _ _ rewrites, fun _ => rfl⟩

theorem RevisedAll.keepsLead
    (shelters : Shelters text Rewrites)
    (revised : RevisedAll Rewrites rewritten members others) :
    List.Forall₂ KeepsLead members others := by
  induction members generalizing rewritten others with
  | nil =>
      cases revised with
      | nil => exact .nil
  | cons first rest inductionHypothesis =>
      cases revised with
      | cons head tail => exact .cons (head.keepsLead shelters) (inductionHypothesis tail)

/-- A class among revised declarations is kept or rewritten, after its members have been revised. -/
theorem RevisedAll.exists_class
    (revised : RevisedAll Rewrites rewritten members others)
    {head : ClassHead}
    {inner : List Member}
    (isMember : classDecl head inner ∈ members) :
    ∃ ids newInner newHead newMembers, RevisedAll Rewrites ids inner newInner ∧
      classDecl newHead newMembers ∈ others ∧
      (newMembers = newInner ∨
        Rewrites ⟨head, inner⟩ ⟨head, newInner⟩ ⟨newHead, newMembers⟩) := by
  induction members generalizing rewritten others with
  | nil => exact absurd isMember List.not_mem_nil
  | cons first rest inductionHypothesis =>
      cases revised with
      | cons own tail =>
          cases isMember with
          | head =>
              cases own with
              | other noClass => cases noClass
              | kept revised => exact ⟨_, _, head, _, revised, List.mem_cons_self, .inl rfl⟩
              | @rewritten _ _ _ _ result revised rewrites =>
                  exact ⟨_, _, result.toClassHead, result.members, revised, List.mem_cons_self,
                    .inr rewrites⟩
          | tail _ later =>
              obtain ⟨ids, newInner, newHead, newMembers, revised, isMember, outcome⟩ :=
                inductionHypothesis tail later
              exact ⟨ids, newInner, newHead, newMembers, revised,
                List.mem_cons_of_mem _ isMember, outcome⟩

/-- Rewriting classes keeps a sheltered lead, however deep it is. -/
theorem ShelteredIn.revised
    (shelters : Shelters text Rewrites)
    (shelteredIn : ShelteredIn text members)
    (revised : RevisedAll Rewrites rewritten members others) : ShelteredIn text others := by
  induction shelteredIn generalizing rewritten others with
  | here sheltered => exact .here (sheltered.of_keepsLead (revised.keepsLead shelters))
  | inside isMember _ inductionHypothesis =>
      obtain ⟨ids, newInner, newHead, newMembers, revisedInner, isNewMember, outcome⟩ :=
        revised.exists_class isMember
      have below := inductionHypothesis revisedInner
      cases outcome with
      | inl same => exact .inside isNewMember (same ▸ below)
      | inr rewrites => exact .inside isNewMember (shelters.members _ _ _ rewrites below)

end Member

end JupiterMigration
