import JupiterMigration.Proofs.Imports.Changes
import JupiterMigration.Proofs.Numbering.Erasure
import JupiterMigration.Proofs.Renumbering.Stages
import JupiterMigration.Proofs.Revision.Basic
import Mathlib.Data.String.Basic

/-!
# Asking for several imports

A new import is written next to an import of its group, and only the tests that the searches make
decide where (`Imports.InsertsAt`).  Only where its group is missing do imports of the other group
matter, or the package.  Two new imports get to the same places in whichever order they are inserted
(`Imports.insert_comm`), so that it does not matter in which order two names are asked for
(`Imports.ensure_comm`).
-/

namespace JupiterMigration.Imports

/-- The import of a name as a new declaration. -/
def newImport (id : Nat) (name : String) (isStatic : Bool) (lead : String) : Member :=
  .importDecl (.declare id name isStatic lead)

variable {id firstId secondId : Nat} {name first second lead : String} {isStatic : Bool}
  {member next last : Member}
  {members front back : List Member}

/-! ## Tests of declarations -/

@[simp]
theorem isImportOf_withLead (group : Bool) (lead : String) (member : Member) :
    (member.withLead lead).isImportOf group = member.isImportOf group := by
  cases member <;> rfl

@[simp]
theorem isImportAfter_withLead (name : String) (group : Bool) (lead : String) (member : Member) :
    (member.withLead lead).isImportAfter name group = member.isImportAfter name group := by
  cases member <;> rfl

@[simp]
theorem isImport_newImport (id : Nat) (name : String) (isStatic : Bool) (lead : String) :
    (newImport id name isStatic lead).isImport = true := rfl

@[simp]
theorem isImportOf_newImport (id : Nat) (name : String) (isStatic group : Bool) (lead : String) :
    (newImport id name isStatic lead).isImportOf group = (isStatic == group) := rfl

@[simp]
theorem isImportAfter_newImport (id : Nat) (name other : String) (isStatic group : Bool)
    (lead : String) :
    (newImport id other isStatic lead).isImportAfter name group =
      (isStatic == group && decide (name < other)) := rfl

@[simp]
theorem lead_newImport (id : Nat) (name : String) (isStatic : Bool) (lead : String) :
    (newImport id name isStatic lead).lead = lead := rfl

@[simp]
theorem withLead_newImport (id : Nat) (name : String) (isStatic : Bool) (lead nextLead : String) :
    (newImport id name isStatic lead).withLead nextLead = newImport id name isStatic nextLead := rfl

theorem isImportOf_of_isImportAfter (isAfter : member.isImportAfter name isStatic = true) :
    member.isImportOf isStatic = true := by
  obtain ⟨decl, rfl, holds⟩ := exists_of_any isAfter
  exact (Bool.and_eq_true_iff.mp holds).1

theorem isImport_of_isImportOf (isOf : member.isImportOf isStatic = true) :
    member.isImport = true := by
  obtain ⟨decl, rfl, -⟩ := exists_of_any isOf
  rfl

/-- Every import is of one of the two groups. -/
theorem isImport_of_groups
    (noOther : member.isImportOf false = false)
    (noStatic : member.isImportOf true = false) : member.isImport = false := by
  cases member with
  | importDecl decl =>
      have ofGroup : (Member.importDecl decl).isImportOf decl.isStatic = true := beq_self_eq_true _
      cases group : decl.isStatic with
      | true => rw [group, noStatic] at ofGroup; cases ofGroup
      | false => rw [group, noOther] at ofGroup; cases ofGroup
  | _ => rfl

/-- What comes after the later one of two names comes after the earlier one, too. -/
theorem not_isImportAfter_of_lt
    (lt : first < second)
    (notAfter : member.isImportAfter first isStatic = false) :
    member.isImportAfter second isStatic = false := by
  rw [Bool.eq_false_iff] at notAfter ⊢
  intro isAfter
  obtain ⟨decl, rfl, holds⟩ := exists_of_any isAfter
  obtain ⟨sameGroup, later⟩ := Bool.and_eq_true_iff.mp holds
  exact notAfter (Bool.and_eq_true_iff.mpr ⟨sameGroup,
    decide_eq_true (lt_trans lt (of_decide_eq_true later))⟩)

/-! ## What searches find -/

section Searches

variable {p : Member → Bool}

theorem findIdx?_append_cons
    (passed : ∀ other ∈ front, p other = false)
    (holds : p member = true) : (front ++ member :: back).findIdx? p = some front.length := by
  rw [List.findIdx?_append, List.findIdx?_eq_none_iff.mpr passed, List.findIdx?_cons, holds]
  simp

theorem lastIdx?_append_cons
    (holds : p member = true)
    (passed : ∀ other ∈ back, p other = false) :
    lastIdx? p (front ++ member :: back) = some front.length := by
  have reverse_eq :
      (front ++ member :: back).reverse = back.reverse ++ member :: front.reverse := by
    simp
  unfold lastIdx?
  rw [reverse_eq, findIdx?_append_cons (fun other inside => passed other (by simpa using inside))
    holds]
  simp only [Option.map_some, List.length_append, List.length_cons, List.length_reverse,
    Option.some.injEq]
  omega

theorem findIdx?_eq_none (passed : ∀ other ∈ members, p other = false) :
    members.findIdx? p = none :=
  List.findIdx?_eq_none_iff.mpr passed

theorem lastIdx?_eq_none_of_forall (passed : ∀ other ∈ members, p other = false) :
    lastIdx? p members = none := by
  unfold lastIdx?
  rw [findIdx?_eq_none fun other inside => passed other (List.mem_reverse.mp inside)]
  rfl

/-- Either no declaration satisfies a test, or there is a first one that does. -/
theorem none_or_first (p : Member → Bool) (members : List Member) :
    (∀ member ∈ members, p member = false) ∨ ∃ front member back,
      members = front ++ member :: back ∧ p member = true ∧ ∀ other ∈ front, p other = false := by
  cases found : members.findIdx? p with
  | none => exact .inl (List.findIdx?_eq_none_iff.mp found)
  | some position =>
      obtain ⟨front, member, back, members_eq, -, holds, passed⟩ := exists_of_findIdx? found
      exact .inr ⟨front, member, back, members_eq, holds, passed⟩

/-- Either no declaration satisfies a test, or there is a last one that does. -/
theorem none_or_last (p : Member → Bool) (members : List Member) :
    (∀ member ∈ members, p member = false) ∨ ∃ front member back,
      members = front ++ member :: back ∧ p member = true ∧ ∀ other ∈ back, p other = false := by
  cases found : lastIdx? p members with
  | none => exact .inl (lastIdx?_eq_none found)
  | some position =>
      obtain ⟨front, member, back, members_eq, -, holds, passed⟩ := exists_of_lastIdx? found
      exact .inr ⟨front, member, back, members_eq, holds, passed⟩

end Searches

theorem insertBefore_append (decl : String → Member) (nextLead : String) :
    insertBefore front.length decl nextLead (front ++ next :: back) =
      front ++ decl next.lead :: next.withLead nextLead :: back := by
  unfold insertBefore
  rw [List.drop_left, List.take_left]

theorem insertAfter_append (decl : Member) :
    insertAfter front.length decl (front ++ last :: back) = front ++ last :: decl :: back := by
  have parts : front ++ last :: back = (front ++ [last]) ++ back := by simp
  have length_eq : front.length + 1 = (front ++ [last]).length := by simp
  unfold insertAfter
  rw [parts, length_eq, List.take_left, List.drop_left]
  simp

/-! ## Where a new import is written -/

/--
A new import is written next to an import of its group, between some declarations: before it, if it
is the first one whose name comes after the new one, and otherwise behind the last of the group.
-/
inductive InsertsAt (id : Nat) (name : String) (isStatic : Bool) :
    List Member → Member → List Member → List Member → Prop
  | before {front back : List Member} {next : Member}
      (isAfter : next.isImportAfter name isStatic = true)
      (passed : ∀ member ∈ front, member.isImportAfter name isStatic = false) :
      InsertsAt id name isStatic front next back
        [newImport id name isStatic next.lead, next.withLead "\n"]
  | behind {front back : List Member} {last : Member}
      (isOf : last.isImportOf isStatic = true)
      (passed : ∀ member ∈ front ++ [last], member.isImportAfter name isStatic = false)
      (isLast : ∀ member ∈ back, member.isImportOf isStatic = false) :
      InsertsAt id name isStatic front last back [last, newImport id name isStatic "\n"]

theorem isImportAfter_of_isImportOf
    (noneOf : ∀ member ∈ members, member.isImportOf isStatic = false)
    (name : String) : ∀ member ∈ members, member.isImportAfter name isStatic = false := by
  intro member inside
  rw [Bool.eq_false_iff]
  intro isAfter
  have isOf := isImportOf_of_isImportAfter isAfter
  rw [noneOf member inside] at isOf
  cases isOf

theorem exists_lastIdx?_of_isImportOf
    (isOf : member.isImportOf isStatic = true)
    (inside : member ∈ members) :
    ∃ position, lastIdx? (Member.isImportOf isStatic) members = some position := by
  cases found : lastIdx? (Member.isImportOf isStatic) members with
  | some position => exact ⟨position, rfl⟩
  | none =>
      rw [lastIdx?_eq_none found member inside] at isOf
      cases isOf

theorem insert_of_insertsAt
    {written : List Member}
    (insertsAt : InsertsAt id name isStatic front member back written) :
    insert id name isStatic (front ++ member :: back) = front ++ (written ++ back) := by
  unfold insert
  dsimp only
  cases insertsAt with
  | before isAfter passed =>
      obtain ⟨position, found⟩ := exists_lastIdx?_of_isImportOf
        (isImportOf_of_isImportAfter isAfter) (List.mem_append_right front List.mem_cons_self)
      rw [found]
      dsimp only
      rw [findIdx?_append_cons passed isAfter]
      exact insertBefore_append _ _
  | behind isOf passed isLast =>
      rw [lastIdx?_append_cons isOf isLast]
      dsimp only
      rw [findIdx?_eq_none]
      · exact insertAfter_append _
      · intro other inside
        rw [← List.singleton_append, ← List.append_assoc, List.mem_append] at inside
        exact inside.elim (passed other) (isImportAfter_of_isImportOf isLast name other)

theorem insert_before
    (isAfter : next.isImportAfter name isStatic = true)
    (passed : ∀ member ∈ front, member.isImportAfter name isStatic = false) :
    insert id name isStatic (front ++ next :: back) =
      front ++ newImport id name isStatic next.lead :: next.withLead "\n" :: back :=
  insert_of_insertsAt (.before isAfter passed)

theorem insert_behind
    (isOf : last.isImportOf isStatic = true)
    (passed : ∀ member ∈ front ++ [last], member.isImportAfter name isStatic = false)
    (isLast : ∀ member ∈ back, member.isImportOf isStatic = false) :
    insert id name isStatic (front ++ last :: back) =
      front ++ last :: newImport id name isStatic "\n" :: back :=
  insert_of_insertsAt (.behind isOf passed isLast)

/-- If there is an import of its group, a new import is written next to one. -/
theorem exists_insertsAt
    (id : Nat)
    (name : String)
    (isOf : member.isImportOf isStatic = true)
    (inside : member ∈ members) :
    ∃ front anchor back written, members = front ++ anchor :: back ∧
      InsertsAt id name isStatic front anchor back written := by
  rcases none_or_first (Member.isImportAfter name isStatic) members with
    noneAfter | ⟨front, next, back, rfl, isAfter, passed⟩
  · rcases none_or_last (Member.isImportOf isStatic) members with
      noneOf | ⟨front, last, back, rfl, isLastOf, isLast⟩
    · rw [noneOf member inside] at isOf
      cases isOf
    · refine ⟨front, last, back, _, rfl, .behind isLastOf (fun other isBefore => ?_) isLast⟩
      refine noneAfter other ?_
      rw [← List.singleton_append, ← List.append_assoc]
      exact List.mem_append_left _ isBefore
  · exact ⟨front, next, back, _, rfl, .before isAfter passed⟩

/-- Declarations of the other group, and those that are no imports, may be around the place. -/
theorem InsertsAt.congr
    {written newFront newBack : List Member}
    (insertsAt : InsertsAt id name isStatic front member back written)
    (ofFront : ∀ other ∈ newFront, other.isImportOf isStatic = true → other ∈ front)
    (ofBack : ∀ other ∈ newBack, other.isImportOf isStatic = true → other ∈ back) :
    InsertsAt id name isStatic newFront member newBack written := by
  have passes {old new : List Member} {p : Member → Bool}
      (group : ∀ other, p other = true → other.isImportOf isStatic = true)
      (passed : ∀ other ∈ old, p other = false)
      (subset : ∀ other ∈ new, other.isImportOf isStatic = true → other ∈ old) :
      ∀ other ∈ new, p other = false := by
    intro other inside
    rw [Bool.eq_false_iff]
    intro holds
    rw [passed other (subset other inside (group other holds))] at holds
    cases holds
  have isOf (other : Member) (isAfter : other.isImportAfter name isStatic = true) :
      other.isImportOf isStatic = true := isImportOf_of_isImportAfter isAfter
  cases insertsAt with
  | before isAfter passed => exact .before isAfter (passes isOf passed ofFront)
  | behind isLastOf passed isLast =>
      refine .behind isLastOf (passes isOf passed fun other inside group => ?_)
        (passes (fun _ holds => holds) isLast ofBack)
      rw [List.mem_append] at inside ⊢
      exact inside.imp_left fun inFront => ofFront other inFront group

/-! ## Where a group is started -/

theorem isImportOf_of_noImport
    (noImport : ∀ member ∈ members, member.isImport = false)
    (isStatic : Bool) : ∀ member ∈ members, member.isImportOf isStatic = false := by
  intro member inside
  rw [Bool.eq_false_iff]
  intro isOf
  have isImport := isImport_of_isImportOf isOf
  rw [noImport member inside] at isImport
  cases isImport

theorem exists_first_of_last
    {position : Nat}
    (found : lastIdx? Member.isImport members = some position) :
    ∃ first, members.findIdx? Member.isImport = some first := by
  cases searched : members.findIdx? Member.isImport with
  | some first => exact ⟨first, rfl⟩
  | none =>
      obtain ⟨front, member, back, rfl, -, isImport, -⟩ := exists_of_lastIdx? found
      rw [List.findIdx?_eq_none_iff.mp searched member (by simp)] at isImport
      cases isImport

/-- A missing static group is started after the last import. -/
theorem insert_static
    (id : Nat)
    (name : String)
    (isLast : last.isImport = true)
    (noneOf : ∀ member ∈ front ++ last :: back, member.isImportOf true = false)
    (passed : ∀ member ∈ back, member.isImport = false) :
    insert id name true (front ++ last :: back) =
      front ++ last :: newImport id name true "\n\n" :: back := by
  have found : lastIdx? Member.isImport (front ++ last :: back) = some front.length :=
    lastIdx?_append_cons isLast passed
  obtain ⟨first, first_eq⟩ := exists_first_of_last found
  unfold insert
  dsimp only
  rw [lastIdx?_eq_none_of_forall noneOf, first_eq, found]
  exact insertAfter_append _

/-- A missing group of other imports is started before the first import. -/
theorem insert_other
    (id : Nat)
    (name : String)
    (isFirst : next.isImport = true)
    (noneOf : ∀ member ∈ front ++ next :: back, member.isImportOf false = false)
    (passed : ∀ member ∈ front, member.isImport = false) :
    insert id name false (front ++ next :: back) =
      front ++ newImport id name false next.lead :: next.withLead "\n\n" :: back := by
  have found : (front ++ next :: back).findIdx? Member.isImport = some front.length :=
    findIdx?_append_cons passed isFirst
  unfold insert
  dsimp only
  rw [lastIdx?_eq_none_of_forall noneOf]
  cases last_eq : lastIdx? Member.isImport (front ++ next :: back) with
  | none =>
      rw [lastIdx?_eq_none last_eq next (by simp)] at isFirst
      cases isFirst
  | some last =>
      rw [found]
      dsimp only
      rw [if_neg Bool.false_ne_true]
      exact insertBefore_append _ _

/-- The first import of a file follows the package, or opens the file. -/
theorem insert_of_noImport
    (noImport : ∀ member ∈ members, member.isImport = false)
    (id : Nat)
    (name : String)
    (isStatic : Bool) :
    insert id name isStatic members =
      (members.findIdx? Member.isPackage).elim
        (insertBefore 0 (newImport id name isStatic) "\n\n" members)
        fun package => insertAfter package (newImport id name isStatic "\n\n") members := by
  unfold insert
  rw [lastIdx?_eq_none_of_forall (isImportOf_of_noImport noImport isStatic),
    findIdx?_eq_none noImport]
  cases members.findIdx? Member.isPackage <;> rfl

/-- The first import of a file has a place and a lead that do not depend on what it imports. -/
theorem exists_insert_of_noImport (noImport : ∀ member ∈ members, member.isImport = false) :
    ∃ front lead back, (∀ member ∈ front, member.isImport = false) ∧
      (∀ member ∈ back, member.isImport = false) ∧
      ∀ id name isStatic, insert id name isStatic members =
        front ++ newImport id name isStatic lead :: back := by
  have insert_eq := fun id => insert_of_noImport noImport id
  rcases none_or_first Member.isPackage members with
    noPackage | ⟨front, package, back, rfl, isPackage, passed⟩
  · rw [findIdx?_eq_none noPackage] at insert_eq
    cases members with
    | nil => exact ⟨[], "", [], by simp, by simp, insert_eq⟩
    | cons next back =>
        refine ⟨[], next.lead, next.withLead "\n\n" :: back, by simp, ?_, insert_eq⟩
        intro member inside
        cases inside with
        | head => exact (Member.isImport_withLead _ next).trans (noImport next List.mem_cons_self)
        | tail _ behind => exact noImport member (List.mem_cons_of_mem next behind)
  · rw [findIdx?_append_cons passed isPackage] at insert_eq
    refine ⟨front ++ [package], "\n\n", back, ?_, ?_, ?_⟩
    · intro member inside
      refine noImport member ?_
      rw [← List.singleton_append, ← List.append_assoc]
      exact List.mem_append_left _ inside
    · exact fun member inside => noImport member (by simp [inside])
    · intro id name isStatic
      rw [insert_eq, Option.elim_some, insertAfter_append, List.append_assoc,
        List.singleton_append]

/-- The first import of a group has a place and a lead that do not depend on its name. -/
theorem exists_insert_of_noneOf
    (noneOf : ∀ member ∈ members, member.isImportOf isStatic = false) :
    ∃ front lead back, (∀ member ∈ front, member.isImportOf isStatic = false) ∧
      (∀ member ∈ back, member.isImportOf isStatic = false) ∧
      ∀ id name, insert id name isStatic members =
        front ++ newImport id name isStatic lead :: back := by
  cases isStatic with
  | true =>
      rcases none_or_last Member.isImport members with
        noImport | ⟨front, last, back, rfl, isLast, passed⟩
      · obtain ⟨front, lead, back, inFront, inBack, insert_eq⟩ := exists_insert_of_noImport noImport
        exact ⟨front, lead, back, isImportOf_of_noImport inFront _,
          isImportOf_of_noImport inBack _,
          fun id name => insert_eq id name true⟩
      · refine ⟨front ++ [last], "\n\n", back, ?_, isImportOf_of_noImport passed _,
          fun id name => ?_⟩
        · exact fun member inside => noneOf member (by simp at inside ⊢; tauto)
        · rw [insert_static id name isLast noneOf passed, List.append_assoc, List.singleton_append]
  | false =>
      rcases none_or_first Member.isImport members with
        noImport | ⟨front, next, back, rfl, isFirst, passed⟩
      · obtain ⟨front, lead, back, inFront, inBack, insert_eq⟩ := exists_insert_of_noImport noImport
        exact ⟨front, lead, back, isImportOf_of_noImport inFront _,
          isImportOf_of_noImport inBack _,
          fun id name => insert_eq id name false⟩
      · refine ⟨front, next.lead, next.withLead "\n\n" :: back, isImportOf_of_noImport passed _, ?_,
          fun id name => insert_other id name isFirst noneOf passed⟩
        intro member inside
        cases inside with
        | head => exact (isImportOf_withLead _ _ _).trans (noneOf next (by simp))
        | tail _ behind => exact noneOf member (List.mem_append_right front (.tail next behind))

/-! ## Two imports of one group -/

/-- A declaration that stays before an insertion may be another one of its group. -/
theorem exists_insert_of_notAfter
    (id : Nat)
    (name : String)
    (isOf : next.isImportOf isStatic = true)
    (notAfter : next.isImportAfter name isStatic = false)
    (back : List Member) :
    ∃ rest, ∀ front other, (∀ member ∈ front, member.isImportAfter name isStatic = false) →
      other.isImportOf isStatic = true → other.isImportAfter name isStatic = false →
      insert id name isStatic (front ++ other :: back) = front ++ other :: rest := by
  obtain ⟨passed, anchor, behind, written, members_eq, insertsAt⟩ :=
    exists_insertsAt id name isOf (List.mem_cons_self (l := back))
  cases passed with
  | nil =>
      rw [List.nil_append, List.cons.injEq] at members_eq
      obtain ⟨rfl, rfl⟩ := members_eq
      cases insertsAt with
      | before isAfter passed =>
          rw [notAfter] at isAfter
          cases isAfter
      | behind isLastOf passed isLast =>
          refine ⟨newImport id name isStatic "\n" :: back,
            fun front other inFront isOf notAfter => ?_⟩
          refine insert_behind isOf (fun member inside => ?_) isLast
          rcases List.mem_append.mp inside with inside | inside
          · exact inFront member inside
          · exact List.mem_singleton.mp inside ▸ notAfter
  | cons first passed =>
      rw [List.cons_append, List.cons.injEq] at members_eq
      obtain ⟨rfl, rfl⟩ := members_eq
      refine ⟨passed ++ (written ++ behind), fun front other inFront isOf notAfter => ?_⟩
      have passes
          (more : List Member)
          (inMore : ∀ member ∈ next :: (passed ++ more),
            member.isImportAfter name isStatic = false) :
          ∀ member ∈ front ++ other :: passed ++ more,
            member.isImportAfter name isStatic = false := by
        intro member inside
        rw [List.append_assoc, List.cons_append, List.mem_append, List.mem_cons] at inside
        rcases inside with inside | rfl | inside
        · exact inFront member inside
        · exact notAfter
        · exact inMore member (List.mem_cons_of_mem next inside)
      have insertsAt :
          InsertsAt id name isStatic (front ++ other :: passed) anchor behind written := by
        cases insertsAt with
        | before isAfter passed =>
            refine .before isAfter ?_
            simpa only [List.append_nil] using passes [] (by simpa using passed)
        | behind isLastOf passed isLast => exact .behind isLastOf (passes _ passed) isLast
      have insert_eq := insert_of_insertsAt insertsAt
      rwa [List.append_assoc, List.cons_append, List.append_assoc, List.cons_append] at insert_eq

/-- Names that no import of the group comes after share their place. -/
theorem exists_insert_of_noneAfter
    (noneAfter : ∀ member ∈ members, member.isImportAfter first isStatic = false) :
    ∃ front lead back, (∀ member ∈ front, member.isImportAfter first isStatic = false) ∧
      (∀ member ∈ back, member.isImportOf isStatic = false) ∧
      ∀ id name, (∀ member ∈ members, member.isImportAfter name isStatic = false) →
        insert id name isStatic members = front ++ newImport id name isStatic lead :: back := by
  rcases none_or_last (Member.isImportOf isStatic) members with
    noneOf | ⟨front, last, back, rfl, isLastOf, isLast⟩
  · obtain ⟨front, lead, back, inFront, inBack, insert_eq⟩ := exists_insert_of_noneOf noneOf
    exact ⟨front, lead, back, isImportAfter_of_isImportOf inFront first, inBack,
      fun id name _ => insert_eq id name⟩
  · have inFront {name : String}
        (noneAfter : ∀ member ∈ front ++ last :: back,
          member.isImportAfter name isStatic = false) :
        ∀ member ∈ front ++ [last], member.isImportAfter name isStatic = false :=
      fun member inside => noneAfter member (by simp at inside ⊢; tauto)
    refine ⟨front ++ [last], "\n", back, inFront noneAfter, isLast, fun id name noneAfter => ?_⟩
    rw [insert_behind isLastOf (inFront noneAfter) isLast]
    simp

/-- Two imports of one group get to the same places in either order. -/
theorem insert_comm_of_lt
    (lt : first < second)
    (isStatic : Bool)
    (members : List Member) :
    insert secondId second isStatic (insert firstId first isStatic members) =
      insert firstId first isStatic (insert secondId second isStatic members) := by
  have secondIsAfter (lead : String) :
      (newImport secondId second isStatic lead).isImportAfter first isStatic = true := by simp [lt]
  have firstIsNotAfter (lead : String) :
      (newImport firstId first isStatic lead).isImportAfter second isStatic = false := by
    simp [lt_asymm lt]
  have passes {front : List Member} (lead : String)
      (passed : ∀ member ∈ front, member.isImportAfter first isStatic = false) :
      ∀ member ∈ front ++ [newImport firstId first isStatic lead],
        member.isImportAfter second isStatic = false := by
    intro member inside
    rcases List.mem_append.mp inside with inside | inside
    · exact not_isImportAfter_of_lt lt (passed member inside)
    · exact List.mem_singleton.mp inside ▸ firstIsNotAfter lead
  rcases none_or_first (Member.isImportAfter first isStatic) members with
    noneAfter | ⟨front, next, back, rfl, isAfter, passed⟩
  · obtain ⟨front, lead, back, inFront, isLast, insert_eq⟩ := exists_insert_of_noneAfter noneAfter
    rw [insert_eq firstId first noneAfter, insert_eq secondId second fun member inside =>
        not_isImportAfter_of_lt lt (noneAfter member inside),
      insert_before (secondIsAfter lead) inFront,
      insert_behind (by simp) (passes lead inFront) isLast]
    rfl
  · have inFront : ∀ member ∈ front, member.isImportAfter second isStatic = false :=
      fun member inside => not_isImportAfter_of_lt lt (passed member inside)
    have insert_first : insert firstId first isStatic (front ++ next :: back) =
        (front ++ [newImport firstId first isStatic next.lead]) ++ next.withLead "\n" :: back := by
      rw [insert_before isAfter passed]
      simp
    rw [insert_first]
    cases isAfterSecond : next.isImportAfter second isStatic with
    | true =>
        rw [insert_before (by simpa using isAfterSecond) (passes next.lead passed),
          insert_before isAfterSecond inFront, insert_before (secondIsAfter next.lead) passed]
        simp
    | false =>
        have isOf := isImportOf_of_isImportAfter isAfter
        obtain ⟨rest, insert_second⟩ :=
          exists_insert_of_notAfter secondId second isOf isAfterSecond back
        rw [insert_second _ _ (passes next.lead passed) (by simpa using isOf)
            (by simpa using isAfterSecond),
          insert_second _ _ inFront isOf isAfterSecond,
          insert_before isAfter passed]
        simp

/-! ## Imports of different groups -/

theorem not_static_of_other
    (isOther : member.isImportOf false = true) : member.isImportOf true = false := by
  obtain ⟨decl, rfl, holds⟩ := exists_of_any isOther
  obtain group : decl.isStatic = false := of_decide_eq_true holds
  change (decl.isStatic == true) = false
  rw [group]
  rfl

/-- A declaration of two stretches is in the one or in the other. -/
theorem cases_of_append_eq
    {middle behind : List Member}
    (parts : front ++ back = middle ++ member :: behind) :
    (∃ between, middle = front ++ between ∧ back = between ++ member :: behind) ∨
      ∃ between, front = middle ++ member :: between ∧ behind = between ++ back := by
  rcases List.append_eq_append_iff.mp parts with h | ⟨between, rfl, back_eq⟩
  · exact .inl h
  · rcases List.cons_eq_append_iff.mp back_eq with ⟨rfl, rfl⟩ | ⟨between, rfl, rfl⟩
    · exact .inl ⟨[], by simp, rfl⟩
    · exact .inr ⟨between, rfl, rfl⟩

/-- A static import leaves a group of other imports missing. -/
theorem noneOf_insert_static
    (noneOf : ∀ member ∈ members, member.isImportOf false = false)
    (id : Nat)
    (name : String) :
    ∀ member ∈ insert id name true members, member.isImportOf false = false := by
  intro member inside
  rw [Bool.eq_false_iff]
  intro isOther
  obtain ⟨decl, rfl, group⟩ := exists_of_any isOther
  have isOther : decl.isStatic = false := beq_iff_eq.mp group
  obtain ⟨front, back, rfl, -, imports_eq⟩ := exists_place id name true members
  have isBare := mem_bareImports.mpr ⟨decl, inside, rfl⟩
  rw [imports_eq, List.mem_append, List.mem_cons, or_left_comm, ← List.mem_append,
    ← bareImports_append] at isBare
  rcases isBare with bare_eq | isOld
  · have isStatic : decl.isStatic = true := congrArg Import.isStatic bare_eq
    rw [isOther] at isStatic
    cases isStatic
  · exact not_of_group noneOf _ isOld isOther

/-- What is written for a new import is of its group. -/
theorem InsertsAt.isImportOf
    {written : List Member}
    (insertsAt : InsertsAt id name isStatic front member back written) :
    member.isImportOf isStatic = true ∧ written ≠ [] ∧
      ∀ other ∈ written, other.isImportOf isStatic = true := by
  cases insertsAt with
  | before isAfter passed =>
      have isOf := isImportOf_of_isImportAfter isAfter
      exact ⟨isOf, by simp, by simp [isOf]⟩
  | behind isOf passed isLast => exact ⟨isOf, by simp, by simp [isOf]⟩

theorem mem_around
    {p : Member → Bool}
    {middle : List Member}
    (passed : ∀ member ∈ middle, p member = false) :
    ∀ member ∈ front ++ (middle ++ back), p member = true → member ∈ front ++ back := by
  intro member inside holds
  simp only [List.mem_append] at inside ⊢
  rcases inside with inFront | inMiddle | inBack
  · exact .inl inFront
  · rw [passed member inMiddle] at holds
    cases holds
  · exact .inr inBack

theorem not_static_of_others
    {others : List Member}
    (ofOthers : ∀ member ∈ others, member.isImportOf false = true) :
    ∀ member ∈ others, member.isImportOf true = false :=
  fun member inside => not_static_of_other (ofOthers member inside)

/--
A static import leaves a stretch of other imports as it is, and what it makes of the declarations
around the stretch does not depend on it.
-/
structure InsertsAround (id : Nat) (name : String) (front back newFront newBack : List Member) :
    Prop where
  inFront : ∀ member ∈ newFront, member.isImportOf false = true → member ∈ front
  inBack : ∀ member ∈ newBack, member.isImportOf false = true → member ∈ back
  insert_eq : ∀ others ≠ [], (∀ member ∈ others, member.isImportOf false = true) →
    insert id name true (front ++ (others ++ back)) = newFront ++ (others ++ newBack)

/-- A further static import has its place beside those that there are. -/
theorem exists_insertsAround_of_static
    (id : Nat)
    (name : String)
    {static : Member}
    (inside : static ∈ front ++ back)
    (isOf : static.isImportOf true = true) :
    ∃ newFront newBack, InsertsAround id name front back newFront newBack := by
  obtain ⟨before, anchor, behind, written, parts, insertsAt⟩ := exists_insertsAt id name isOf inside
  have notOther : ∀ member ∈ written, member.isImportOf false = false := by
    intro member inside
    rw [Bool.eq_false_iff]
    intro isOther
    have isOf := insertsAt.isImportOf.2.2 member inside
    rw [not_static_of_other isOther] at isOf
    cases isOf
  rcases cases_of_append_eq parts with ⟨between, rfl, rfl⟩ | ⟨between, rfl, rfl⟩
  · refine ⟨front, between ++ (written ++ behind), fun member inside _ => inside,
      fun member inside isOther => ?_, fun others _ ofOthers => ?_⟩
    · exact ((List.sublist_cons_self anchor behind).append_left between).subset
        (mem_around notOther member inside isOther)
    · have aside : InsertsAt id name true (front ++ (others ++ between)) anchor behind written :=
        insertsAt.congr (mem_around (not_static_of_others ofOthers)) fun member inside _ => inside
      simpa using insert_of_insertsAt aside
  · refine ⟨before ++ (written ++ between), back, fun member inside isOther => ?_,
      fun member inside _ => inside, fun others _ ofOthers => ?_⟩
    · exact ((List.sublist_cons_self anchor between).append_left before).subset
        (mem_around notOther member inside isOther)
    · have aside : InsertsAt id name true before anchor (between ++ (others ++ back)) written :=
        insertsAt.congr (fun member inside _ => inside)
          (mem_around (not_static_of_others ofOthers))
      simpa using insert_of_insertsAt aside

/-- The first static import comes behind the last import, which may be in the stretch. -/
theorem exists_insertsAround_of_noStatic
    (id : Nat)
    (name : String)
    (noStatic : ∀ member ∈ front ++ back, member.isImportOf true = false) :
    ∃ newFront newBack, InsertsAround id name front back newFront newBack := by
  have noneOfAll {others : List Member}
      (ofOthers : ∀ member ∈ others, member.isImportOf false = true) :
      ∀ member ∈ front ++ (others ++ back), member.isImportOf true = false := by
    intro member inside
    rw [Bool.eq_false_iff]
    intro isOf
    have isAround := mem_around (not_static_of_others ofOthers) member inside isOf
    rw [noStatic member isAround] at isOf
    cases isOf
  rcases none_or_last Member.isImport back with
    noImport | ⟨inside, last, behind, rfl, isLast, passed⟩
  · refine ⟨front, newImport id name true "\n\n" :: back, fun member inside _ => inside, ?_, ?_⟩
    · intro member inside isOther
      cases inside with
      | head => cases isOther
      | tail _ inside => exact inside
    · intro others nonempty ofOthers
      obtain ⟨before, last, rfl⟩ := (List.eq_nil_or_concat others).resolve_left nonempty
      have noneOf : ∀ member ∈ (front ++ before) ++ last :: back,
          member.isImportOf true = false := by
        simpa using noneOfAll ofOthers
      have insert_eq := insert_static id name
        (isImport_of_isImportOf (ofOthers last (by simp))) noneOf noImport
      simpa using insert_eq
  · refine ⟨front, inside ++ last :: newImport id name true "\n\n" :: behind,
      fun member inside _ => inside, ?_, ?_⟩
    · intro member inside isOther
      simp only [List.mem_append, List.mem_cons] at inside ⊢
      rcases inside with inside | inside | rfl | inside
      · exact .inl inside
      · exact .inr (.inl inside)
      · cases isOther
      · exact .inr (.inr inside)
    · intro others _ ofOthers
      have noneOf : ∀ member ∈ (front ++ (others ++ inside)) ++ last :: behind,
          member.isImportOf true = false := by
        simpa using noneOfAll ofOthers
      have insert_eq := insert_static id name isLast noneOf passed
      simpa using insert_eq

theorem exists_insertsAround (id : Nat) (name : String) (front back : List Member) :
    ∃ newFront newBack, InsertsAround id name front back newFront newBack := by
  by_cases present : ∃ member ∈ front ++ back, member.isImportOf true = true
  · obtain ⟨static, inside, isOf⟩ := present
    exact exists_insertsAround_of_static id name inside isOf
  · exact exists_insertsAround_of_noStatic id name fun member inside =>
      Bool.eq_false_iff.mpr fun isOf => present ⟨member, inside, isOf⟩

/-- Beside another import that stays, imports of different groups get to the same places. -/
theorem insert_comm_of_other
    (otherId staticId : Nat)
    (other static : String)
    {member : Member}
    (inside : member ∈ members)
    (isOf : member.isImportOf false = true) :
    insert staticId static true (insert otherId other false members) =
      insert otherId other false (insert staticId static true members) := by
  obtain ⟨front, anchor, back, written, rfl, insertsAt⟩ :=
    exists_insertsAt otherId other isOf inside
  obtain ⟨isOther, nonempty, ofWritten⟩ := insertsAt.isImportOf
  obtain ⟨newFront, newBack, around⟩ := exists_insertsAround staticId static front back
  have insertsAround : InsertsAt otherId other false newFront anchor newBack written :=
    insertsAt.congr around.inFront around.inBack
  have insert_static := around.insert_eq [anchor] (by simp) (by simpa using isOther)
  rw [List.singleton_append, List.singleton_append] at insert_static
  rw [insert_of_insertsAt insertsAt, around.insert_eq written nonempty ofWritten, insert_static,
    insert_of_insertsAt insertsAround]

/-- The first two imports of a file get to the same places if they are of different groups. -/
theorem insert_comm_of_noImport
    (otherId staticId : Nat)
    (other static : String)
    (noImport : ∀ member ∈ members, member.isImport = false) :
    insert staticId static true (insert otherId other false members) =
      insert otherId other false (insert staticId static true members) := by
  obtain ⟨front, lead, back, inFront, inBack, insert_eq⟩ := exists_insert_of_noImport noImport
  rw [insert_eq, insert_eq, insert_static staticId static rfl ?_ inBack,
    insert_other otherId other rfl ?_ inFront]
  · simp
  · rw [← insert_eq]
    exact noneOf_insert_static (isImportOf_of_noImport noImport false) staticId static
  · intro member inside
    rcases List.mem_append.mp inside with inside | inside
    · exact isImportOf_of_noImport inFront true member inside
    · cases inside with
      | head => rfl
      | tail _ inside => exact isImportOf_of_noImport inBack true member inside

/-- Where all imports are static, another import comes before the first one. -/
theorem insert_comm_of_first
    (otherId staticId : Nat)
    (other static : String)
    {first : Member}
    (isFirst : first.isImport = true)
    (noneOf : ∀ member ∈ front ++ first :: back, member.isImportOf false = false)
    (passed : ∀ member ∈ front, member.isImport = false) :
    insert staticId static true (insert otherId other false (front ++ first :: back)) =
      insert otherId other false (insert staticId static true (front ++ first :: back)) := by
  have isStatic : first.isImportOf true = true := by
    cases isOf : first.isImportOf true with
    | true => rfl
    | false =>
        rw [isImport_of_groups (noneOf first (by simp)) isOf] at isFirst
        cases isFirst
  have inFront : ∀ member ∈ front, member.isImportAfter static true = false :=
    isImportAfter_of_isImportOf (isImportOf_of_noImport passed true) static
  have inNewFront : ∀ member ∈ front ++ [newImport otherId other false first.lead],
      member.isImportAfter static true = false := by
    intro member inside
    rcases List.mem_append.mp inside with inside | inside
    · exact inFront member inside
    · exact List.mem_singleton.mp inside ▸ rfl
  have insert_first : insert otherId other false (front ++ first :: back) =
      (front ++ [newImport otherId other false first.lead]) ++ first.withLead "\n\n" :: back := by
    rw [insert_other otherId other isFirst noneOf passed]
    simp
  have noneOf_static := noneOf_insert_static noneOf staticId static
  rw [insert_first]
  cases isAfter : first.isImportAfter static true with
  | true =>
      rw [insert_before isAfter inFront] at noneOf_static ⊢
      rw [insert_before (by simpa using isAfter) inNewFront,
        insert_other otherId other rfl noneOf_static passed]
      simp
  | false =>
      obtain ⟨rest, insert_static⟩ :=
        exists_insert_of_notAfter staticId static isStatic isAfter back
      rw [insert_static _ _ inFront isStatic isAfter] at noneOf_static ⊢
      rw [insert_static _ _ inNewFront (by simpa using isStatic) (by simpa using isAfter),
        insert_other otherId other isFirst noneOf_static passed]
      simp

/-- Imports of different groups get to the same places in either order. -/
theorem insert_comm_groups
    (otherId staticId : Nat)
    (other static : String)
    (members : List Member) :
    insert staticId static true (insert otherId other false members) =
      insert otherId other false (insert staticId static true members) := by
  by_cases present : ∃ member ∈ members, member.isImportOf false = true
  · obtain ⟨member, inside, isOf⟩ := present
    exact insert_comm_of_other otherId staticId other static inside isOf
  · have noneOf : ∀ member ∈ members, member.isImportOf false = false :=
      fun member inside => Bool.eq_false_iff.mpr fun isOf => present ⟨member, inside, isOf⟩
    rcases none_or_first Member.isImport members with
      noImport | ⟨front, first, back, rfl, isFirst, passed⟩
    · exact insert_comm_of_noImport otherId staticId other static noImport
    · exact insert_comm_of_first otherId staticId other static isFirst noneOf passed

/-! ## Two names that are asked for -/

/-- New imports get to the same places in whichever order they are inserted. -/
theorem insert_comm
    {id otherId : Nat}
    {name other : String}
    {isStatic group : Bool}
    (distinct : (name, isStatic) ≠ (other, group))
    (members : List Member) :
    insert otherId other group (insert id name isStatic members) =
      insert id name isStatic (insert otherId other group members) := by
  by_cases sameGroup : isStatic = group
  · subst sameGroup
    rcases lt_trichotomy name other with lt | rfl | gt
    · exact insert_comm_of_lt lt isStatic members
    · exact absurd rfl distinct
    · exact (insert_comm_of_lt gt isStatic members).symm
  · cases isStatic with
    | false =>
        obtain rfl : group = true := by simpa using sameGroup
        exact insert_comm_groups id otherId name other members
    | true =>
        obtain rfl : group = false := by simpa using sameGroup
        exact (insert_comm_groups otherId id other name members).symm

/-- A new import covers its own name only. -/
theorem isCovered_insert
    (id : Nat)
    {name other : String}
    {isStatic group : Bool}
    (distinct : (name, isStatic) ≠ (other, group))
    (unit : SourceUnit) :
    isCovered other group { unit with members := insert id name isStatic unit.members } =
      isCovered other group unit := by
  obtain ⟨front, back, members_eq, -, imports_eq⟩ := exists_place id name isStatic unit.members
  have notCovered : (Import.declare id name isStatic "").covers other group = false := by
    rw [Bool.eq_false_iff]
    intro covers
    obtain ⟨sameGroup, sameName⟩ := Bool.and_eq_true_iff.mp covers
    exact distinct (Prod.ext (beq_iff_eq.mp sameName) (beq_iff_eq.mp sameGroup))
  simp only [isCovered_eq, ← bareImports_members]
  rw [imports_eq, members_eq, bareImports_append, List.any_append, List.any_append, List.any_cons,
    notCovered, Bool.false_or]

/-- A file without numbers in which a name is imported. -/
def ensured (unit : SourceUnit) (name : String × Bool) : SourceUnit :=
  if isCovered name.1 name.2 unit then unit
  else { unit with members := insert 0 name.1 name.2 unit.members }

theorem ensured_of_isCovered
    {unit : SourceUnit}
    {name : String × Bool}
    (covered : isCovered name.1 name.2 unit = true) : ensured unit name = unit :=
  if_pos covered

theorem ensured_of_not_isCovered
    {unit : SourceUnit}
    {name : String × Bool}
    (uncovered : isCovered name.1 name.2 unit = false) :
    ensured unit name = { unit with members := insert 0 name.1 name.2 unit.members } :=
  if_neg (Bool.eq_false_iff.mp uncovered)

theorem ensured_comm (unit : SourceUnit) (name other : String × Bool) :
    ensured (ensured unit name) other = ensured (ensured unit other) name := by
  by_cases same : name = other
  · rw [same]
  have unaffected := isCovered_insert 0 same unit
  have otherUnaffected := isCovered_insert 0 (Ne.symm same) unit
  cases covered : isCovered name.1 name.2 unit with
  | true =>
      rw [ensured_of_isCovered covered]
      cases otherCovered : isCovered other.1 other.2 unit with
      | true => rw [ensured_of_isCovered otherCovered, ensured_of_isCovered covered]
      | false =>
          rw [ensured_of_not_isCovered otherCovered,
            ensured_of_isCovered (otherUnaffected.trans covered)]
  | false =>
      rw [ensured_of_not_isCovered covered]
      cases otherCovered : isCovered other.1 other.2 unit with
      | true =>
          rw [ensured_of_isCovered (unaffected.trans otherCovered),
            ensured_of_isCovered otherCovered, ensured_of_not_isCovered covered]
      | false =>
          rw [ensured_of_not_isCovered (unaffected.trans otherCovered),
            ensured_of_not_isCovered otherCovered,
            ensured_of_not_isCovered (otherUnaffected.trans covered)]
          simp only [insert_comm same]

theorem unnumberedAll_insert
    (id : Nat)
    (name : String)
    (isStatic : Bool)
    (members : List Member) :
    Member.unnumberedAll (insert id name isStatic members) =
      insert 0 name isStatic (Member.unnumberedAll members) := by
  rw [Member.unnumberedAll_eq, Member.unnumberedAll_eq, ← insert_renumbered id]

theorem isCovered_unnumbered (name : String) (isStatic : Bool) (unit : SourceUnit) :
    isCovered name isStatic unit.unnumbered = isCovered name isStatic unit := by
  rw [SourceUnit.unnumbered, Member.unnumberedAll_eq]
  exact isCovered_renumbered 0 unit name isStatic

/-- The changes that ask for names, one after the other. -/
def ensureAll (names : List (String × Bool)) : List Change :=
  names.map fun name => .ensure name.1 name.2

theorem unnumbered_ensure
    (name : String × Bool)
    (unit : SourceUnit)
    (session : Session) :
    (((ensure name.1 name.2 unit).run session).1.getD unit).unnumbered =
      ensured unit.unnumbered name := by
  unfold ensure
  cases covered : isCovered name.1 name.2 unit with
  | true => exact (ensured_of_isCovered ((isCovered_unnumbered _ _ _).trans covered)).symm
  | false =>
      rw [ensured_of_not_isCovered ((isCovered_unnumbered _ _ _).trans covered)]
      exact congrArg (fun members => { unit.unnumbered with members })
        (unnumberedAll_insert session.nextId name.1 name.2 unit.members)

theorem unnumbered_makeAll_ensureAll
    (names : List (String × Bool))
    (unit : SourceUnit)
    (session : Session) :
    ((makeAll (ensureAll names) unit).run session).1.unnumbered =
      names.foldl ensured unit.unnumbered := by
  unfold makeAll ensureAll
  induction names generalizing unit session with
  | nil => rfl
  | cons first rest inductionHypothesis =>
      rw [List.map_cons, List.foldlM_cons, Migration.run_bind, List.foldl_cons, inductionHypothesis,
        ← unnumbered_ensure first unit session]
      rfl

/-- Names may be asked for in any order. -/
theorem makeAll_ensureAll_of_perm
    {names others : List (String × Bool)}
    (perm : names.Perm others)
    (unit : SourceUnit)
    (session later : Session) :
    ((makeAll (ensureAll names) unit).run session).1.unnumbered =
      ((makeAll (ensureAll others) unit).run later).1.unnumbered := by
  rw [unnumbered_makeAll_ensureAll, unnumbered_makeAll_ensureAll]
  exact perm.foldl_eq' (fun name _ other _ unit => ensured_comm unit name other) _

/--
Asking for two names gives the same file in either order, to the declarations, their places and what
stands before each of them; only the numbers that are dealt out to new imports are exchanged.
-/
theorem ensure_comm
    (name other : String)
    (isStatic group : Bool)
    (unit : SourceUnit)
    (session later : Session) :
    ((makeAll [.ensure name isStatic, .ensure other group] unit).run session).1.unnumbered =
      ((makeAll [.ensure other group, .ensure name isStatic] unit).run later).1.unnumbered :=
  makeAll_ensureAll_of_perm (List.Perm.swap (other, group) (name, isStatic) []) unit session later

end JupiterMigration.Imports
