import JupiterMigration.Imports
import JupiterMigration.Proofs.Session

/-!
# What a change to the imports does

A change leaves a file as it is, inserts an import of a name that is not covered, or removes one of
its imports (`Imports.cases_of_made`).  What every insertion and every removal keeps is kept by
changes one after the other (`Imports.keeps_makeAll`).

The place of a new import is told by the imports around it (`Imports.exists_place`).
-/

namespace JupiterMigration

/-- What a search finds stands behind what it has passed over. -/
theorem exists_of_findIdx?
    {α : Type}
    {p : α → Bool}
    {items : List α}
    {position : Nat}
    (found : items.findIdx? p = some position) :
    ∃ front item back, items = front ++ item :: back ∧ front.length = position ∧ p item = true ∧
      ∀ other ∈ front, p other = false := by
  obtain ⟨inside, holds, passed⟩ := List.findIdx?_eq_some_iff_getElem.mp found
  have front_length := List.length_take_of_le (Nat.le_of_lt inside)
  refine ⟨items.take position, items[position], items.drop (position + 1), ?_, front_length,
    holds, ?_⟩
  · rw [List.getElem_cons_drop inside, List.take_append_drop]
  · intro other isBefore
    obtain ⟨index, inFront, rfl⟩ := List.getElem_of_mem isBefore
    rw [List.getElem_take]
    exact Bool.eq_false_iff.mpr (passed index (front_length ▸ inFront))

/-- The import without what stands before it. -/
def Import.bare (decl : Import) : Import :=
  { decl with lead := "" }

namespace Imports

/-- The imports among some declarations, without what stands before them. -/
def bareImports (members : List Member) : List Import :=
  members.filterMap fun member => member.import?.map Import.bare

/-! ## Single changes -/

/-- Whether a change removes an import, provided that nothing it provides is used. -/
def Change.removes : Change → Import → Bool
  | ensure _ _, _ => false
  | removeIfUnused name isStatic, decl =>
    !decl.isWildcard && decl.isStatic == isStatic && decl.name == name
  | removeWildcardIfUnused package _, decl =>
    decl.isWildcard && !decl.isStatic && decl.name == package

theorem exists_of_any
    {member : Member}
    {p : Import → Bool}
    (holds : member.import?.any p = true) : ∃ decl, member = .importDecl decl ∧ p decl = true := by
  cases member with
  | importDecl decl => exact ⟨decl, rfl, holds⟩
  | _ => cases holds

/-- What is found by looking for an import is an import. -/
theorem import_of_found
    {members : List Member}
    {p : Import → Bool}
    {position : Nat}
    (found : members.findIdx? (fun member => member.import?.any p) = some position) :
    ∃ decl, members[position]? = some (.importDecl decl) ∧ p decl = true := by
  obtain ⟨inside, holds, -⟩ := List.findIdx?_eq_some_iff_getElem.mp found
  obtain ⟨decl, member_eq, named⟩ := exists_of_any holds
  exact ⟨decl, List.getElem?_eq_some_iff.mpr ⟨inside, member_eq⟩, named⟩

variable {unit result : SourceUnit} {change : Change} {session : Session}

/-- A change that does not leave a file as it is inserts an import or removes one. -/
theorem cases_of_made (made : ((change.make unit).run session).1 = some result) :
    (∃ name isStatic, change = .ensure name isStatic ∧ isCovered name isStatic unit = false ∧
      result = { unit with members := insert session.nextId name isStatic unit.members }) ∨
    ∃ position decl, unit.members[position]? = some (.importDecl decl) ∧
      change.removes decl = true ∧
      result = { unit with members := Member.removeAt position unit.members } := by
  cases change with
  | ensure name isStatic =>
      unfold Change.make ensure at made
      dsimp only at made
      split at made
      · cases made
      · next uncovered =>
          cases made
          exact .inl ⟨name, isStatic, rfl, Bool.eq_false_iff.mpr uncovered, rfl⟩
  | removeIfUnused name isStatic =>
      unfold Change.make removeIfUnused at made
      dsimp only at made
      split at made
      · cases made
      · next position found =>
          obtain ⟨decl, decl_eq, named⟩ := import_of_found found
          split at made
          · cases made
          · cases made
            exact .inr ⟨position, decl, decl_eq, named, rfl⟩
  | removeWildcardIfUnused package types =>
      unfold Change.make removeWildcardIfUnused at made
      dsimp only at made
      split at made
      · cases made
      · next position found =>
          obtain ⟨decl, decl_eq, named⟩ := import_of_found found
          split at made
          · cases made
            exact .inr ⟨position, decl, decl_eq, named, rfl⟩
          · cases made

/-! ## Changes one after the other -/

/-- Changes one after the other keep what each of them keeps. -/
theorem keeps_makeAll
    (kept : SourceUnit → Prop)
    {changes : List Change}
    (keeps : ∀ change ∈ changes, ∀ unit result session,
      ((change.make unit).run session).1 = some result → kept unit → kept result)
    (isKept : kept unit)
    (session : Session) : kept ((makeAll changes unit).run session).1 := by
  unfold makeAll
  induction changes generalizing unit session with
  | nil => exact isKept
  | cons first rest inductionHypothesis =>
      rw [List.foldlM_cons, Migration.run_bind]
      refine inductionHypothesis (fun change later => keeps change (List.mem_cons_of_mem _ later))
        ?_ _
      rw [Migration.run_bind, Migration.run_pure]
      cases made : ((first.make unit).run session).1 with
      | none => exact isKept
      | some result => exact keeps first List.mem_cons_self unit result session made isKept

/-! ## The place of a new import -/

section Positions

variable {p : Member → Bool} {members : List Member} {position : Nat}

/-- Behind the last declaration that satisfies a test, none does. -/
theorem exists_of_lastIdx? (found : lastIdx? p members = some position) :
    ∃ front member back, members = front ++ member :: back ∧ front.length = position ∧
      p member = true ∧ ∀ other ∈ back, p other = false := by
  obtain ⟨index, fromEnd, rfl⟩ := Option.map_eq_some_iff.mp found
  obtain ⟨back, member, front, reverse_eq, rfl, holds, passed⟩ := exists_of_findIdx? fromEnd
  have members_eq : members = front.reverse ++ member :: back.reverse := by
    rw [← members.reverse_reverse, reverse_eq]
    simp
  refine ⟨front.reverse, member, back.reverse, members_eq, ?_, holds, ?_⟩
  · rw [members_eq]
    simp only [List.length_append, List.length_cons, List.length_reverse]
    omega
  · intro other isBehind
    exact passed other (List.mem_reverse.mp isBehind)

theorem lastIdx?_eq_none (notFound : lastIdx? p members = none) :
    ∀ member ∈ members, p member = false := by
  intro member inside
  have fromEnd := List.findIdx?_eq_none_iff.mp (Option.map_eq_none_iff.mp notFound)
  exact fromEnd member (List.mem_reverse.mpr inside)

end Positions

theorem bareImports_append (front back : List Member) :
    bareImports (front ++ back) = bareImports front ++ bareImports back :=
  List.filterMap_append

theorem mem_bareImports {members : List Member} {decl : Import} :
    decl ∈ bareImports members ↔
      ∃ other, Member.importDecl other ∈ members ∧ other.bare = decl := by
  unfold bareImports
  rw [List.mem_filterMap]
  constructor
  · rintro ⟨member, inside, bare_eq⟩
    obtain ⟨other, import_eq, rfl⟩ := Option.map_eq_some_iff.mp bare_eq
    cases member <;> cases import_eq
    exact ⟨other, inside, rfl⟩
  · rintro ⟨other, inside, rfl⟩
    exact ⟨_, inside, rfl⟩

section Search

variable {members : List Member} {name : String} {isStatic : Bool}

theorem bareImports_eq_nil (noImport : ∀ member ∈ members, member.isImport = false) :
    bareImports members = [] := by
  rw [List.eq_nil_iff_forall_not_mem]
  intro decl inside
  obtain ⟨other, isMember, -⟩ := mem_bareImports.mp inside
  exact absurd (noImport _ isMember) (by simp [Member.isImport, Member.import?])

theorem not_of_group
    (noneOf : ∀ member ∈ members, member.isImportOf isStatic = false) :
    ∀ decl ∈ bareImports members, decl.isStatic ≠ isStatic := by
  intro decl inside sameGroup
  obtain ⟨other, isMember, rfl⟩ := mem_bareImports.mp inside
  have isOf : (Member.importDecl other).isImportOf isStatic = true := beq_iff_eq.mpr sameGroup
  rw [noneOf _ isMember] at isOf
  exact Bool.false_ne_true isOf

theorem not_after
    (noneAfter : ∀ member ∈ members, member.isImportAfter name isStatic = false) :
    ∀ decl ∈ bareImports members, decl.isStatic = isStatic → ¬name < decl.name := by
  intro decl inside sameGroup later
  obtain ⟨other, isMember, rfl⟩ := mem_bareImports.mp inside
  have isAfter : (Member.importDecl other).isImportAfter name isStatic = true :=
    Bool.and_eq_true_iff.mpr ⟨beq_iff_eq.mpr sameGroup, decide_eq_true later⟩
  rw [noneAfter _ isMember] at isAfter
  exact Bool.false_ne_true isAfter

end Search

/-- What stands before a declaration does not matter to the bare imports. -/
theorem bareImports_cons_withLead (lead : String) (first : Member) (rest : List Member) :
    bareImports (first.withLead lead :: rest) = bareImports (first :: rest) := by
  cases first <;> rfl

/-- Without a declaration, the bare imports are those around it. -/
theorem exists_of_removeAt
    {members : List Member}
    {position : Nat}
    {removed : Member}
    (found : members[position]? = some removed) :
    ∃ front back, members = front ++ removed :: back ∧
      bareImports (Member.removeAt position members) = bareImports front ++ bareImports back := by
  obtain ⟨inside, rfl⟩ := List.getElem?_eq_some_iff.mp found
  refine ⟨members.take position, members.drop (position + 1), ?_, ?_⟩
  · rw [List.getElem_cons_drop inside, List.take_append_drop]
  · unfold Member.removeAt
    rw [← List.getElem_cons_drop inside]
    cases members.drop (position + 1) with
    | nil => exact (List.append_nil _).symm
    | cons next rest =>
        dsimp only
        rw [bareImports_append]
        congr 1
        unfold Member.following
        split
        · exact bareImports_cons_withLead _ next rest
        · rfl

/--
The place of a new import, told by the imports before and behind it: right before the first import
of its group whose name comes after the new one, right behind the last import of its group, or at
either end if there is no import of its group.
-/
inductive Place (name : String) (isStatic : Bool) : List Import → List Import → Prop
  | before {front back : List Import} {next : Import}
      (sameGroup : next.isStatic = isStatic)
      (later : name < next.name)
      (earlier : ∀ decl ∈ front, decl.isStatic = isStatic → ¬name < decl.name) :
      Place name isStatic front (next :: back)
  | behind {front back : List Import} {last : Import}
      (sameGroup : last.isStatic = isStatic)
      (earlier : ∀ decl ∈ front ++ [last], decl.isStatic = isStatic → ¬name < decl.name)
      (others : ∀ decl ∈ back, decl.isStatic ≠ isStatic) :
      Place name isStatic (front ++ [last]) back
  | alone {front back : List Import}
      (others : ∀ decl ∈ front ++ back, decl.isStatic ≠ isStatic)
      (atEnd : front = [] ∨ back = []) :
      Place name isStatic front back

section Insertion

variable (id : Nat) (name : String) (isStatic : Bool) (front back : List Member)

/-- The new import, without what stands before it. -/
theorem bareImports_insertBefore (next : Member) (nextLead : String) :
    bareImports (insertBefore front.length
        (fun lead => .importDecl (.declare id name isStatic lead)) nextLead
          (front ++ next :: back)) =
      bareImports front ++ .declare id name isStatic "" :: bareImports (next :: back) := by
  unfold insertBefore
  rw [List.drop_left, List.take_left]
  dsimp only
  rw [bareImports_append]
  exact congrArg (fun rest => bareImports front ++ Import.declare id name isStatic "" :: rest)
    (bareImports_cons_withLead nextLead next back)

theorem bareImports_insertAfter (last : Member) (lead : String) :
    bareImports (insertAfter front.length (.importDecl (.declare id name isStatic lead))
        (front ++ last :: back)) =
      bareImports (front ++ [last]) ++ .declare id name isStatic "" :: bareImports back := by
  have parts : front ++ last :: back = (front ++ [last]) ++ back := by simp
  have length_eq : front.length + 1 = (front ++ [last]).length := by simp
  unfold insertAfter
  rw [parts, length_eq, List.take_left, List.drop_left, bareImports_append]
  rfl

end Insertion

/-- An import is inserted at a place for it. -/
theorem exists_place (id : Nat) (name : String) (isStatic : Bool) (members : List Member) :
    ∃ front back, members = front ++ back ∧
      Place name isStatic (bareImports front) (bareImports back) ∧
      bareImports (insert id name isStatic members) =
        bareImports front ++ .declare id name isStatic "" :: bareImports back := by
  have noneOf_of_notFound (notFound : lastIdx? (Member.isImportOf isStatic) members = none) :=
    not_of_group (lastIdx?_eq_none notFound)
  unfold insert
  dsimp only
  split
  · next last lastFound =>
      split
      · next position found =>
          obtain ⟨front, next, back, rfl, rfl, isAfter, passed⟩ := exists_of_findIdx? found
          obtain ⟨decl, rfl, isNext⟩ := exists_of_any isAfter
          rw [Bool.and_eq_true, beq_iff_eq] at isNext
          exact ⟨front, _, rfl, .before isNext.1 (of_decide_eq_true isNext.2) (not_after passed),
            bareImports_insertBefore id name isStatic front back _ _⟩
      · next notFound =>
          obtain ⟨front, member, back, rfl, rfl, isOf, others⟩ := exists_of_lastIdx? lastFound
          obtain ⟨decl, rfl, sameGroup⟩ := exists_of_any isOf
          have earlier := not_after (List.findIdx?_eq_none_iff.mp notFound)
          refine ⟨front ++ [.importDecl decl], back, by simp, ?_,
            bareImports_insertAfter id name isStatic front back _ _⟩
          rw [bareImports_append]
          refine .behind (beq_iff_eq.mp sameGroup) (fun other inside => ?_) (not_of_group others)
          refine earlier other ?_
          rw [← List.singleton_append, ← List.append_assoc, bareImports_append, bareImports_append]
          exact List.mem_append_left _ inside
  · next first last notFound firstFound lastFound =>
      have noneOf := noneOf_of_notFound notFound
      split
      · obtain ⟨front, member, back, rfl, rfl, -, others⟩ := exists_of_lastIdx? lastFound
        refine ⟨front ++ [member], back, by simp, .alone ?_ (.inr (bareImports_eq_nil others)),
          bareImports_insertAfter id name isStatic front back _ _⟩
        rw [← bareImports_append]
        simpa using noneOf
      · obtain ⟨front, member, back, rfl, rfl, -, passed⟩ := exists_of_findIdx? firstFound
        refine ⟨front, _, rfl, .alone ?_ (.inl (bareImports_eq_nil passed)),
          bareImports_insertBefore id name isStatic front back _ _⟩
        rw [← bareImports_append]
        exact noneOf
  · next notFound notBoth =>
      have noImports : bareImports members = [] := by
        cases firstFound : members.findIdx? Member.isImport with
        | none => exact bareImports_eq_nil (List.findIdx?_eq_none_iff.mp firstFound)
        | some first =>
            cases lastFound : lastIdx? Member.isImport members with
            | none => exact bareImports_eq_nil (lastIdx?_eq_none lastFound)
            | some last => exact absurd lastFound (notBoth first last firstFound)
      have alone (front back : List Member) (members_eq : members = front ++ back) :
          Place name isStatic (bareImports front) (bareImports back) := by
        rw [members_eq, bareImports_append, List.append_eq_nil_iff] at noImports
        rw [noImports.1, noImports.2]
        exact .alone (by simp) (.inl rfl)
      split
      · next position found =>
          obtain ⟨front, member, back, rfl, rfl, -, -⟩ := exists_of_findIdx? found
          exact ⟨front ++ [member], back, by simp, alone _ _ (by simp),
            bareImports_insertAfter id name isStatic front back _ _⟩
      · cases members with
        | nil => exact ⟨[], [], rfl, alone _ _ rfl, rfl⟩
        | cons first rest =>
            exact ⟨[], first :: rest, rfl, alone _ _ rfl,
              bareImports_insertBefore id name isStatic [] rest first _⟩

/-! ## The imports after a change -/

theorem bareImports_members (unit : SourceUnit) :
    bareImports unit.members = unit.imports.map Import.bare := by
  rw [bareImports, SourceUnit.imports, List.map_filterMap]

/-- What stands before the imports does not matter to what they cover. -/
theorem isCovered_eq (name : String) (isStatic : Bool) (unit : SourceUnit) :
    isCovered name isStatic unit =
      (unit.imports.map Import.bare).any (Import.covers name isStatic) := by
  rw [List.any_map]
  rfl

/-- A change inserts one import at its place, or removes one. -/
theorem imports_cases_of_made (made : ((change.make unit).run session).1 = some result) :
    (∃ name isStatic front back, change = .ensure name isStatic ∧
      isCovered name isStatic unit = false ∧ Place name isStatic front back ∧
      unit.imports.map Import.bare = front ++ back ∧
      result.imports.map Import.bare = front ++ .declare session.nextId name isStatic "" :: back) ∨
    ∃ front decl back, change.removes decl = true ∧
      unit.imports.map Import.bare = front ++ decl :: back ∧
      result.imports.map Import.bare = front ++ back := by
  simp only [← bareImports_members]
  cases cases_of_made made with
  | inl inserted =>
      obtain ⟨name, isStatic, rfl, uncovered, rfl⟩ := inserted
      obtain ⟨front, back, members_eq, place, imports_eq⟩ :=
        exists_place session.nextId name isStatic unit.members
      refine .inl ⟨name, isStatic, _, _, rfl, uncovered, place, ?_, imports_eq⟩
      rw [members_eq, bareImports_append]
  | inr removed =>
      obtain ⟨position, decl, found, removes, rfl⟩ := removed
      obtain ⟨front, back, members_eq, imports_eq⟩ := exists_of_removeAt found
      have removesBare : change.removes decl.bare = change.removes decl := by
        cases change <;> rfl
      refine .inr ⟨_, decl.bare, _, removesBare.trans removes, ?_, imports_eq⟩
      rw [members_eq, bareImports_append]
      rfl

end Imports

end JupiterMigration
