import JupiterMigration.Proofs.Imports.Changes
import JupiterMigration.Proofs.Revision.Basic
import Mathlib.Data.String.Basic

/-!
# The order of imports

The imports of a file are in order if they are at most one block of static ones and one of others,
each of them ascending by name (`Imports.InOrder`).  Changes to the imports keep this order, and a
name that is asked for is covered afterwards, at the cost of at most one new import
(`Imports.inOrder_makeAll`).
-/

namespace JupiterMigration.Imports

open Member (SameButLead)

/-- Imports that are all static, or all not, and that ascend by name. -/
structure IsBlock (isStatic : Bool) (imports : List Import) : Prop where
  sameGroup : ∀ decl ∈ imports, decl.isStatic = isStatic
  ascending : imports.Pairwise fun first second => first.name ≤ second.name

/-- Imports in at most one block of static ones and one of others, whichever comes first. -/
def InOrder (imports : List Import) : Prop :=
  ∃ isStatic front back, imports = front ++ back ∧ IsBlock isStatic front ∧
    IsBlock (!isStatic) back

/-! ## Blocks -/

theorem isBlock_nil (isStatic : Bool) : IsBlock isStatic [] :=
  ⟨by simp, .nil⟩

theorem IsBlock.sublist
    {isStatic : Bool}
    {imports others : List Import}
    (block : IsBlock isStatic imports)
    (sublist : others.Sublist imports) : IsBlock isStatic others :=
  ⟨fun decl inside => block.sameGroup decl (sublist.subset inside), block.ascending.sublist sublist⟩

/--
A new import may be put between the imports of a block that it does not come before or behind.
-/
theorem IsBlock.insert
    {isStatic : Bool}
    {front back : List Import}
    {decl : Import}
    (block : IsBlock isStatic (front ++ back))
    (sameGroup : decl.isStatic = isStatic)
    (earlier : ∀ other ∈ front, other.name ≤ decl.name)
    (later : ∀ other ∈ back, decl.name ≤ other.name) :
    IsBlock isStatic (front ++ decl :: back) where
  sameGroup := by
    intro other inside
    cases List.mem_append.mp inside with
    | inl inFront => exact block.sameGroup other (List.mem_append_left _ inFront)
    | inr inBack =>
        cases inBack with
        | head => exact sameGroup
        | tail _ behind => exact block.sameGroup other (List.mem_append_right _ behind)
  ascending := by
    obtain ⟨frontAscends, backAscends, apart⟩ := List.pairwise_append.mp block.ascending
    refine List.pairwise_append.mpr ⟨frontAscends, .cons later backAscends, ?_⟩
    intro first inFront second inBack
    cases inBack with
    | head => exact earlier first inFront
    | tail _ behind => exact apart first inFront second behind

section Block

variable {isStatic : Bool} {imports : List Import}

/-- Imports in order, seen from one of the groups: its block is at one end. -/
theorem InOrder.exists_block (inOrder : InOrder imports) (isStatic : Bool) :
    ∃ before block behind, imports = before ++ block ++ behind ∧ IsBlock (!isStatic) before ∧
      IsBlock isStatic block ∧ IsBlock (!isStatic) behind ∧ (before = [] ∨ behind = []) := by
  obtain ⟨first, front, back, rfl, frontBlock, backBlock⟩ := inOrder
  by_cases same : first = isStatic
  · subst same
    exact ⟨[], front, back, rfl, isBlock_nil _, frontBlock, backBlock, .inl rfl⟩
  · obtain rfl : first = !isStatic := Bool.eq_not.mpr same
    rw [Bool.not_not] at backBlock
    exact ⟨front, back, [], by simp, frontBlock, backBlock, isBlock_nil _, .inr rfl⟩

theorem inOrder_of_block
    {before block behind : List Import}
    (beforeBlock : IsBlock (!isStatic) before)
    (isBlock : IsBlock isStatic block)
    (behindBlock : IsBlock (!isStatic) behind)
    (atEnd : before = [] ∨ behind = []) : InOrder (before ++ block ++ behind) := by
  cases atEnd with
  | inl nothing =>
      subst nothing
      exact ⟨isStatic, block, behind, rfl, isBlock, behindBlock⟩
  | inr nothing =>
      subst nothing
      rw [List.append_nil]
      exact ⟨!isStatic, before, block, rfl, beforeBlock, by rwa [Bool.not_not]⟩

theorem InOrder.sublist
    {others : List Import}
    (inOrder : InOrder imports)
    (sublist : others.Sublist imports) : InOrder others := by
  obtain ⟨first, front, back, rfl, frontBlock, backBlock⟩ := inOrder
  obtain ⟨otherFront, otherBack, rfl, inFront, inBack⟩ := List.sublist_append_iff.mp sublist
  exact ⟨first, otherFront, otherBack, rfl, frontBlock.sublist inFront, backBlock.sublist inBack⟩

/-- The order does not depend on what stands before the imports. -/
theorem inOrder_map_bare : InOrder (imports.map Import.bare) ↔ InOrder imports := by
  have block_iff (isStatic : Bool) (others : List Import) :
      IsBlock isStatic (others.map Import.bare) ↔ IsBlock isStatic others := by
    constructor
    · rintro ⟨sameGroup, ascending⟩
      exact ⟨fun decl inside => sameGroup decl.bare (List.mem_map_of_mem inside),
        by simpa [List.pairwise_map, Import.bare] using ascending⟩
    · rintro ⟨sameGroup, ascending⟩
      refine ⟨fun decl inside => ?_, by simpa [List.pairwise_map, Import.bare] using ascending⟩
      obtain ⟨other, isOther, rfl⟩ := List.mem_map.mp inside
      exact sameGroup other isOther
  constructor
  · rintro ⟨isStatic, front, back, parts, frontBlock, backBlock⟩
    obtain ⟨oldFront, oldBack, rfl, rfl, rfl⟩ := List.map_eq_append_iff.mp parts
    exact ⟨isStatic, oldFront, oldBack, rfl, (block_iff _ _).mp frontBlock,
      (block_iff _ _).mp backBlock⟩
  · rintro ⟨isStatic, front, back, rfl, frontBlock, backBlock⟩
    exact ⟨isStatic, _, _, List.map_append, (block_iff _ _).mpr frontBlock,
      (block_iff _ _).mpr backBlock⟩

end Block

/-! ## New imports -/

section Insertion

variable {isStatic : Bool} {before block behind front back : List Import} {decl : Import}

/-- An import of the group of a block that stands among other imports stands in the block. -/
theorem exists_of_append_cons
    (parts : front ++ decl :: back = before ++ block ++ behind)
    (sameGroup : decl.isStatic = isStatic)
    (beforeBlock : IsBlock (!isStatic) before)
    (behindBlock : IsBlock (!isStatic) behind) :
    ∃ start rest, front = before ++ start ∧ block = start ++ decl :: rest ∧
      back = rest ++ behind := by
  have outside (others : List Import) (isBlock : IsBlock (!isStatic) others) : decl ∉ others := by
    intro inside
    exact absurd (sameGroup.symm.trans (isBlock.sameGroup decl inside)) (by simp)
  have inBlock (start : List Import) (rest_eq : block ++ behind = start ++ decl :: back) :
      ∃ rest, block = start ++ decl :: rest ∧ back = rest ++ behind := by
    rcases List.append_eq_append_iff.mp rest_eq with ⟨gap, rfl, behind_eq⟩ | ⟨gap, rfl, back_eq⟩
    · exact absurd (by simp [behind_eq]) (outside behind behindBlock)
    · cases gap with
      | nil =>
          subst back_eq
          exact absurd List.mem_cons_self (outside _ behindBlock)
      | cons first rest =>
          cases back_eq
          exact ⟨rest, rfl, rfl⟩
  rw [List.append_assoc] at parts
  rcases List.append_eq_append_iff.mp parts with ⟨gap, before_eq, rest_eq⟩ | ⟨start, rfl, rest_eq⟩
  · cases gap with
    | nil =>
        obtain ⟨rest, block_eq, back_eq⟩ := inBlock [] rest_eq.symm
        exact ⟨[], rest, by simp [before_eq], block_eq, back_eq⟩
    | cons first more =>
        cases rest_eq
        exact absurd (by simp [before_eq]) (outside before beforeBlock)
  · obtain ⟨rest, block_eq, back_eq⟩ := inBlock start rest_eq
    exact ⟨start, rest, rfl, block_eq, back_eq⟩

/-- Imports stay in order when a new one is inserted at a place for it. -/
theorem InOrder.insert
    {name : String}
    (inOrder : InOrder (front ++ back))
    (place : Place name isStatic front back)
    (named : decl.name = name)
    (sameGroup : decl.isStatic = isStatic) : InOrder (front ++ decl :: back) := by
  obtain ⟨before, block, behind, parts, beforeBlock, isBlock, behindBlock, atEnd⟩ :=
    inOrder.exists_block isStatic
  cases place with
  | @before _ rest next nextGroup later earlier =>
      obtain ⟨start, others, rfl, rfl, rfl⟩ :=
        exists_of_append_cons parts nextGroup beforeBlock behindBlock
      have ascends := (List.pairwise_append.mp isBlock.ascending).2.1
      have inserted := isBlock.insert sameGroup
        (fun other inFront => ?_) (fun other inBack => ?_)
      · have members_eq : before ++ start ++ decl :: next :: (others ++ behind) =
            before ++ (start ++ decl :: next :: others) ++ behind := by simp
        rw [members_eq]
        exact inOrder_of_block beforeBlock inserted behindBlock atEnd
      · rw [named]
        exact not_lt.mp (earlier other (List.mem_append_right _ inFront)
          (isBlock.sameGroup other (List.mem_append_left _ inFront)))
      · rw [named]
        cases inBack with
        | head => exact le_of_lt later
        | tail _ inOthers =>
            exact le_trans (le_of_lt later) (List.rel_of_pairwise_cons ascends inOthers)
  | @behind start _ last lastGroup earlier others =>
      rw [List.append_assoc, List.singleton_append] at parts
      obtain ⟨front, rest, rfl, rfl, rfl⟩ :=
        exists_of_append_cons parts lastGroup beforeBlock behindBlock
      -- Behind the last import of the group there is none of it left.
      obtain rfl : rest = [] := by
        refine List.eq_nil_iff_forall_not_mem.mpr fun other inside => ?_
        exact others other (List.mem_append_left _ inside)
          (isBlock.sameGroup other (by simp [inside]))
      rw [← List.append_nil (front ++ [last])] at isBlock
      have inserted := isBlock.insert sameGroup (fun other inBlock => ?_) (by simp)
      · have members_eq : before ++ front ++ [last] ++ decl :: ([] ++ behind) =
            before ++ (front ++ [last] ++ [decl]) ++ behind := by simp
        rw [members_eq]
        exact inOrder_of_block beforeBlock inserted behindBlock atEnd
      · rw [named]
        have inFront : other ∈ before ++ front ++ [last] := by
          rw [List.append_assoc]
          exact List.mem_append_right _ inBlock
        exact not_lt.mp (earlier other inFront
          (isBlock.sameGroup other (List.mem_append_left _ inBlock)))
  | alone others nothing =>
      obtain rfl : block = [] := by
        refine List.eq_nil_iff_forall_not_mem.mpr fun other inside => ?_
        refine others other ?_ (isBlock.sameGroup other inside)
        rw [parts]
        simp [inside]
      have one : IsBlock isStatic [decl] := ⟨by simpa using sameGroup, List.pairwise_singleton _ _⟩
      have whole : IsBlock (!isStatic) (front ++ back) := by
        cases atEnd with
        | inl noneBefore => simpa [parts, noneBefore] using behindBlock
        | inr noneBehind => simpa [parts, noneBehind] using beforeBlock
      have frontBlock := whole.sublist (List.sublist_append_left front back)
      have backBlock := whole.sublist (List.sublist_append_right front back)
      have apart := inOrder_of_block frontBlock one backBlock nothing
      rwa [List.append_assoc] at apart

end Insertion

/-! ## Changes -/

/-- A change to the imports keeps them in order. -/
theorem inOrder_make
    {unit result : SourceUnit}
    {change : Change}
    {session : Session}
    (made : ((change.make unit).run session).1 = some result)
    (inOrder : InOrder unit.imports) : InOrder result.imports := by
  rw [← inOrder_map_bare] at inOrder ⊢
  cases imports_cases_of_made made with
  | inl inserted =>
      obtain ⟨name, isStatic, front, back, -, -, place, before_eq, after_eq⟩ := inserted
      rw [before_eq] at inOrder
      rw [after_eq]
      exact inOrder.insert place rfl rfl
  | inr removed =>
      obtain ⟨front, decl, back, -, before_eq, after_eq⟩ := removed
      rw [before_eq] at inOrder
      rw [after_eq]
      exact inOrder.sublist ((List.sublist_cons_self decl back).append_left front)

/--
What becomes of a file for which an import of a name is asked: nothing if the name is covered, and
otherwise there is one more import with a number of its own among the others, which stay in their
order.
-/
structure Ensures (id : Nat) (name : String) (isStatic : Bool) (unit result : SourceUnit) :
    Prop where
  covered : isCovered name isStatic result = true
  unchanged : isCovered name isStatic unit = true → result = unit
  added : isCovered name isStatic unit = false → ∃ front back,
    unit.imports.map Import.bare = front ++ back ∧
      result.imports.map Import.bare = front ++ .declare id name isStatic "" :: back
  /-- Asked again at once, the file is left as it is. -/
  again : ∀ session, ((ensure name isStatic result).run session).1 = none

theorem ensure_eq_none
    {name : String}
    {isStatic : Bool}
    {unit : SourceUnit}
    (covered : isCovered name isStatic unit = true)
    (session : Session) : ((ensure name isStatic unit).run session).1 = none := by
  unfold ensure
  rw [if_pos covered]
  rfl

theorem ensures_ensure
    (name : String)
    (isStatic : Bool)
    (unit : SourceUnit)
    (session : Session) :
    Ensures session.nextId name isStatic unit
      (((ensure name isStatic unit).run session).1.getD unit) := by
  cases made : ((ensure name isStatic unit).run session).1 with
  | none =>
      have covered : isCovered name isStatic unit = true := by
        by_contra uncovered
        unfold ensure at made
        rw [if_neg uncovered] at made
        cases made
      exact {
        covered := covered
        unchanged := fun _ => rfl
        added := fun uncovered => absurd covered (by simp [uncovered])
        again := ensure_eq_none covered }
  | some result =>
      have change_made : (((Change.ensure name isStatic).make unit).run session).1 =
          some result := made
      cases imports_cases_of_made change_made with
      | inr removed =>
          obtain ⟨front, decl, back, removes, -⟩ := removed
          cases removes
      | inl inserted =>
          obtain ⟨_, _, front, back, same, uncovered, -, before_eq, after_eq⟩ := inserted
          cases same
          have covered : isCovered name isStatic result = true := by
            rw [isCovered_eq, after_eq]
            simp [Import.covers, Import.declare]
          exact {
            covered := covered
            unchanged := fun isCovered => absurd isCovered (by simp [uncovered])
            added := fun _ => ⟨front, back, before_eq, after_eq⟩
            again := ensure_eq_none covered }

/--
Whatever changes are made to the imports of a file, imports in order stay in order; and whenever a
name is asked for, it is covered afterwards, at the cost of at most one new import.
-/
theorem inOrder_makeAll (changes : List Change) (unit : SourceUnit) (session : Session) :
    (InOrder unit.imports → InOrder ((makeAll changes unit).run session).1.imports) ∧
      ∀ name isStatic before early,
        Ensures early.nextId name isStatic before
          (((ensure name isStatic before).run early).1.getD before) := by
  constructor
  · intro inOrder
    exact keeps_makeAll (fun unit => InOrder unit.imports)
      (fun _ _ _ _ _ made isInOrder => inOrder_make made isInOrder) inOrder session
  · intro name isStatic before early
    exact ensures_ensure name isStatic before early

/-- A file with imports of both groups, between which other declarations stand. -/
def scatteredImports : SourceUnit where
  id := 0
  lead := ""
  members := [.verbatim ⟨1, "", "package p;", ["p"]⟩, .importDecl (.declare 2 "b.B" false "\n"),
    .verbatim ⟨3, "", ";", []⟩, .importDecl (.declare 4 "d.D" false "\n"),
    .importDecl (.declare 5 "a.A.f" true "\n")]
  tail := "\n"
  path := none

/-- Changes of every kind; the first one leaves the file as it is. -/
def mixedChanges : List Change :=
  [.removeWildcardIfUnused "d" ["D"], .ensure "c.C" false, .removeIfUnused "b.B" false,
    .ensure "a.A.e" true]

theorem inOrder_makeAll_scatteredImports :
    InOrder scatteredImports.imports ∧
      InOrder ((makeAll mixedChanges scatteredImports).run ⟨.empty, 6⟩).1.imports ∧
      ((makeAll mixedChanges scatteredImports).run ⟨.empty, 6⟩).1.imports.map (·.name) =
        ["c.C", "d.D", "a.A.e", "a.A.f"] := by
  have inOrder : InOrder scatteredImports.imports :=
    ⟨false, [.declare 2 "b.B" false "\n", .declare 4 "d.D" false "\n"],
      [.declare 5 "a.A.f" true "\n"], rfl, ⟨by decide, by decide⟩, ⟨by decide, by decide⟩⟩
  refine ⟨inOrder, (inOrder_makeAll mixedChanges scatteredImports ⟨.empty, 6⟩).1 inOrder, ?_⟩
  decide

end JupiterMigration.Imports
