import JupiterMigration.Proofs.Imports.Changes
import JupiterMigration.Proofs.Revision.Basic

/-!
# What changes to the imports leave alone

Whichever imports are added and removed, the other declarations of a file stay the same and in
order, apart from what stands before them (`Imports.sameButLead_makeAll`).
-/

namespace JupiterMigration

open Member (SameButLead)

namespace Member

theorem SameButLead.filter
    {members others : List Member}
    (same : List.Forall₂ SameButLead members others) :
    List.Forall₂ SameButLead (members.filter (!·.isImport)) (others.filter (!·.isImport)) := by
  refine List.rel_filter (fun member other sameButLead => ?_) same
  obtain ⟨lead, rfl⟩ := sameButLead
  simp only [isImport_withLead]

theorem filter_append_cons_of_isImport
    {decl : Member}
    (isImport : decl.isImport = true)
    (front back : List Member) :
    (front ++ decl :: back).filter (!·.isImport) = (front ++ back).filter (!·.isImport) := by
  rw [List.filter_append, List.filter_append, List.filter_cons_of_neg (by simp [isImport])]

/-- Removing an import changes at most the lead of what follows it. -/
theorem sameButLead_removeAt
    {members : List Member}
    {position : Nat}
    {decl : Member}
    (found : members[position]? = some decl)
    (isImport : decl.isImport = true) :
    List.Forall₂ SameButLead (members.filter (!·.isImport))
      ((removeAt position members).filter (!·.isImport)) := by
  obtain ⟨inside, rfl⟩ := List.getElem?_eq_some_iff.mp found
  have parts := List.take_append_drop position members
  rw [← List.getElem_cons_drop inside] at parts
  have kept := SameButLead.of_removeAt (members.take position) members[position]
    (members.drop (position + 1))
  rw [parts, List.length_take_of_le (Nat.le_of_lt inside)] at kept
  have others := filter_append_cons_of_isImport isImport (members.take position)
    (members.drop (position + 1))
  rw [parts] at others
  rw [others]
  exact SameButLead.filter kept

end Member

namespace Imports

variable {members : List Member} {decl : String → Member}

theorem sameButLead_insertBefore
    (areImports : ∀ lead, (decl lead).isImport = true)
    (position : Nat)
    (nextLead : String) :
    List.Forall₂ SameButLead (members.filter (!·.isImport))
      ((insertBefore position decl nextLead members).filter (!·.isImport)) := by
  unfold insertBefore
  have parts := List.take_append_drop position members
  split
  · next next rest drop_eq =>
      rw [drop_eq] at parts
      rw [Member.filter_append_cons_of_isImport (areImports next.lead)]
      refine SameButLead.filter ?_
      conv => lhs; rw [← parts]
      exact List.rel_append (SameButLead.forall₂_refl _)
        (.cons (.of_withLead nextLead next) (SameButLead.forall₂_refl rest))
  · rw [Member.filter_append_cons_of_isImport (areImports ""), List.append_nil]
    exact SameButLead.forall₂_refl _

theorem sameButLead_insertAfter
    {newImport : Member}
    (isImport : newImport.isImport = true)
    (position : Nat) :
    List.Forall₂ SameButLead (members.filter (!·.isImport))
      ((insertAfter position newImport members).filter (!·.isImport)) := by
  unfold insertAfter
  rw [Member.filter_append_cons_of_isImport isImport, List.take_append_drop]
  exact SameButLead.forall₂_refl _

theorem sameButLead_insert
    (id : Nat)
    (name : String)
    (isStatic : Bool)
    (members : List Member) :
    List.Forall₂ SameButLead (members.filter (!·.isImport))
      ((insert id name isStatic members).filter (!·.isImport)) := by
  unfold insert
  have isImport (lead : String) :
      (Member.importDecl (Import.declare id name isStatic lead)).isImport = true := rfl
  dsimp only
  split
  · split
    · exact sameButLead_insertBefore isImport _ _
    · exact sameButLead_insertAfter (isImport _) _
  · split
    · exact sameButLead_insertAfter (isImport _) _
    · exact sameButLead_insertBefore isImport _ _
  · split
    · exact sameButLead_insertAfter (isImport _) _
    · exact sameButLead_insertBefore isImport _ _

/-- A change to the imports leaves the other declarations alone. -/
theorem sameButLead_make
    {unit result : SourceUnit}
    {change : Change}
    {session : Session}
    (made : ((change.make unit).run session).1 = some result) :
    List.Forall₂ SameButLead unit.nonImports result.nonImports := by
  cases cases_of_made made with
  | inl inserted =>
      obtain ⟨name, isStatic, -, -, rfl⟩ := inserted
      exact sameButLead_insert session.nextId name isStatic unit.members
  | inr removed =>
      obtain ⟨position, decl, found, -, rfl⟩ := removed
      exact Member.sameButLead_removeAt found rfl

/-- Changes to the imports leave the other declarations alone. -/
theorem sameButLead_makeAll
    (changes : List Change)
    (unit : SourceUnit)
    (session : Session) :
    List.Forall₂ SameButLead unit.nonImports
      ((makeAll changes unit).run session).1.nonImports := by
  let kept (result : SourceUnit) : Prop :=
    List.Forall₂ SameButLead unit.nonImports result.nonImports
  have keeps (change : Change) (early late : SourceUnit) (session : Session)
      (made : ((change.make early).run session).1 = some late) (isKept : kept early) : kept late :=
    SameButLead.forall₂_trans isKept (sameButLead_make made)
  exact keeps_makeAll kept (fun change _ => keeps change) (SameButLead.forall₂_refl _) session

end Imports

end JupiterMigration
