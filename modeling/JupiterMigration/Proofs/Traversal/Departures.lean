import JupiterMigration.Proofs.Revision.Basic

/-!
# The order in which a walk leaves declarations

A walk leaves the members of a class before the class itself.  A visitor that acts only when it
leaves a declaration does no more than go through the declarations of a file in this order
(`Visitor.visit_eq_forM`), and it leaves each class once (`SourceUnit.perm_classesLeft`).
-/

namespace JupiterMigration

/-- A declaration that a walk leaves, and the nodes around it, the innermost first. -/
structure Departure where
  above : List Node
  member : Member

namespace Departure

/-- The classes among declarations that are left. -/
def classes (departures : List Departure) : List ClassDecl :=
  departures.filterMap (·.member.class?)

theorem classes_append (front back : List Departure) :
    classes (front ++ back) = classes front ++ classes back :=
  List.filterMap_append

end Departure

namespace Member

mutual

/-- The declarations in a declaration in the order in which a walk leaves them, itself the last. -/
def departures (above : List Node) : Member → List Departure
  | classDecl head members =>
    departuresAll (.member (classDecl head members) :: above) members ++
      [⟨above, classDecl head members⟩]
  | member => [⟨above, member⟩]

/-- The declarations in some declarations in the order in which a walk leaves them. -/
def departuresAll (above : List Node) : List Member → List Departure
  | [] => []
  | first :: rest => departures above first ++ departuresAll above rest

end

theorem departures_eq_singleton
    {member : Member}
    (noClass : member.class? = none)
    (above : List Node) : member.departures above = [⟨above, member⟩] := by
  cases member with
  | classDecl head members => cases noClass
  | importDecl _ | verbatim _ | field _ | method _ => rfl

mutual

theorem perm_classes_departures (above : List Node) (member : Member) :
    (Departure.classes (member.departures above)).Perm member.classes := by
  cases member with
  | classDecl head members =>
      have inner := perm_classes_departuresAll (.member (classDecl head members) :: above) members
      rw [departures, Departure.classes_append, classes_classDecl]
      exact (List.perm_append_singleton _ _).trans (inner.cons _)
  | importDecl _ | verbatim _ | field _ | method _ =>
      rw [classes_eq_nil rfl]
      exact List.Perm.nil

/-- Some declarations contain the classes that a walk through them leaves, each as often. -/
theorem perm_classes_departuresAll (above : List Node) (members : List Member) :
    (Departure.classes (departuresAll above members)).Perm (classesAll members) := by
  cases members with
  | nil => exact List.Perm.nil
  | cons first rest =>
      rw [departuresAll, Departure.classes_append, classesAll_cons]
      exact (perm_classes_departures above first).append (perm_classes_departuresAll above rest)

end

end Member

namespace SourceUnit

/-- The declarations of a file in the order in which a walk leaves them. -/
def departures (unit : SourceUnit) : List Departure :=
  Member.departuresAll [.sourceUnit unit] unit.members

/-- The classes of a file in the order in which a walk leaves them. -/
def classesLeft (unit : SourceUnit) : List ClassDecl :=
  Departure.classes unit.departures

/-- A walk leaves every class of a file once. -/
theorem perm_classesLeft (unit : SourceUnit) :
    unit.classesLeft.Perm (Member.classesAll unit.members) :=
  Member.perm_classes_departuresAll _ _

end SourceUnit

/-! ## Visitors that act when they leave a declaration -/

namespace Visitor

variable {m : Type → Type} [Monad m]

/-- A visitor that enters everything but bodies and acts only when it leaves a declaration. -/
structure LeavesMembers (visitor : Visitor m) : Prop where
  enter : ∀ above node, visitor.enter above node = pure (node.kind != .block)
  leave : ∀ above node, (∀ member, node ≠ .member member) → visitor.leave above node = pure ()

variable [LawfulMonad m] {visitor : Visitor m}

theorem forM_eq_pure
    {α : Type}
    {step : α → m PUnit}
    (idle : ∀ item, step item = pure ())
    (items : List α) : items.forM step = pure () := by
  induction items with
  | nil => rfl
  | cons first rest inductionHypothesis =>
      rw [List.forM_eq_forM, List.forM_cons, idle, pure_bind]
      exact inductionHypothesis

namespace LeavesMembers

variable (leaves : visitor.LeavesMembers)
include leaves

theorem visitLeaf_eq_pure
    {node : Node}
    (noMember : ∀ member, node ≠ .member member)
    (above : List Node) : visitor.visitLeaf above node = pure () := by
  unfold visitLeaf around
  rw [leaves.enter, leaves.leave above node noMember, pure_bind]
  split <;> simp

theorem visitAnnotations_eq_pure (above : List Node) (uses : List Annotation) :
    visitor.visitAnnotations above uses = pure () :=
  forM_eq_pure (fun _ => leaves.visitLeaf_eq_pure (fun _ => Node.noConfusion) above) uses

theorem visitInMethod_eq_pure (method : Method) (above : List Node) :
    visitor.visitInMethod method above = pure () := by
  have parameters : method.parameters.forM (fun parameter =>
      visitor.visitLeaf above (.parameter parameter)) = pure () :=
    forM_eq_pure (fun _ => leaves.visitLeaf_eq_pure (fun _ => Node.noConfusion) above) _
  unfold visitInMethod
  rw [leaves.visitAnnotations_eq_pure, pure_bind, parameters, pure_bind]
  cases method.body with
  | none => rfl
  | some block =>
      have declined : visitor.enter above (.block block) = pure false := leaves.enter _ _
      dsimp only
      unfold visitBlock around
      rw [declined, pure_bind, leaves.leave above _ fun _ => Node.noConfusion]
      rfl

theorem around_member
    {visitChildren : List Node → m Unit}
    (above : List Node)
    (member : Member) :
    visitor.around above (.member member) visitChildren = (do
      visitChildren (.member member :: above)
      visitor.leave above (.member member)) := by
  have entered : visitor.enter above (.member member) = pure true := by
    rw [leaves.enter]
    cases member <;> rfl
  unfold around
  rw [entered, pure_bind]
  rfl

omit leaves

mutual

theorem visitMember_eq_forM
    (leaves : visitor.LeavesMembers)
    (above : List Node)
    (member : Member) :
    visitor.visitMember above member = (member.departures above).forM fun departure =>
      visitor.leave departure.above (.member departure.member) := by
  cases member with
  | classDecl head members =>
      have inner :=
        leaves.visitMembers_eq_forM (.member (.classDecl head members) :: above) members
      rw [visitMember, leaves.around_member, leaves.visitAnnotations_eq_pure, pure_bind, inner,
        Member.departures, List.forM_eq_forM, List.forM_append]
      simp
  | importDecl _ | verbatim _ =>
      rw [visitMember, visitLeaf, leaves.around_member, Member.departures_eq_singleton rfl]
      simp
  | field decl =>
      rw [visitMember, leaves.around_member, leaves.visitAnnotations_eq_pure,
        Member.departures_eq_singleton rfl]
      simp
  | method decl =>
      rw [visitMember, leaves.around_member, leaves.visitInMethod_eq_pure,
        Member.departures_eq_singleton rfl]
      simp

theorem visitMembers_eq_forM
    (leaves : visitor.LeavesMembers)
    (above : List Node)
    (members : List Member) :
    visitor.visitMembers above members = (Member.departuresAll above members).forM
      fun departure => visitor.leave departure.above (.member departure.member) := by
  cases members with
  | nil => rfl
  | cons first rest =>
      rw [visitMembers, leaves.visitMember_eq_forM, leaves.visitMembers_eq_forM,
        Member.departuresAll, List.forM_eq_forM, List.forM_append]

end

end LeavesMembers

/-- A visit leaves the declarations of the file one after the other, and does nothing else. -/
theorem visit_eq_forM (leaves : visitor.LeavesMembers) (unit : SourceUnit) :
    visitor.visit unit = unit.departures.forM fun departure =>
      visitor.leave departure.above (.member departure.member) := by
  have entered : visitor.enter [] (.sourceUnit unit) = pure true := leaves.enter _ _
  unfold visit around
  rw [entered, pure_bind, leaves.leave [] _ fun _ => Node.noConfusion]
  dsimp only
  rw [leaves.visitMembers_eq_forM]
  simp [SourceUnit.departures]

end Visitor

namespace Parameterized

theorem leavesMembers_visitor (scope : TypeScope) :
    (Collecting.visitor scope).LeavesMembers where
  enter _ _ := rfl
  leave _ node noMember := by
    cases node with
    | member member => exact absurd rfl (noMember member)
    | _ => rfl

/-- A declaration of another kind than a class is left by observing what it says. -/
theorem Collecting.leave_of_noClass
    {member : Member}
    (noClass : member.class? = none)
    (scope : TypeScope)
    (above : List Node) :
    Collecting.leave scope above (.member member) =
      match Observation.ofMember? scope member with
      | some observation => Collecting.observe above observation
      | none => pure () := by
  cases member with
  | classDecl head members => cases noClass
  | importDecl _ | verbatim _ | field _ | method _ => rfl

end Parameterized

namespace ExpectedException

theorem leavesMembers_visitor (scope : TypeScope) :
    (Collecting.visitor scope).LeavesMembers where
  enter _ _ := rfl
  leave _ node noMember := by
    cases node with
    | member member => exact absurd rfl (noMember member)
    | _ => rfl

end ExpectedException

end JupiterMigration
