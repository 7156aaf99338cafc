import JupiterMigration.Proofs.Usage
import JupiterMigration.Tree.Traversal
import Mathlib.Data.List.Perm.Basic

/-!
# Recursion from nodes to their children

A tree is walked through kind by kind: members in members, statements in blocks.  Whatever the kind
of a node, this comes down to the node and its children in source order: so it is for the list of
all nodes (`Node.walk_eq`) and for a visit (`Visitor.visitNode_eq`).

An occurrence is a node together with the nodes around it.  The occurrences of a tree are its nodes
in the order of the walk (`Node.map_node_occurrences`), each on a path from the root
(`Node.onPath_of_mem_occurrences`).
-/

namespace JupiterMigration

namespace Node

variable {node child : Node}

/-! ## Children -/

theorem flatMap_walk_map
    {α : Type}
    {wrap : α → Node}
    (leaf : ∀ item, (wrap item).walk = [wrap item])
    (items : List α) : (items.map wrap).flatMap walk = items.map wrap := by
  induction items with
  | nil => rfl
  | cons first rest inductionHypothesis =>
      rw [List.map_cons, List.flatMap_cons, leaf, inductionHypothesis, List.singleton_append]

theorem walkAll_eq_flatMap (members : List Member) :
    Member.walkAll members = (members.map member).flatMap walk := by
  induction members with
  | nil => rfl
  | cons first rest inductionHypothesis =>
      rw [Member.walkAll, List.map_cons, List.flatMap_cons, inductionHypothesis]
      rfl

/-- A walk lists a node, and then what walks from its children list. -/
theorem walk_eq (node : Node) : node.walk = node :: node.children.flatMap walk := by
  have annotations (uses : List Annotation) :
      (uses.map annotationUse).flatMap walk = uses.map annotationUse :=
    flatMap_walk_map (fun _ => rfl) uses
  cases node with
  | sourceUnit unit => rw [walk, SourceUnit.walk, walkAll_eq_flatMap, children]
  | member decl =>
      cases decl with
      | importDecl _ | verbatim _ => rfl
      | field decl => exact congrArg _ (annotations decl.annotations).symm
      | method decl =>
          have parameters : (decl.parameters.map parameter).flatMap walk =
              decl.parameters.map parameter :=
            flatMap_walk_map (fun _ => rfl) _
          rw [walk, Member.walk, Method.walkBelow, children, List.flatMap_append,
            List.flatMap_append, annotations, parameters]
          cases decl.body with
          | none => rfl
          | some body => simp [walk]
      | classDecl head members =>
          rw [walk, Member.walk, children, List.flatMap_append, annotations, walkAll_eq_flatMap]
  | block body =>
      rw [walk, Block.walk, children, flatMap_walk_map fun _ => rfl]
  | annotationUse _ | parameter _ | statement _ => rfl

theorem length_walk_lt (isChild : child ∈ node.children) :
    child.walk.length < node.walk.length := by
  have inside : child.walk.Sublist (node.children.flatMap walk) :=
    List.sublist_flatten_of_mem (List.mem_map_of_mem isChild)
  rw [node.walk_eq, List.length_cons]
  exact Nat.lt_succ_of_le inside.length_le

/-- What holds of a node if it holds of all its children holds of every node. -/
@[elab_as_elim]
theorem induction_children
    {motive : Node → Prop}
    (step : ∀ node, (∀ child ∈ node.children, motive child) → motive node)
    (node : Node) : motive node :=
  step node fun child _ => induction_children step child
termination_by node.walk.length
decreasing_by exact length_walk_lt ‹_›

end Node

/-! ## Families -/

/-- The types of nodes that can stand in place of each other. -/
inductive Family where
  | unit
  | member
  | annotationUse
  | parameter
  | block
  | statement
  deriving DecidableEq, Repr

namespace Node

/-- The family of a node. -/
def family : Node → Family
  | sourceUnit _ => .unit
  | member _ => .member
  | annotationUse _ => .annotationUse
  | parameter _ => .parameter
  | block _ => .block
  | statement _ => .statement

/-- A node that can stand in place of another one. -/
abbrev Alternative (node : Node) := { other : Node // other.family = node.family }

end Node

/-! ## Occurrences -/

/-- A node and the nodes around it, the innermost first. -/
structure Occurrence where
  above : List Node
  node : Node

namespace Node

/-- The occurrences of a node and of what is below it, a node before its children. -/
def occurrences (above : List Node) (node : Node) : List Occurrence :=
  ⟨above, node⟩ :: node.children.attach.flatMap fun child => occurrences (node :: above) child.1
termination_by node.walk.length
decreasing_by exact length_walk_lt child.2

/-- The occurrences of a node and of what is below it, a node after its children. -/
def occurrencesUp (above : List Node) (node : Node) : List Occurrence :=
  (node.children.attach.flatMap fun child => occurrencesUp (node :: above) child.1) ++
    [⟨above, node⟩]
termination_by node.walk.length
decreasing_by exact length_walk_lt child.2

theorem occurrences_eq (above : List Node) (node : Node) :
    node.occurrences above =
      ⟨above, node⟩ :: node.children.flatMap (occurrences (node :: above)) := by
  rw [occurrences]
  simp [List.flatMap_def]

theorem occurrencesUp_eq (above : List Node) (node : Node) :
    node.occurrencesUp above =
      node.children.flatMap (occurrencesUp (node :: above)) ++ [⟨above, node⟩] := by
  rw [occurrencesUp]
  simp [List.flatMap_def]

/-- The occurrences are the nodes of the walk, in the same order. -/
theorem map_node_occurrences (above : List Node) (node : Node) :
    (node.occurrences above).map (·.node) = node.walk := by
  induction node using induction_children generalizing above with
  | step node inductionHypothesis =>
      rw [occurrences_eq, walk_eq, List.map_cons, List.map_flatMap]
      exact congrArg _ (List.flatMap_congr fun child isChild => inductionHypothesis child isChild _)

/-- From below, the same occurrences are listed. -/
theorem occurrencesUp_perm (above : List Node) (node : Node) :
    (node.occurrencesUp above).Perm (node.occurrences above) := by
  induction node using induction_children generalizing above with
  | step node inductionHypothesis =>
      rw [occurrencesUp_eq, occurrences_eq]
      refine (List.perm_append_singleton _ _).trans (List.Perm.cons _ ?_)
      exact List.Perm.flatMap_left _ fun child isChild => inductionHypothesis child isChild _

/-- A node stands below others, the innermost first, on a path that begins at a root. -/
inductive OnPath (root : Node) : List Node → Node → Prop
  | root : OnPath root [] root
  | child {above : List Node} {parent child : Node}
      (onPath : OnPath root above parent)
      (isChild : child ∈ parent.children) : OnPath root (parent :: above) child

theorem onPath_of_mem
    {root : Node}
    {above : List Node}
    {occurrence : Occurrence}
    (onPath : OnPath root above node)
    (inside : occurrence ∈ node.occurrences above) :
    OnPath root occurrence.above occurrence.node := by
  induction node using induction_children generalizing above with
  | step node inductionHypothesis =>
      rw [occurrences_eq, List.mem_cons, List.mem_flatMap] at inside
      obtain rfl | ⟨child, isChild, below⟩ := inside
      · exact onPath
      · exact inductionHypothesis child isChild (onPath.child isChild) below

/-- Around an occurrence stand the nodes of the path to it. -/
theorem onPath_of_mem_occurrences
    {occurrence : Occurrence}
    (inside : occurrence ∈ node.occurrences []) :
    OnPath node occurrence.above occurrence.node :=
  onPath_of_mem .root inside

end Node

/-! ## Visits -/

namespace Visitor

variable {m : Type → Type} [Monad m] (visitor : Visitor m)

/-- Visits a node of any kind and everything below it. -/
def visitNode (above : List Node) : Node → m Unit
  | .sourceUnit unit =>
    visitor.around above (.sourceUnit unit) fun inner => visitor.visitMembers inner unit.members
  | .member decl => visitor.visitMember above decl
  | .block body => visitor.visitBlock above body
  | node => visitor.visitLeaf above node

/-- Visiting a file is visiting it as a node. -/
theorem visitNode_sourceUnit (unit : SourceUnit) :
    visitor.visitNode [] (.sourceUnit unit) = visitor.visit unit := rfl

theorem visitMembers_eq (above : List Node) (members : List Member) :
    visitor.visitMembers above members =
      (members.map Node.member).forM (visitor.visitNode above) := by
  induction members with
  | nil => rfl
  | cons first rest inductionHypothesis =>
      rw [visitMembers, inductionHypothesis]
      rfl

variable [LawfulMonad m]

theorem visitAnnotations_eq (above : List Node) (uses : List Annotation) :
    visitor.visitAnnotations above uses =
      (uses.map Node.annotationUse).forM (visitor.visitNode above) := by
  rw [visitAnnotations, List.forM_eq_forM, List.forM_eq_forM, List.forM_map]
  rfl

theorem visitInMethod_eq (method : Method) (above : List Node) :
    visitor.visitInMethod method above =
      (Node.member (.method method)).children.forM (visitor.visitNode above) := by
  rw [visitInMethod, visitAnnotations_eq, Node.children]
  simp only [List.forM_eq_forM, List.forM_append, List.forM_map, bind_assoc]
  refine bind_congr fun _ => bind_congr fun _ => ?_
  cases method.body with
  | none => rfl
  | some block => simp [visitNode]

/--
Visiting a node is visiting its children one after the other, between entering and leaving it.
-/
theorem visitNode_eq (above : List Node) (node : Node) :
    visitor.visitNode above node = visitor.around above node fun inner =>
      node.children.forM (visitor.visitNode inner) := by
  cases node with
  | sourceUnit unit =>
      rw [visitNode]
      simp only [visitMembers_eq]
      rfl
  | member decl =>
      cases decl with
      | importDecl _ | verbatim _ => rfl
      | field decl =>
          rw [visitNode, visitMember]
          simp only [visitAnnotations_eq]
          rfl
      | method decl =>
          rw [visitNode, visitMember]
          exact congrArg _ (funext (visitor.visitInMethod_eq decl))
      | classDecl head members =>
          rw [visitNode, visitMember]
          simp only [visitAnnotations_eq, visitMembers_eq, Node.children, List.forM_eq_forM,
            List.forM_append]
  | block body =>
      rw [visitNode, visitBlock]
      simp only [Node.children, List.forM_eq_forM, List.forM_map]
      rfl
  | annotationUse _ | parameter _ | statement _ => rfl

end Visitor

end JupiterMigration
