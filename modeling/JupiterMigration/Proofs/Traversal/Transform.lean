import JupiterMigration.Proofs.Traversal.Cursor

/-!
# Transformations with a stack

A transformer goes through a tree like a visitor, and its leave hooks say what becomes of a node.  A
node of which a child was replaced or removed is put together anew before it is left; a removed
child that the node cannot do without stops the transformation.  The stack is popped in any case.
-/

namespace JupiterMigration

namespace Edit

/-- The edit of a node of another type. -/
def map {α β : Type} (wrap : α → β) : Edit α → Edit β
  | keep => keep
  | replace node => replace (wrap node)
  | remove => remove

/-- Whether the very node is kept. -/
def isKeep {α : Type} : Edit α → Bool
  | keep => true
  | _ => false

/-- What edits leave of some nodes. -/
def applyAll {α : Type} (nodes : List α) (edits : List (Edit α)) : List α :=
  (nodes.zip edits).filterMap fun edited => edited.2.apply edited.1

end Edit

/-! ## Nodes with other children -/

namespace Node

/-- The declaration that a node is, if it is one. -/
def member? : Node → Option Member
  | member decl => some decl
  | _ => none

/-- The annotation that a node is, if it is one. -/
def annotationUse? : Node → Option Annotation
  | annotationUse use => some use
  | _ => none

/-- The parameter that a node is, if it is one. -/
def parameter? : Node → Option Parameter
  | parameter decl => some decl
  | _ => none

/-- The block that a node is, if it is one. -/
def block? : Node → Option Block
  | block body => some body
  | _ => none

/-- The statement that a node is, if it is one. -/
def statement? : Node → Option Statement
  | statement step => some step
  | _ => none

/-- The file that a node is, if it is one. -/
def sourceUnit? : Node → Option SourceUnit
  | sourceUnit unit => some unit
  | _ => none

/-- The node with other children, each put where those of its family stand. -/
def withChildren (children : List Node) : Node → Node
  | sourceUnit unit => sourceUnit { unit with members := children.filterMap member? }
  | member (.method decl) =>
    member (.method { decl with
      annotations := children.filterMap annotationUse?
      parameters := children.filterMap parameter?
      body := (children.filterMap block?).head? })
  | member (.classDecl head _) =>
    member (.classDecl { head with annotations := children.filterMap annotationUse? }
      (children.filterMap member?))
  | member (.field decl) =>
    member (.field { decl with annotations := children.filterMap annotationUse? })
  | block body => block { body with statements := children.filterMap statement? }
  | node => node

/-- The node put together anew from edited children; nothing if all children were kept. -/
def rebuilt (node : Node) (edits : List (Edit Node)) : Option Node :=
  if edits.all Edit.isKeep then none
  else some (node.withChildren (Edit.applyAll node.children edits))

end Node

/-! ## Transformers -/

namespace Returned

/-- The edit that a leave hook decides on, after the children of the node were edited. -/
def edit {node : Node} (update : Option Node) : Returned node.Alternative → Edit Node
  | updated => .ofUpdate update
  | original => .keep
  | other node => .replace node.1
  | removal => .remove

end Returned

/-- The hooks of a transformer; the enclosing nodes come first, the innermost at the head. -/
structure Transformer (m : Type → Type) where
  /-- Called before the children; false declines them. -/
  enter : List Node → Node → m Bool
  /-- Called with the node as it was entered and, if something below it changed, as it is now. -/
  leave : List Node → (node : Node) → Option Node → m (Returned node.Alternative)

/-- A step with a state that may be refused. -/
abbrev Refusing (σ : Type) := ExceptT Refusal (StateM σ)

namespace Refusing

variable {σ α β : Type} {state after : σ}

theorem run_lift
    {step : StateM σ α}
    {result : α}
    (ran : step.run state = (result, after)) :
    (ExceptT.run (liftM step : Refusing σ α)).run state = (.ok result, after) := by
  change (Functor.map Except.ok step).run state = _
  rw [StateT.run_map, ran]
  rfl

variable {step : Refusing σ α}

theorem run_bind_of_ok
    {result : α}
    (ran : step.run.run state = (.ok result, after))
    (next : α → Refusing σ β) : (step >>= next).run.run state = (next result).run.run after := by
  rw [ExceptT.run_bind, StateT.run_bind, ran]
  rfl

theorem run_bind_of_error
    {refusal : Refusal}
    (ran : step.run.run state = (.error refusal, after))
    (next : α → Refusing σ β) : (step >>= next).run.run state = (.error refusal, after) := by
  rw [ExceptT.run_bind, StateT.run_bind, ran]
  rfl

end Refusing

/-- A step of a transformation. -/
abbrev Transforming (σ : Type) := Refusing (Cursor σ)

namespace Cursor

variable {σ : Type}

/-- Records what a leave hook has decided about a node. -/
def note (node : Node) (returned : Returned node.Alternative) (cursor : Cursor σ) : Cursor σ :=
  { cursor with decided := cursor.decided ++ [⟨cursor.stack, node, returned⟩] }

/-- Does something below a node and comes back, whatever comes of it. -/
def within {α : Type} (node : Node) (inner : Transforming σ α) : Transforming σ α :=
  ExceptT.mk do
    modify (·.push node)
    let outcome ← inner.run
    modify pop
    return outcome

end Cursor

namespace Transformer

variable {σ : Type}

/-- A child that its parent cannot do without must not be removed. -/
def keepRequired (child : Node) : Edit Node → Except Refusal (Edit Node)
  | .remove => if child.family = .block then .error .body else .ok .remove
  | edit => .ok edit

/-- Leaves a node and decides what becomes of it. -/
def leaveNode (hooks : Transformer (StateM σ)) (node : Node) (descended : Bool)
    (update : Option Node) : StateM (Cursor σ) (Edit Node) := do
  let returned ← Cursor.call node (hooks.leave · node update) fun place _ => .leave place descended
  modify (·.note node returned)
  return returned.edit update

/-- Transforms a node and everything below it. -/
def transform (hooks : Transformer (StateM σ)) (node : Node) : Transforming σ (Edit Node) := do
  let descends ← (Cursor.call node (hooks.enter · node) .visit : StateM (Cursor σ) Bool)
  let update ←
    if descends then
      Cursor.within node do
        let edits ← node.children.attach.mapM fun child => do
          let edit ← transform hooks child.1
          ExceptT.mk (pure (keepRequired child.1 edit))
        return node.rebuilt edits
    else pure none
  (hooks.leaveNode node descends update : StateM (Cursor σ) (Edit Node))
termination_by node.walk.length
decreasing_by exact Node.length_walk_lt child.2

/-- Transforms a child of a node. -/
def transformChild (hooks : Transformer (StateM σ)) (child : Node) :
    Transforming σ (Edit Node) := do
  let edit ← hooks.transform child
  ExceptT.mk (pure (keepRequired child edit))

variable (hooks : Transformer (StateM σ))

theorem transform_eq (node : Node) :
    hooks.transform node = (do
      let descends ← (Cursor.call node (hooks.enter · node) .visit : StateM (Cursor σ) Bool)
      let update ←
        if descends then
          Cursor.within node do
            return node.rebuilt (← node.children.mapM hooks.transformChild)
        else pure none
      (hooks.leaveNode node descends update : StateM (Cursor σ) (Edit Node))) := by
  have children : node.children.attach.mapM (fun child => hooks.transformChild child.1) =
      node.children.mapM hooks.transformChild := by
    conv_rhs => rw [← List.attach_map_subtype_val node.children]
    simp only [List.mapM_map]
    rfl
  rw [transform, ← children]
  rfl

/-- A node that is no body may be removed. -/
theorem keepRequired_of_family_ne
    {node : Node}
    (other : node.family ≠ .block)
    (edit : Edit Node) : keepRequired node edit = .ok edit := by
  cases edit with
  | remove => exact if_neg other
  | keep | replace _ => rfl

theorem transformChild_eq_transform
    {node : Node}
    (other : node.family ≠ .block) : hooks.transformChild node = hooks.transform node := by
  unfold transformChild
  simp only [keepRequired_of_family_ne other]
  exact bind_pure _

/-! ### What becomes of the state -/

variable {hooks} {node : Node} {cursor : Cursor σ} {state : σ} {update : Option Node}

theorem run_leaveNode
    {returned : Returned node.Alternative}
    (descended : Bool)
    (left : (hooks.leave cursor.stack node update).run cursor.hooks = (returned, state)) :
    (hooks.leaveNode node descended update).run cursor = (returned.edit update,
      (cursor.advance [.leave ⟨cursor.stack, node⟩ descended] state).note node returned) := by
  unfold leaveNode
  refine (StateM.run_bind_of_eq (Cursor.run_call node (hooks.leave · node update) _ left)
    _).trans ?_
  rfl

theorem run_transform_declined
    {edit : Edit Node}
    {after : Cursor σ}
    (entered : (hooks.enter cursor.stack node).run cursor.hooks = (false, state))
    (left : (hooks.leaveNode node false none).run
      (cursor.advance [.visit ⟨cursor.stack, node⟩ false] state) = (edit, after)) :
    (hooks.transform node).run.run cursor = (.ok edit, after) := by
  have visited := Refusing.run_lift (Cursor.run_call node (hooks.enter · node) .visit entered)
  rw [transform_eq]
  refine (Refusing.run_bind_of_ok visited _).trans ?_
  exact Refusing.run_lift left

theorem run_within
    {α : Type}
    {inner : Transforming σ α}
    {outcome : Except Refusal α}
    {below : Cursor σ}
    (ran : inner.run.run (cursor.push node) = (outcome, below)) :
    (Cursor.within node inner).run.run cursor = (outcome, below.pop) := by
  unfold Cursor.within
  refine (StateM.run_bind_of_eq rfl _).trans ?_
  refine (StateM.run_bind_of_eq ran _).trans ?_
  rfl

theorem run_transform_entered
    {edits : List (Edit Node)}
    {below after : Cursor σ}
    {edit : Edit Node}
    (entered : (hooks.enter cursor.stack node).run cursor.hooks = (true, state))
    (children : (node.children.mapM hooks.transformChild).run.run
      ((cursor.advance [.visit ⟨cursor.stack, node⟩ true] state).push node) = (.ok edits, below))
    (left : (hooks.leaveNode node true (node.rebuilt edits)).run below.pop = (edit, after)) :
    (hooks.transform node).run.run cursor = (.ok edit, after) := by
  have visited := Refusing.run_lift (Cursor.run_call node (hooks.enter · node) .visit entered)
  rw [transform_eq]
  refine (Refusing.run_bind_of_ok visited _).trans ?_
  refine (Refusing.run_bind_of_ok (run_within (Refusing.run_bind_of_ok children _)) _).trans ?_
  exact Refusing.run_lift left

/-- If the children stop the transformation, the node is not left, but the stack is popped. -/
theorem run_transform_refused
    {refusal : Refusal}
    {below : Cursor σ}
    (entered : (hooks.enter cursor.stack node).run cursor.hooks = (true, state))
    (children : (node.children.mapM hooks.transformChild).run.run
      ((cursor.advance [.visit ⟨cursor.stack, node⟩ true] state).push node) =
        (.error refusal, below)) :
    (hooks.transform node).run.run cursor = (.error refusal, below.pop) := by
  have visited := Refusing.run_lift (Cursor.run_call node (hooks.enter · node) .visit entered)
  rw [transform_eq]
  refine (Refusing.run_bind_of_ok visited _).trans ?_
  exact Refusing.run_bind_of_error (run_within (Refusing.run_bind_of_error children _)) _

/-- If a child may become what it has been transformed into, it has been transformed into that. -/
theorem run_transform_of_child
    {edit : Edit Node}
    {after : Cursor σ}
    (ran : (hooks.transformChild node).run.run cursor = (.ok edit, after)) :
    (hooks.transform node).run.run cursor = (.ok edit, after) := by
  unfold transformChild at ran
  cases transformed : (hooks.transform node).run.run cursor with
  | mk outcome final =>
      cases outcome with
      | error refusal =>
          rw [Refusing.run_bind_of_error transformed] at ran
          cases ran
      | ok other =>
          rw [Refusing.run_bind_of_ok transformed] at ran
          have required : keepRequired node other = .ok edit := congrArg Prod.fst ran
          have same : other = edit := by
            unfold keepRequired at required
            split at required
            · split at required <;> cases required
              rfl
            · cases required
              rfl
          rw [same]
          exact congrArg (Prod.mk (Except.ok edit)) (congrArg Prod.snd ran)

end Transformer

end JupiterMigration
