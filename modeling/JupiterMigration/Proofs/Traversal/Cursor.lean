import JupiterMigration.Proofs.Revision.Basic
import JupiterMigration.Proofs.Traversal.Nodes

/-!
# Visits with a stack

A visitor keeps the nodes around the current one on a stack that it changes on the way: it pushes a
node before it goes through the children, and pops it afterwards.  `Visitor.walk` is such a visit;
it records the hooks that are called.  It does what `Visitor.visitNode` does, which hands the nodes
around a node down instead, and leaves the stack as it was (`Visitor.run_walk`).

The hooks are called in the order of the tree (`Firing.Covers`).
-/

namespace JupiterMigration

/-! ## Calls of hooks -/

/-- A call of a hook at a node, and whether the children of the node are gone through. -/
inductive Firing where
  | visit (place : Occurrence) (descends : Bool)
  | leave (place : Occurrence) (descended : Bool)

namespace Firing

/-- The occurrence at which a hook is called. -/
def place : Firing → Occurrence
  | visit place _ => place
  | leave place _ => place

/--
The occurrences that a call stands for when nodes are visited, those that are left out included.
-/
def visited : Firing → List Occurrence
  | visit place true => [place]
  | visit place false => place.node.occurrences place.above
  | leave .. => []

/-- The occurrences that a call stands for when nodes are left, those that are left out included. -/
def left : Firing → List Occurrence
  | leave place true => [place]
  | leave place false => place.node.occurrencesUp place.above
  | visit .. => []

/-- Every visit has its own leave behind it, and what happens in between is nested as well. -/
inductive Nested : List Firing → Prop
  | nil : Nested []
  | around (place : Occurrence) (descends : Bool) {inner rest : List Firing}
      (innerNested : Nested inner)
      (restNested : Nested rest) :
      Nested (visit place descends :: (inner ++ leave place descends :: rest))

variable {front back firings : List Firing}

theorem Nested.append (frontNested : Nested front) (backNested : Nested back) :
    Nested (front ++ back) := by
  induction frontNested with
  | nil => exact backNested
  | around place descends innerNested _ _ restHypothesis =>
      rw [List.cons_append, List.append_assoc, List.cons_append]
      exact .around place descends innerNested restHypothesis

/--
Hooks are called in the order of some trees: the visits, with the nodes that are left out put in, go
through each node before its children, the leaves through each node after its children, and both
are nested.
-/
structure Covers (above nodes : List Node) (firings : List Firing) : Prop where
  visits : firings.flatMap visited = nodes.flatMap (Node.occurrences above)
  leaves : firings.flatMap left = nodes.flatMap (Node.occurrencesUp above)
  nested : Nested firings

/-- A hook is called at an occurrence that the call stands for. -/
theorem place_mem (firing : Firing) : firing.place ∈ firing.visited ++ firing.left := by
  cases firing with
  | visit place descends =>
      refine List.mem_append_left _ ?_
      cases descends with
      | true => exact List.mem_singleton_self _
      | false =>
          rw [visited, Node.occurrences_eq]
          exact List.mem_cons_self
  | leave place descended =>
      refine List.mem_append_right _ ?_
      cases descended with
      | true => exact List.mem_singleton_self _
      | false =>
          rw [left, Node.occurrencesUp_eq]
          exact List.mem_append_right _ (List.mem_singleton_self _)

namespace Covers

variable {above nodes others : List Node} {node : Node}

/-- Hooks are called at occurrences of the trees. -/
theorem place_mem
    {firing : Firing}
    (covers : Covers above nodes firings)
    (fired : firing ∈ firings) : firing.place ∈ nodes.flatMap (Node.occurrences above) := by
  obtain visited | left := List.mem_append.mp firing.place_mem
  · rw [← covers.visits]
    exact List.mem_flatMap_of_mem fired visited
  · have inside := List.mem_flatMap_of_mem fired left
    rw [covers.leaves] at inside
    obtain ⟨node, isNode, inside⟩ := List.mem_flatMap.mp inside
    exact List.mem_flatMap_of_mem isNode ((node.occurrencesUp_perm above).subset inside)

theorem nil (above : List Node) : Covers above [] [] :=
  ⟨rfl, rfl, .nil⟩

theorem append
    (frontCovers : Covers above nodes front)
    (backCovers : Covers above others back) : Covers above (nodes ++ others) (front ++ back) where
  visits := by rw [List.flatMap_append, List.flatMap_append, frontCovers.visits, backCovers.visits]
  leaves := by rw [List.flatMap_append, List.flatMap_append, frontCovers.leaves, backCovers.leaves]
  nested := frontCovers.nested.append backCovers.nested

theorem declined (above : List Node) (node : Node) :
    Covers above [node] [visit ⟨above, node⟩ false, leave ⟨above, node⟩ false] where
  visits := by simp [visited]
  leaves := by simp [left]
  nested := .around _ _ .nil .nil

theorem entered (covers : Covers (node :: above) node.children firings) :
    Covers above [node] (visit ⟨above, node⟩ true :: (firings ++ [leave ⟨above, node⟩ true])) where
  visits := by
    rw [List.flatMap_cons, List.flatMap_append, covers.visits]
    simp [visited, node.occurrences_eq]
  leaves := by
    rw [List.flatMap_cons, List.flatMap_append, covers.leaves]
    simp [left, node.occurrencesUp_eq]
  nested := .around _ _ covers.nested .nil

end Covers

end Firing

/-! ## The stack -/

/-- What a leave hook gives back for a node. -/
inductive Returned (α : Type) where
  /-- The node with the children that are left of it, as it was handed in. -/
  | updated
  /-- The node as it was entered. -/
  | original
  | other (node : α)
  | removal
  deriving DecidableEq, Repr

/-- What a leave hook has given back for a node. -/
structure Decision where
  /-- The nodes around the node, the innermost first. -/
  above : List Node
  /-- The node as it was entered. -/
  node : Node
  returned : Returned node.Alternative

/-- The state of a traversal whose hooks have states of type `σ`. -/
structure Cursor (σ : Type) where
  /-- The nodes around the current one, the innermost first. -/
  stack : List Node
  /-- The calls of hooks so far. -/
  fired : List Firing
  /-- What leave hooks have decided so far, if they decide anything. -/
  decided : List Decision
  hooks : σ

namespace Cursor

variable {σ : Type}

/-- The state before a traversal. -/
def start (hooks : σ) : Cursor σ := ⟨[], [], [], hooks⟩

/-- Goes below a node. -/
def push (node : Node) (cursor : Cursor σ) : Cursor σ :=
  { cursor with stack := node :: cursor.stack }

/-- Comes back from below a node. -/
def pop (cursor : Cursor σ) : Cursor σ :=
  { cursor with stack := cursor.stack.tail }

/-- Records calls of hooks, after which the hooks have a new state. -/
def advance (firings : List Firing) (hooks : σ) (cursor : Cursor σ) : Cursor σ :=
  { cursor with fired := cursor.fired ++ firings, hooks }

/-- Calls a hook at a node; the hook may look at the stack. -/
def call {α : Type} (node : Node) (hook : List Node → StateM σ α)
    (firing : Occurrence → α → Firing) : StateM (Cursor σ) α := fun cursor =>
  let (answer, hooks) := (hook cursor.stack).run cursor.hooks
  (answer, cursor.advance [firing ⟨cursor.stack, node⟩ answer] hooks)

theorem run_call
    {α : Type}
    {cursor : Cursor σ}
    {answer : α}
    {state : σ}
    (node : Node)
    (hook : List Node → StateM σ α)
    (firing : Occurrence → α → Firing)
    (answered : (hook cursor.stack).run cursor.hooks = (answer, state)) :
    (call node hook firing).run cursor =
      (answer, cursor.advance [firing ⟨cursor.stack, node⟩ answer] state) := by
  change call node hook firing cursor = _
  rw [call, answered]

@[simp]
theorem advance_advance (front back : List Firing) (between hooks : σ) (cursor : Cursor σ) :
    (cursor.advance front between).advance back hooks = cursor.advance (front ++ back) hooks := by
  simp [advance]

theorem pop_advance_push (node : Node) (firings : List Firing) (hooks : σ) (cursor : Cursor σ) :
    ((cursor.push node).advance firings hooks).pop = cursor.advance firings hooks := rfl

/-- The innermost node around the current one that is of a type. -/
def nearest? (isOfType : Node → Bool) (stack : List Node) : Option Node :=
  stack.find? isOfType

theorem nearest?_eq_some_iff {isOfType : Node → Bool} {stack : List Node} {found : Node} :
    nearest? isOfType stack = some found ↔ isOfType found = true ∧
      ∃ inner outer, stack = inner ++ found :: outer ∧ ∀ node ∈ inner, isOfType node = false := by
  simp [nearest?, List.find?_eq_some_iff_append]

end Cursor

/-- What follows a step goes on from the state that the step leaves. -/
theorem StateM.run_bind_of_eq
    {σ α β : Type}
    {step : StateM σ α}
    {state after : σ}
    {result : α}
    (ran : step.run state = (result, after))
    (next : α → StateM σ β) : (step >>= next).run state = (next result).run after := by
  rw [StateT.run_bind, ran]
  rfl

namespace Visitor

variable {σ : Type}

/-- Visits a node and everything below it. -/
def walk (visitor : Visitor (StateM σ)) (node : Node) : StateM (Cursor σ) Unit := do
  let descends ← Cursor.call node (visitor.enter · node) .visit
  if descends then
    modify (·.push node)
    node.children.attach.forM fun child => walk visitor child.1
    modify Cursor.pop
  Cursor.call node (visitor.leave · node) fun place _ => .leave place descends
termination_by node.walk.length
decreasing_by exact Node.length_walk_lt child.2

variable (visitor : Visitor (StateM σ))

theorem walk_eq (node : Node) :
    visitor.walk node = (do
      let descends ← Cursor.call node (visitor.enter · node) .visit
      if descends then
        modify (·.push node)
        node.children.forM visitor.walk
        modify Cursor.pop
      Cursor.call node (visitor.leave · node) fun place _ => .leave place descends) := by
  have children : node.children.attach.forM (fun child => visitor.walk child.1) =
      node.children.forM visitor.walk := by
    conv_rhs => rw [← List.attach_map_subtype_val node.children]
    simp only [List.forM_eq_forM, List.forM_map]
  rw [walk, children]

variable {visitor} {node : Node} {cursor : Cursor σ} {state : σ}

theorem run_walk_declined
    (entered : (visitor.enter cursor.stack node).run cursor.hooks = (false, state)) :
    (visitor.walk node).run cursor = ((), cursor.advance
      [.visit ⟨cursor.stack, node⟩ false, .leave ⟨cursor.stack, node⟩ false]
      ((visitor.leave cursor.stack node).run state).2) := by
  have visited : (Cursor.call node (visitor.enter · node) .visit).run cursor =
      (false, cursor.advance [.visit ⟨cursor.stack, node⟩ false] state) :=
    Cursor.run_call node (visitor.enter · node) .visit entered
  rw [walk_eq, StateM.run_bind_of_eq visited, if_neg Bool.false_ne_true]
  exact (Cursor.run_call node (visitor.leave · node) _ rfl).trans
    (congrArg (Prod.mk ()) (Cursor.advance_advance _ _ _ _ _))

theorem run_walk_entered
    {below : Cursor σ}
    (entered : (visitor.enter cursor.stack node).run cursor.hooks = (true, state))
    (children : (node.children.forM visitor.walk).run
      ((cursor.advance [.visit ⟨cursor.stack, node⟩ true] state).push node) = ((), below)) :
    (visitor.walk node).run cursor = ((), below.pop.advance
      [.leave ⟨below.pop.stack, node⟩ true]
      ((visitor.leave below.pop.stack node).run below.pop.hooks).2) := by
  have visited : (Cursor.call node (visitor.enter · node) .visit).run cursor =
      (true, cursor.advance [.visit ⟨cursor.stack, node⟩ true] state) :=
    Cursor.run_call node (visitor.enter · node) .visit entered
  rw [walk_eq, StateM.run_bind_of_eq visited, if_pos rfl]
  refine (StateM.run_bind_of_eq rfl _).trans ?_
  refine (StateM.run_bind_of_eq children _).trans ?_
  refine (StateM.run_bind_of_eq rfl _).trans ?_
  exact Cursor.run_call node (visitor.leave · node) _ rfl

/--
A step goes through some nodes: it calls hooks in the order of the nodes, leaves the stack as it
was, and does to the state of the hooks what is done when the nodes around are handed down.
-/
def GoesThrough (nodes : List Node) (step : StateM (Cursor σ) Unit)
    (handedDown : List Node → StateM σ Unit) : Prop :=
  ∀ cursor, ∃ firings, Firing.Covers cursor.stack nodes firings ∧
    step.run cursor =
      ((), cursor.advance firings ((handedDown cursor.stack).run cursor.hooks).2)

theorem goesThrough_children
    {children : List Node}
    (each : ∀ child ∈ children,
      GoesThrough [child] (visitor.walk child) fun above => visitor.visitNode above child) :
    GoesThrough children (children.forM visitor.walk) fun above =>
      children.forM (visitor.visitNode above) := by
  induction children with
  | nil =>
      refine fun cursor => ⟨[], .nil _, ?_⟩
      rw [Cursor.advance, List.append_nil]
      rfl
  | cons first rest inductionHypothesis =>
      intro cursor
      rw [List.forall_mem_cons] at each
      obtain ⟨front, frontCovers, front_eq⟩ := each.1 cursor
      obtain ⟨back, backCovers, back_eq⟩ := inductionHypothesis each.2
        (cursor.advance front ((visitor.visitNode cursor.stack first).run cursor.hooks).2)
      refine ⟨front ++ back, frontCovers.append backCovers, ?_⟩
      refine (StateM.run_bind_of_eq front_eq _).trans (back_eq.trans ?_)
      rw [Cursor.advance_advance]
      rfl

/-- A visit with a stack goes through the tree below a node. -/
theorem goesThrough_walk (visitor : Visitor (StateM σ)) (node : Node) :
    GoesThrough [node] (visitor.walk node) fun above => visitor.visitNode above node := by
  induction node using Node.induction_children with
  | step node inductionHypothesis =>
      intro cursor
      simp only [visitor.visitNode_eq, around]
      cases entered : (visitor.enter cursor.stack node).run cursor.hooks with
      | mk descends state =>
          rw [StateM.run_bind_of_eq entered]
          cases descends with
          | false => exact ⟨_, .declined cursor.stack node, run_walk_declined entered⟩
          | true =>
              obtain ⟨inner, covers, children⟩ := goesThrough_children inductionHypothesis
                ((cursor.advance [.visit ⟨cursor.stack, node⟩ true] state).push node)
              refine ⟨_, .entered covers, (run_walk_entered entered children).trans ?_⟩
              rw [Cursor.pop_advance_push, Cursor.advance_advance, Cursor.advance_advance]
              rfl

end Visitor

end JupiterMigration
