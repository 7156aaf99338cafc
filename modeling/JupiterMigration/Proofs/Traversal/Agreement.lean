import JupiterMigration.Proofs.Traversal.Editing
import JupiterMigration.Proofs.Traversal.Fate

/-!
# Visitors and transformers go through a tree alike

A transformer whose visit hooks answer like those of a visitor calls its hooks at the same nodes in
the same order, whatever its leave hooks give back: they decide about nodes that have been left.  If
the body of a method is removed, the transformer stops right there, with an empty stack
(`Visitor.traversals_agree`).
-/

namespace JupiterMigration

variable {σ τ : Type}

/--
The visit hooks of a transformer answer like those of a visitor as long as the states of the hooks
are related, and all hooks keep them related, whatever leave hooks give back.
-/
structure Transformer.AnswersLike (related : σ → τ → Prop) (hooks : Transformer (StateM τ))
    (visitor : Visitor (StateM σ)) : Prop where
  enter : ∀ above node state other, related state other →
    ((hooks.enter above node).run other).1 = ((visitor.enter above node).run state).1 ∧
      related ((visitor.enter above node).run state).2 ((hooks.enter above node).run other).2
  leave : ∀ above node update state other, related state other →
    related ((visitor.leave above node).run state).2 ((hooks.leave above node update).run other).2

namespace Cursor

/-- A visit and a transformation stand at the same place after the same calls. -/
structure Twin (related : σ → τ → Prop) (cursor : Cursor σ) (twin : Cursor τ) : Prop where
  stack : twin.stack = cursor.stack
  fired : twin.fired = cursor.fired
  hooks : related cursor.hooks twin.hooks

/-- A transformation has stopped on the way of a visit. -/
structure Behind (visited : Cursor σ) (stopped : Cursor τ) : Prop where
  stack : stopped.stack = visited.stack
  fired : stopped.fired <+: visited.fired

/-- What becomes of a transformation on the way of a visit. -/
def Meets {α : Type} (related : σ → τ → Prop) (visited : Cursor σ) :
    Except Refusal α × Cursor τ → Prop
  | (.ok _, twin) => Twin related visited twin
  | (.error _, stopped) => Behind visited stopped

variable {related : σ → τ → Prop} {cursor : Cursor σ} {twin : Cursor τ}

theorem Twin.advance
    {state : σ}
    {other : τ}
    (isTwin : Twin related cursor twin)
    (firings : List Firing)
    (stillRelated : related state other) :
    Twin related (cursor.advance firings state) (twin.advance firings other) where
  stack := isTwin.stack
  fired := congrArg (· ++ firings) isTwin.fired
  hooks := stillRelated

theorem Twin.push (isTwin : Twin related cursor twin) (node : Node) :
    Twin related (cursor.push node) (twin.push node) :=
  ⟨congrArg (node :: ·) isTwin.stack, isTwin.fired, isTwin.hooks⟩

theorem Twin.pop (isTwin : Twin related cursor twin) : Twin related cursor.pop twin.pop :=
  ⟨congrArg List.tail isTwin.stack, isTwin.fired, isTwin.hooks⟩

theorem Twin.note (isTwin : Twin related cursor twin) (node : Node)
    (returned : Returned node.Alternative) : Twin related cursor (twin.note node returned) :=
  ⟨isTwin.stack, isTwin.fired, isTwin.hooks⟩

end Cursor

/-- A step of a transformation goes the way of a visit. -/
def Follows {α : Type} (related : σ → τ → Prop) (visit : StateM (Cursor σ) Unit)
    (step : Transforming τ α) : Prop :=
  ∀ cursor twin, Cursor.Twin related cursor twin →
    Cursor.Meets related (visit.run cursor).2 (step.run.run twin)

namespace Transformer

variable {hooks : Transformer (StateM τ)} {node : Node}
variable {related : σ → τ → Prop} {visitor : Visitor (StateM σ)}

theorem follows_transformChild
    (follows : Follows related (visitor.walk node) (hooks.transform node)) :
    Follows related (visitor.walk node) (hooks.transformChild node) := by
  intro cursor twin isTwin
  have meets := follows cursor twin isTwin
  unfold transformChild
  cases transformed : (hooks.transform node).run.run twin with
  | mk outcome after =>
      rw [transformed] at meets
      cases outcome with
      | error refusal =>
          rw [Refusing.run_bind_of_error transformed]
          exact meets
      | ok edit =>
          rw [Refusing.run_bind_of_ok transformed]
          cases edit with
          | keep | replace _ => exact meets
          | remove =>
              by_cases isBlock : node.family = .block
              · have stopped : keepRequired node .remove = .error .body := if_pos isBlock
                rw [stopped]
                exact ⟨meets.stack, meets.fired ▸ List.prefix_refl _⟩
              · have kept : keepRequired node .remove = .ok .remove := if_neg isBlock
                rw [kept]
                exact meets

/-- A stop on the way of a visit is one on the way of a longer visit. -/
theorem behind_longer
    {visited : Cursor σ}
    {stopped : Cursor τ}
    (nodes : List Node)
    (short : Cursor.Behind visited stopped) :
    Cursor.Behind ((nodes.forM visitor.walk).run visited).2 stopped := by
  have longer : Visitor.GoesThrough nodes (nodes.forM visitor.walk) _ :=
    Visitor.goesThrough_children fun child _ => visitor.goesThrough_walk child
  obtain ⟨firings, -, longer_eq⟩ := longer visited
  rw [longer_eq]
  exact ⟨short.stack, short.fired.trans (List.prefix_append _ _)⟩

theorem follows_children
    {children : List Node}
    (each : ∀ child ∈ children, Follows related (visitor.walk child) (hooks.transformChild child)) :
    Follows related (children.forM visitor.walk) (children.mapM hooks.transformChild) := by
  induction children with
  | nil => exact fun cursor twin isTwin => isTwin
  | cons first rest inductionHypothesis =>
      intro cursor twin isTwin
      rw [List.forall_mem_cons] at each
      have front := each.1 cursor twin isTwin
      have visited : ((first :: rest).forM visitor.walk).run cursor =
          (rest.forM visitor.walk).run ((visitor.walk first).run cursor).2 := rfl
      rw [List.mapM_cons, visited]
      cases transformed : (hooks.transformChild first).run.run twin with
      | mk outcome between =>
          rw [transformed] at front
          cases outcome with
          | error refusal =>
              rw [Refusing.run_bind_of_error transformed]
              exact behind_longer rest front
          | ok edit =>
              have back := inductionHypothesis each.2 _ between front
              rw [Refusing.run_bind_of_ok transformed]
              cases others : (rest.mapM hooks.transformChild).run.run between with
              | mk outcome after =>
                  rw [others] at back
                  cases outcome with
                  | error refusal =>
                      rw [Refusing.run_bind_of_error others]
                      exact back
                  | ok edits =>
                      rw [Refusing.run_bind_of_ok others]
                      exact back

/-- When both leave a node, they still stand at the same place. -/
theorem twin_leaveNode
    {cursor : Cursor σ}
    {twin : Cursor τ}
    (node : Node)
    (alike : AnswersLike related hooks visitor)
    (isTwin : Cursor.Twin related cursor twin)
    (descended : Bool)
    (update : Option Node) :
    Cursor.Twin related
      (cursor.advance [.leave ⟨cursor.stack, node⟩ descended]
        ((visitor.leave cursor.stack node).run cursor.hooks).2)
      ((hooks.leaveNode node descended update).run twin).2 := by
  rw [run_leaveNode descended rfl, isTwin.stack]
  exact (isTwin.advance _ (alike.leave _ _ _ _ _ isTwin.hooks)).note _ _

/-- A transformation goes the way of a visit, whatever leave hooks give back. -/
theorem follows_transform (alike : AnswersLike related hooks visitor) (node : Node) :
    Follows related (visitor.walk node) (hooks.transform node) := by
  induction node using Node.induction_children with
  | step node inductionHypothesis =>
      have children := follows_children fun child isChild =>
        follows_transformChild (inductionHypothesis child isChild)
      intro cursor twin isTwin
      have answers := alike.enter cursor.stack node cursor.hooks twin.hooks isTwin.hooks
      cases entered : (visitor.enter cursor.stack node).run cursor.hooks with
      | mk descends state =>
          cases answered : (hooks.enter cursor.stack node).run twin.hooks with
          | mk answer other =>
              rw [entered, answered] at answers
              obtain ⟨rfl, stillRelated⟩ := answers
              have visited := isTwin.advance [.visit ⟨cursor.stack, node⟩ answer] stillRelated
              rw [← isTwin.stack] at answered
              cases answer with
              | false =>
                  rw [Visitor.run_walk_declined entered, run_transform_declined answered rfl,
                    isTwin.stack]
                  have left := twin_leaveNode node alike visited false none
                  rw [Cursor.advance_advance] at left
                  exact left
              | true =>
                  have meets := children _ _ (visited.push node)
                  cases below : (node.children.mapM hooks.transformChild).run.run
                      ((twin.advance [.visit ⟨cursor.stack, node⟩ true] other).push node) with
                  | mk outcome after =>
                      rw [below] at meets
                      rw [← isTwin.stack] at below
                      rw [Visitor.run_walk_entered entered rfl]
                      cases outcome with
                      | error refusal =>
                          rw [run_transform_refused answered below]
                          exact ⟨congrArg List.tail meets.stack,
                            meets.fired.trans (List.prefix_append _ _)⟩
                      | ok edits =>
                          rw [run_transform_entered answered below rfl]
                          exact twin_leaveNode node alike meets.pop true _

end Transformer

/-! ## Whole trees -/

/--
How the transformation of a tree ends whose visit makes some calls of hooks.  If it comes to its
end, it has made the same calls, and has removed no body of a method; if it is refused, it has made
the first of them, the last one when it left a body and removed it.  The stack is empty in any case.
-/
def Cursor.EndsOn (firings : List Firing) : Except Refusal (Edit Node) × Cursor τ → Prop
  | (.ok _, after) =>
    after.stack = [] ∧ after.fired = firings ∧
      ∀ decision ∈ after.decided.dropLast, ¬decision.RemovesBody
  | (.error refusal, stopped) =>
    refusal.message = "Cannot remove required child 'body' of MethodNode" ∧
      stopped.stack = [] ∧ stopped.fired <+: firings ∧ stopped.AtRemovedBody

theorem Transformer.endsOn_of_follows
    {related : σ → τ → Prop}
    {hooks : Transformer (StateM τ)}
    {visitor : Visitor (StateM σ)}
    {state : σ}
    {other : τ}
    (root : Node)
    (alike : AnswersLike related hooks visitor)
    (isRelated : related state other) :
    Cursor.EndsOn ((visitor.walk root).run (Cursor.start state)).2.fired
      ((hooks.transform root).run.run (Cursor.start other)) := by
  have meets := follows_transform alike root (Cursor.start state) (Cursor.start other)
    ⟨rfl, rfl, isRelated⟩
  obtain ⟨firings, -, walked⟩ := visitor.goesThrough_walk root (Cursor.start state)
  have restored : ((visitor.walk root).run (Cursor.start state)).2.stack = [] := by
    rw [walked]
    rfl
  cases transformed : (hooks.transform root).run.run (Cursor.start other) with
  | mk outcome after =>
      rw [transformed] at meets
      cases outcome with
      | ok edit =>
          obtain ⟨fate, tells⟩ := hooks.exists_fate root _ after edit transformed
          refine ⟨meets.stack.trans restored, meets.fired, ?_⟩
          rw [tells.progress.decided, fate.decisions_eq, ← List.append_assoc, List.dropLast_concat]
          exact tells.keepsBodies
      | error refusal =>
          cases refusal
          exact ⟨rfl, meets.stack.trans restored, meets.fired,
            hooks.atRemovedBody_of_error root _ after .body transformed⟩

/--
A visit calls its hooks in the order of the tree: a node is visited before its children and left
after them, and what is declined is left out.  Around each node stand the nodes of the path to it,
of which the nearest one of a type is the innermost one; afterwards the stack is empty.  So it is
for the visit that hands the nodes around down, which does the same to the state of the hooks; of a
file it is `Visitor.visit`.

A transformation whose visit hooks answer alike makes the same calls, whatever its leave hooks give
back, until it removes a body.  With the hooks of an editor, it does what the editor does, of a file
what `Editor.edit` does; with a hook that may remove bodies, it ends and is refused as the editor
with that hook.
-/
theorem Visitor.traversals_agree (visitor : Visitor (StateM σ)) (root : Node) (state : σ) :
    ∃ firings, (visitor.walk root).run (Cursor.start state) =
        ((), ⟨[], firings, [], ((visitor.visitNode [] root).run state).2⟩) ∧
      (∀ unit, root = .sourceUnit unit → visitor.visitNode [] root = visitor.visit unit) ∧
      Firing.Covers [] [root] firings ∧
      (root.occurrences []).map (·.node) = root.walk ∧
      (∀ firing ∈ firings, root.OnPath firing.place.above firing.place.node ∧
        ∀ isOfType found, Cursor.nearest? isOfType firing.place.above = some found ↔
          isOfType found = true ∧ ∃ inner outer, firing.place.above = inner ++ found :: outer ∧
            ∀ node ∈ inner, isOfType node = false) ∧
      (∀ (τ : Type) (related : σ → τ → Prop) (hooks : Transformer (StateM τ)) (other : τ),
        hooks.AnswersLike related visitor → related state other →
          Cursor.EndsOn firings ((hooks.transform root).run.run (Cursor.start other))) ∧
      ∀ (τ : Type) (editor : Editor (StateM τ)) (other : τ),
        (∀ unit, root = .sourceUnit unit →
          editor.editNode [] root = Edit.map .sourceUnit <$> editor.edit unit) ∧
        (∃ after : Cursor τ, after.stack = [] ∧
          after.hooks = ((editor.editNode [] root).run other).2 ∧
          ((editor.transformer editor.leaveBody).transform root).run.run (Cursor.start other) =
            (.ok ((editor.editNode [] root).run other).1, after)) ∧
        (root.family ≠ .block → ∀ leaveBlock : Leaving Block → StateM τ (Edit Block),
          ∃ after : Cursor τ, after.stack = [] ∧
            after.hooks = (((editor.refusing leaveBlock).editNode [] root).run.run other).2 ∧
            ((editor.transformer leaveBlock).transform root).run.run (Cursor.start other) =
              ((((editor.refusing leaveBlock).editNode [] root).run.run other).1, after)) := by
  obtain ⟨firings, covers, walked⟩ := visitor.goesThrough_walk root (Cursor.start state)
  refine ⟨firings, walked, ?_, covers, root.map_node_occurrences [],
    fun firing fired => ⟨?_, ?_⟩, fun τ related hooks other alike isRelated => ?_,
    fun τ editor other => ⟨?_, editor.exists_run_transform root (Cursor.start other),
      fun noBody leaveBlock => ?_⟩⟩
  · rintro unit rfl
    exact visitor.visitNode_sourceUnit unit
  · have inside := covers.place_mem fired
    rw [List.flatMap_singleton] at inside
    exact Node.onPath_of_mem_occurrences inside
  · exact fun isOfType found => Cursor.nearest?_eq_some_iff
  · have ends := Transformer.endsOn_of_follows root alike isRelated
    rw [walked] at ends
    exact ends
  · rintro unit rfl
    exact editor.editNode_sourceUnit unit
  · exact editor.carriesOut_transform noBody leaveBlock (Cursor.start other)

/-! ### A removed body -/

/-- A method whose body is one statement. -/
def Node.brief : Node :=
  .member (.method ⟨1, "", [], "", "", some "void", " ", "run", "", [], "", " ",
    some ⟨2, "", [⟨3, " ", "go();", none, ["go"]⟩], " "⟩, ["go"]⟩)

/-- The visitor that lists the numbers of nodes and leaves out what is in bodies. -/
def Visitor.numbers : Visitor (StateM (List Nat)) where
  enter _ node := do
    modify (· ++ [node.id])
    return node.family ≠ .block
  leave _ _ := pure ()

/-- The transformer that lists the same numbers and removes bodies. -/
def Transformer.bodiless : Transformer (StateM (List Nat)) where
  enter := Visitor.numbers.enter
  leave _ node _ := pure (if node.family = .block then .removal else .updated)

theorem Transformer.answersLike_bodiless : AnswersLike Eq bodiless Visitor.numbers where
  enter := by
    rintro above node state _ rfl
    exact ⟨rfl, rfl⟩
  leave := by
    rintro above node update state _ rfl
    rfl

theorem Visitor.traversals_agree_bodyRemoved :
    ∃ firings, firings.length = 4 ∧
      ((Transformer.bodiless.transform Node.brief).run.run (Cursor.start [])).1 = .error .body ∧
      Cursor.EndsOn firings
        ((Transformer.bodiless.transform Node.brief).run.run (Cursor.start [])) := by
  obtain ⟨firings, walked, -, -, -, -, ends, -⟩ := Visitor.numbers.traversals_agree Node.brief []
  refine ⟨firings, ?_, ?_, ends _ Eq _ [] Transformer.answersLike_bodiless rfl⟩
  · have fired : ((Visitor.numbers.walk Node.brief).run (Cursor.start [])).2.fired = firings := by
      rw [walked]
    rw [← fired]
    simp [Visitor.walk_eq, Node.brief, Node.children, Visitor.numbers]
    rfl
  · simp [Transformer.transform_eq, Node.brief, Node.children, Transformer.bodiless,
      Visitor.numbers, Transformer.transformChild, Cursor.within, Transformer.leaveNode]
    rfl

end JupiterMigration
