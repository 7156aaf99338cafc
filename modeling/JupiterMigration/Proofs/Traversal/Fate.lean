import JupiterMigration.Proofs.Traversal.Transform

/-!
# What became of a tree

A transformation that comes to its end leaves a fate behind: whether the children of a node were
gone through, what became of each of them, and what the leave hook of the node gave back.  The fate
tells the outcome of the transformation (`Fate.edit`), the hooks that were called (`Fate.firings`)
and what they decided (`Fate.decisions`); this is what `Transformer.exists_fate` says.  One that
does not come to its end has been stopped by the removal of a body
(`Transformer.atRemovedBody_of_error`).
-/

namespace JupiterMigration

mutual

/-- What became of a node and of what is below it. -/
inductive Fate : Node → Type where
  | declined {node : Node} (returned : Returned node.Alternative) : Fate node
  | entered {node : Node} (below : Fates node.children) (returned : Returned node.Alternative) :
      Fate node

/-- What became of some nodes, one after the other. -/
inductive Fates : List Node → Type where
  | nil : Fates []
  | cons {node : Node} {nodes : List Node} (first : Fate node) (rest : Fates nodes) :
      Fates (node :: nodes)

end

/-- The body of a method is removed. -/
def Decision.RemovesBody (decision : Decision) : Prop :=
  decision.node.family = .block ∧ decision.returned = .removal

mutual

/-- The edit that a transformation comes to at a node. -/
def Fate.edit {node : Node} : Fate node → Edit Node
  | .declined returned => returned.edit none
  | .entered below returned => returned.edit (node.rebuilt below.edits)

/-- The edits that a transformation comes to at some nodes. -/
def Fates.edits {nodes : List Node} : Fates nodes → List (Edit Node)
  | .nil => []
  | .cons first rest => first.edit :: rest.edits

end

mutual

/-- The calls of hooks at a node and below it. -/
def Fate.firings {node : Node} (above : List Node) : Fate node → List Firing
  | .declined _ => [.visit ⟨above, node⟩ false, .leave ⟨above, node⟩ false]
  | .entered below _ =>
    .visit ⟨above, node⟩ true :: (below.firings (node :: above) ++ [.leave ⟨above, node⟩ true])

/-- The calls of hooks at some nodes and below them. -/
def Fates.firings {nodes : List Node} (above : List Node) : Fates nodes → List Firing
  | .nil => []
  | .cons first rest => first.firings above ++ rest.firings above

end

mutual

/-- What leave hooks decided at a node and below it. -/
def Fate.decisions {node : Node} (above : List Node) : Fate node → List Decision
  | .declined returned => [⟨above, node, returned⟩]
  | .entered below returned => below.decisions (node :: above) ++ [⟨above, node, returned⟩]

/-- What leave hooks decided at some nodes and below them. -/
def Fates.decisions {nodes : List Node} (above : List Node) : Fates nodes → List Decision
  | .nil => []
  | .cons first rest => first.decisions above ++ rest.decisions above

end

namespace Fate

variable {node : Node} (above : List Node) (fate : Fate node)

/-- What the leave hook of the node gave back. -/
def returned : Fate node → Returned node.Alternative
  | declined returned => returned
  | entered _ returned => returned

/-- What leave hooks decided below the node. -/
def decisionsBelow : Fate node → List Decision
  | declined _ => []
  | entered below _ => below.decisions (node :: above)

theorem decisions_eq :
    fate.decisions above = fate.decisionsBelow above ++ [⟨above, node, fate.returned⟩] := by
  cases fate with
  | declined returned => rw [decisions]; rfl
  | entered below returned => rw [decisions]; rfl

/-- A hook was called at the node last. -/
theorem getLast?_firings :
    ∃ descended, (fate.firings above).getLast? = some (.leave ⟨above, node⟩ descended) := by
  cases fate with
  | declined returned => exact ⟨false, by rw [firings]; rfl⟩
  | entered below returned =>
      refine ⟨true, ?_⟩
      rw [firings, ← List.cons_append, List.getLast?_concat]

/-- A node is removed only if its leave hook says so. -/
theorem returned_eq_removal_iff : fate.returned = .removal ↔ fate.edit = .remove := by
  have edit_eq : ∃ update, fate.edit = fate.returned.edit update := by
    cases fate with
    | declined returned => exact ⟨none, by rw [edit, Fate.returned]⟩
    | entered below returned => exact ⟨node.rebuilt below.edits, by rw [edit, Fate.returned]⟩
  obtain ⟨update, edit_eq⟩ := edit_eq
  rw [edit_eq]
  cases fate.returned with
  | updated => cases update <;> simp [Returned.edit, Edit.ofUpdate]
  | original | other _ | removal => simp [Returned.edit]

end Fate

/-! ## Transformations that come to their end -/

variable {σ : Type}

/-- What a step adds to the state of a traversal; it leaves the stack as it was. -/
structure Cursor.Extends (cursor after : Cursor σ) (firings : List Firing)
    (decisions : List Decision) : Prop where
  stack : after.stack = cursor.stack
  fired : after.fired = cursor.fired ++ firings
  decided : after.decided = cursor.decided ++ decisions

theorem Cursor.Extends.append
    {cursor between after : Cursor σ}
    {front back : List Firing}
    {decisions others : List Decision}
    (first : cursor.Extends between front decisions)
    (second : between.Extends after back others) :
    cursor.Extends after (front ++ back) (decisions ++ others) where
  stack := second.stack.trans first.stack
  fired := by rw [second.fired, first.fired, List.append_assoc]
  decided := by rw [second.decided, first.decided, List.append_assoc]

/-- The body of a method has been left last, and was removed. -/
def Cursor.AtRemovedBody (cursor : Cursor σ) : Prop :=
  ∃ above body descended,
    cursor.fired.getLast? = some (.leave ⟨above, .block body⟩ descended) ∧
      cursor.decided.getLast? = some ⟨above, .block body, .removal⟩

/-- A fate tells how a transformation of a node has changed the state, and what it came to. -/
structure Fate.Tells {node : Node} (fate : Fate node) (cursor after : Cursor σ)
    (edit : Edit Node) : Prop where
  progress : cursor.Extends after (fate.firings cursor.stack) (fate.decisions cursor.stack)
  edit_eq : edit = fate.edit
  keepsBodies : ∀ decision ∈ fate.decisionsBelow cursor.stack, ¬decision.RemovesBody

/-- The fates of some nodes tell how their transformation has changed the state. -/
structure Fates.Tell {nodes : List Node} (fates : Fates nodes) (cursor after : Cursor σ)
    (edits : List (Edit Node)) : Prop where
  progress : cursor.Extends after (fates.firings cursor.stack) (fates.decisions cursor.stack)
  edits_eq : edits = fates.edits
  keepBodies : ∀ decision ∈ fates.decisions cursor.stack, ¬decision.RemovesBody

namespace Transformer

variable {hooks : Transformer (StateM σ)} {node : Node} {cursor after : Cursor σ}
  {edit : Edit Node}

/-- A child keeps its place only if it may be removed or was not. -/
theorem tells_of_transformChild
    (whole : ∀ edit after, (hooks.transform node).run.run cursor = (.ok edit, after) →
      ∃ fate : Fate node, fate.Tells cursor after edit)
    (ran : (hooks.transformChild node).run.run cursor = (.ok edit, after)) :
    ∃ fate : Fate node, fate.Tells cursor after edit ∧
      ∀ decision ∈ fate.decisions cursor.stack, ¬decision.RemovesBody := by
  unfold transformChild at ran
  cases transformed : (hooks.transform node).run.run cursor with
  | mk outcome between =>
      cases outcome with
      | error refusal =>
          rw [Refusing.run_bind_of_error transformed] at ran
          cases ran
      | ok own =>
          rw [Refusing.run_bind_of_ok transformed] at ran
          obtain ⟨required, rfl⟩ : keepRequired node own = .ok edit ∧ between = after :=
            Prod.mk.inj ran
          obtain ⟨fate, tells⟩ := whole own between transformed
          have edit_eq : edit = own := by
            cases own with
            | keep | replace _ => exact (Except.ok.inj required).symm
            | remove =>
                by_cases isBlock : node.family = .block
                · rw [keepRequired, if_pos isBlock] at required
                  cases required
                · rw [keepRequired, if_neg isBlock] at required
                  exact (Except.ok.inj required).symm
          subst edit_eq
          refine ⟨fate, tells, ?_⟩
          rw [fate.decisions_eq, List.forall_mem_append]
          refine ⟨tells.keepsBodies, fun decision isLast => ?_⟩
          rw [List.mem_singleton] at isLast
          rintro ⟨isBlock, isRemoval⟩
          subst isLast
          have removed : edit = .remove :=
            tells.edit_eq.trans (fate.returned_eq_removal_iff.mp isRemoval)
          rw [removed, keepRequired, if_pos isBlock] at required
          cases required

theorem tell_of_children
    {children : List Node}
    {cursor after : Cursor σ}
    {edits : List (Edit Node)}
    (each : ∀ child ∈ children, ∀ (cursor after : Cursor σ) (edit : Edit Node),
      (hooks.transformChild child).run.run cursor = (.ok edit, after) →
        ∃ fate : Fate child, fate.Tells cursor after edit ∧
          ∀ decision ∈ fate.decisions cursor.stack, ¬decision.RemovesBody)
    (ran : (children.mapM hooks.transformChild).run.run cursor = (.ok edits, after)) :
    ∃ fates : Fates children, fates.Tell cursor after edits := by
  induction children generalizing cursor edits with
  | nil =>
      obtain ⟨edits_eq, rfl⟩ := Prod.mk.inj ran
      refine ⟨.nil, ⟨rfl, ?_, ?_⟩, (Except.ok.inj edits_eq).symm.trans ?_, ?_⟩
      · rw [Fates.firings, List.append_nil]
      · rw [Fates.decisions, List.append_nil]
      · rw [Fates.edits, List.reverse_nil]
      · rw [Fates.decisions]
        exact List.forall_mem_nil _
  | cons first rest inductionHypothesis =>
      rw [List.forall_mem_cons] at each
      rw [List.mapM_cons] at ran
      cases transformed : (hooks.transformChild first).run.run cursor with
      | mk outcome between =>
          cases outcome with
          | error refusal =>
              rw [Refusing.run_bind_of_error transformed] at ran
              cases ran
          | ok head =>
              rw [Refusing.run_bind_of_ok transformed] at ran
              cases others : (rest.mapM hooks.transformChild).run.run between with
              | mk outcome end_ =>
                  cases outcome with
                  | error refusal =>
                      rw [Refusing.run_bind_of_error others] at ran
                      cases ran
                  | ok tail =>
                      rw [Refusing.run_bind_of_ok others] at ran
                      obtain ⟨edits_eq, rfl⟩ := Prod.mk.inj ran
                      obtain ⟨fate, tells, keepsBodies⟩ := each.1 _ _ _ transformed
                      obtain ⟨fates, tell⟩ := inductionHypothesis each.2 others
                      have stack_eq := tells.progress.stack
                      refine ⟨.cons fate fates, ?_, (Except.ok.inj edits_eq).symm.trans ?_, ?_⟩
                      · rw [Fates.firings, Fates.decisions]
                        exact tells.progress.append (stack_eq ▸ tell.progress)
                      · rw [Fates.edits, tells.edit_eq, tell.edits_eq]
                      · rw [Fates.decisions, List.forall_mem_append]
                        exact ⟨keepsBodies, stack_eq ▸ tell.keepBodies⟩

/-- When a node is left, its decision is recorded. -/
theorem extends_leaveNode
    (descended : Bool)
    (update : Option Node)
    (ran : (hooks.leaveNode node descended update).run cursor = (edit, after)) :
    ∃ returned : Returned node.Alternative, edit = returned.edit update ∧
      cursor.Extends after [.leave ⟨cursor.stack, node⟩ descended]
        [⟨cursor.stack, node, returned⟩] := by
  rw [run_leaveNode descended rfl] at ran
  obtain ⟨rfl, rfl⟩ := Prod.mk.inj ran
  exact ⟨_, rfl, rfl, rfl, rfl⟩

theorem extends_visit
    (node : Node)
    (descends : Bool)
    (state : σ)
    (cursor : Cursor σ) :
    cursor.Extends (cursor.advance [.visit ⟨cursor.stack, node⟩ descends] state)
      [.visit ⟨cursor.stack, node⟩ descends] [] :=
  ⟨rfl, rfl, (List.append_nil _).symm⟩

theorem tells_of_declined
    {state : σ}
    (entered : (hooks.enter cursor.stack node).run cursor.hooks = (false, state))
    (ran : (hooks.transform node).run.run cursor = (.ok edit, after)) :
    ∃ fate : Fate node, fate.Tells cursor after edit := by
  cases left_eq : (hooks.leaveNode node false none).run
      (cursor.advance [.visit ⟨cursor.stack, node⟩ false] state) with
  | mk own final =>
      rw [run_transform_declined entered left_eq] at ran
      obtain ⟨edit_eq, rfl⟩ := Prod.mk.inj ran
      obtain ⟨returned, returned_eq, left⟩ := extends_leaveNode false none left_eq
      refine ⟨.declined returned, ?_, ?_, List.forall_mem_nil _⟩
      · rw [Fate.firings, Fate.decisions]
        exact (extends_visit node false state cursor).append left
      · rw [Fate.edit, ← returned_eq]
        exact (Except.ok.inj edit_eq).symm

theorem tells_of_entered
    {state : σ}
    {edits : List (Edit Node)}
    {below : Cursor σ}
    {fates : Fates node.children}
    (entered : (hooks.enter cursor.stack node).run cursor.hooks = (true, state))
    (children : (node.children.mapM hooks.transformChild).run.run
      ((cursor.advance [.visit ⟨cursor.stack, node⟩ true] state).push node) = (.ok edits, below))
    (tell : fates.Tell ((cursor.advance [.visit ⟨cursor.stack, node⟩ true] state).push node)
      below edits)
    (ran : (hooks.transform node).run.run cursor = (.ok edit, after)) :
    ∃ fate : Fate node, fate.Tells cursor after edit := by
  have inner : (cursor.advance [.visit ⟨cursor.stack, node⟩ true] state).Extends below.pop
      (fates.firings (node :: cursor.stack)) (fates.decisions (node :: cursor.stack)) :=
    ⟨congrArg List.tail tell.progress.stack, tell.progress.fired, tell.progress.decided⟩
  cases left_eq : (hooks.leaveNode node true (node.rebuilt edits)).run below.pop with
  | mk own final =>
      rw [run_transform_entered entered children left_eq] at ran
      obtain ⟨edit_eq, rfl⟩ := Prod.mk.inj ran
      obtain ⟨returned, returned_eq, left⟩ := extends_leaveNode true _ left_eq
      rw [inner.stack] at left
      refine ⟨.entered fates returned, ?_, ?_, tell.keepBodies⟩
      · rw [Fate.firings, Fate.decisions]
        exact (extends_visit node true state cursor).append (inner.append left)
      · rw [Fate.edit, ← tell.edits_eq, ← returned_eq]
        exact (Except.ok.inj edit_eq).symm

/-- A transformation that comes to its end leaves a fate behind that tells what it did. -/
theorem exists_fate (hooks : Transformer (StateM σ)) (node : Node)
    (cursor after : Cursor σ) (edit : Edit Node)
    (ran : (hooks.transform node).run.run cursor = (.ok edit, after)) :
    ∃ fate : Fate node, fate.Tells cursor after edit := by
  induction node using Node.induction_children generalizing cursor after edit with
  | step node inductionHypothesis =>
      cases entered : (hooks.enter cursor.stack node).run cursor.hooks with
      | mk descends state =>
          cases descends with
          | false => exact tells_of_declined entered ran
          | true =>
              cases children : (node.children.mapM hooks.transformChild).run.run
                  ((cursor.advance [.visit ⟨cursor.stack, node⟩ true] state).push node) with
              | mk outcome below =>
                  cases outcome with
                  | error refusal =>
                      rw [run_transform_refused entered children] at ran
                      cases ran
                  | ok edits =>
                      obtain ⟨fates, tell⟩ := tell_of_children
                        (fun child isChild cursor _ _ => tells_of_transformChild fun edit after =>
                          inductionHypothesis child isChild cursor after edit) children
                      exact tells_of_entered entered children tell ran

/-! ### Refusals -/

/-- A node that is removed has been left last. -/
theorem left_of_removed
    (removed : (hooks.transform node).run.run cursor = (.ok .remove, after)) :
    ∃ descended, after.fired.getLast? = some (.leave ⟨cursor.stack, node⟩ descended) ∧
      after.decided.getLast? = some ⟨cursor.stack, node, .removal⟩ := by
  obtain ⟨fate, tells⟩ := hooks.exists_fate node cursor after .remove removed
  obtain ⟨descended, last⟩ := fate.getLast?_firings cursor.stack
  refine ⟨descended, ?_, ?_⟩
  · rw [tells.progress.fired, List.getLast?_append, last, Option.some_or]
  · rw [tells.progress.decided, fate.decisions_eq, ← List.append_assoc, List.getLast?_concat,
      fate.returned_eq_removal_iff.mpr tells.edit_eq.symm]

theorem atRemovedBody_of_transformChild
    {refusal : Refusal}
    (inside : (hooks.transform node).run.run cursor = (.error refusal, after) →
      after.AtRemovedBody)
    (refused : (hooks.transformChild node).run.run cursor = (.error refusal, after)) :
    after.AtRemovedBody := by
  unfold transformChild at refused
  cases transformed : (hooks.transform node).run.run cursor with
  | mk outcome between =>
      cases outcome with
      | error reason =>
          rw [Refusing.run_bind_of_error transformed] at refused
          exact inside (transformed.trans refused)
      | ok edit =>
          rw [Refusing.run_bind_of_ok transformed] at refused
          obtain ⟨required, rfl⟩ : keepRequired node edit = .error refusal ∧ between = after :=
            Prod.mk.inj refused
          cases edit with
          | keep | replace _ => cases required
          | remove =>
              by_cases isBlock : node.family = .block
              · obtain ⟨descended, left⟩ := left_of_removed transformed
                cases node with
                | block body => exact ⟨cursor.stack, body, descended, left⟩
                | _ => cases isBlock
              · rw [keepRequired, if_neg isBlock] at required
                cases required

theorem atRemovedBody_of_children
    {children : List Node}
    {refusal : Refusal}
    (each : ∀ child ∈ children, ∀ cursor : Cursor σ,
      (hooks.transformChild child).run.run cursor = (.error refusal, after) → after.AtRemovedBody)
    (refused : (children.mapM hooks.transformChild).run.run cursor = (.error refusal, after)) :
    after.AtRemovedBody := by
  induction children generalizing cursor with
  | nil => cases refused
  | cons first rest inductionHypothesis =>
      rw [List.forall_mem_cons] at each
      rw [List.mapM_cons] at refused
      cases transformed : (hooks.transformChild first).run.run cursor with
      | mk outcome between =>
          cases outcome with
          | error reason =>
              rw [Refusing.run_bind_of_error transformed] at refused
              obtain ⟨reason_eq, rfl⟩ := Prod.mk.inj refused
              exact each.1 cursor (Except.error.inj reason_eq ▸ transformed)
          | ok edit =>
              rw [Refusing.run_bind_of_ok transformed] at refused
              cases others : (rest.mapM hooks.transformChild).run.run between with
              | mk outcome last =>
                  cases outcome with
                  | error reason =>
                      rw [Refusing.run_bind_of_error others] at refused
                      exact inductionHypothesis each.2 (others.trans refused)
                  | ok edits =>
                      rw [Refusing.run_bind_of_ok others] at refused
                      cases refused

/-- Only the removal of a body stops a transformation. -/
theorem atRemovedBody_of_error (hooks : Transformer (StateM σ)) (node : Node)
    (cursor after : Cursor σ) (refusal : Refusal)
    (refused : (hooks.transform node).run.run cursor = (.error refusal, after)) :
    after.AtRemovedBody := by
  induction node using Node.induction_children generalizing cursor after with
  | step node inductionHypothesis =>
      cases entered : (hooks.enter cursor.stack node).run cursor.hooks with
      | mk descends state =>
          cases descends with
          | false =>
              rw [run_transform_declined entered rfl] at refused
              cases refused
          | true =>
              cases children : (node.children.mapM hooks.transformChild).run.run
                  ((cursor.advance [.visit ⟨cursor.stack, node⟩ true] state).push node) with
              | mk outcome below =>
                  cases outcome with
                  | ok edits =>
                      rw [run_transform_entered entered children rfl] at refused
                      cases refused
                  | error reason =>
                      rw [run_transform_refused entered children] at refused
                      obtain ⟨reason_eq, rfl⟩ := Prod.mk.inj refused
                      have stopped : below.AtRemovedBody := atRemovedBody_of_children
                        (fun child isChild cursor => atRemovedBody_of_transformChild
                          (inductionHypothesis child isChild cursor below))
                        (Except.error.inj reason_eq ▸ children)
                      exact stopped

end Transformer

end JupiterMigration
