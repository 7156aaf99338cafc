import JupiterMigration.Proofs.Traversal.Editing
import JupiterMigration.Proofs.Traversal.Fate
import Mathlib.Data.Set.List

/-!
# What a transformation shares

What a transformation leaves of a tree is made of three kinds of nodes (`Part`): nodes of the tree
itself, nodes that were put together anew because something below them changed, and nodes that leave
hooks supplied.  The parts of a result are in the order of the tree, and a node was put together
anew only if a hook replaced or removed something below it (`Fate.shares`).
-/

namespace JupiterMigration

namespace Edit

variable {α : Type}

theorem applyAll_cons (first : α) (rest : List α) (head : Edit α) (edits : List (Edit α)) :
    applyAll (first :: rest) (head :: edits) =
      (head.apply first).toList ++ applyAll rest edits := by
  cases head <;> rfl

end Edit

/-! ## Nodes with other children -/

namespace Node

variable {node : Node} {children : List Node}

@[simp]
theorem family_withChildren (children : List Node) (node : Node) :
    (node.withChildren children).family = node.family := by
  cases node with
  | member decl => cases decl <;> rfl
  | _ => rfl

/-- All but its children is the same in a node with other children. -/
theorem withChildren_withChildren (others children : List Node) (node : Node) :
    (node.withChildren children).withChildren others = node.withChildren others := by
  cases node with
  | member decl => cases decl <;> rfl
  | _ => rfl

theorem id_withChildren (children : List Node) (node : Node) :
    (node.withChildren children).id = node.id := by
  cases node with
  | member decl => cases decl <;> rfl
  | _ => rfl

theorem kind_withChildren (children : List Node) (node : Node) :
    (node.withChildren children).kind = node.kind := by
  cases node with
  | member decl => cases decl <;> rfl
  | _ => rfl

/-- Whether nodes are of the families of some others, some of which may be missing. -/
def FamiliesAmong (nodes others : List Node) : Prop :=
  (nodes.map family).Sublist (others.map family)

/-- Nodes of one family are given by what they are. -/
theorem exists_map_of_families
    {α : Type}
    {wrap : α → Node}
    {items : List α}
    (families : FamiliesAmong children (items.map wrap))
    (ofFamily : ∀ item other, other.family = (wrap item).family → ∃ own, wrap own = other) :
    ∃ others : List α, others.map wrap = children ∧ others.length ≤ items.length := by
  have all (child : Node) (isChild : child ∈ children) : ∃ item, wrap item = child := by
    have inside := families.subset (List.mem_map_of_mem isChild)
    rw [List.map_map, List.mem_map] at inside
    obtain ⟨item, -, family_eq⟩ := inside
    exact ofFamily item child family_eq.symm
  have inRange : children ∈ Set.range (List.map wrap) := by
    rw [Set.range_list_map]
    exact all
  obtain ⟨others, others_eq⟩ := inRange
  refine ⟨others, others_eq, ?_⟩
  have shorter := families.length_le
  rwa [← others_eq, List.length_map, List.length_map, List.length_map, List.length_map] at shorter

theorem exists_annotationUse (use : Annotation) (other : Node)
    (sameFamily : other.family = (annotationUse use).family) :
    ∃ own, annotationUse own = other := by
  cases other with
  | annotationUse own => exact ⟨own, rfl⟩
  | _ => cases sameFamily

theorem exists_member (decl : Member) (other : Node)
    (sameFamily : other.family = (member decl).family) : ∃ own, member own = other := by
  cases other with
  | member own => exact ⟨own, rfl⟩
  | _ => cases sameFamily

theorem exists_parameter (decl : Parameter) (other : Node)
    (sameFamily : other.family = (parameter decl).family) : ∃ own, parameter own = other := by
  cases other with
  | parameter own => exact ⟨own, rfl⟩
  | _ => cases sameFamily

theorem exists_block (body : Block) (other : Node)
    (sameFamily : other.family = (block body).family) : ∃ own, block own = other := by
  cases other with
  | block own => exact ⟨own, rfl⟩
  | _ => cases sameFamily

theorem exists_statement (step : Statement) (other : Node)
    (sameFamily : other.family = (statement step).family) : ∃ own, statement own = other := by
  cases other with
  | statement own => exact ⟨own, rfl⟩
  | _ => cases sameFamily

/-- Nodes that are among two groups of nodes are in two groups themselves. -/
theorem FamiliesAmong.split
    {front back : List Node}
    (families : FamiliesAmong children (front ++ back)) :
    ∃ some others, children = some ++ others ∧ FamiliesAmong some front ∧
      FamiliesAmong others back := by
  rw [FamiliesAmong, List.map_append, List.sublist_append_iff] at families
  obtain ⟨some, others, split, someAmong, othersAmong⟩ := families
  obtain ⟨some, others, rfl, rfl, rfl⟩ := List.map_eq_append_iff.mp split
  exact ⟨some, others, rfl, someAmong, othersAmong⟩

/-- A node with other children has these children, if they are of the families of its own. -/
theorem children_withChildren (families : FamiliesAmong children node.children) :
    (node.withChildren children).children = children := by
  have childless (families : FamiliesAmong children []) : children = [] :=
    List.map_eq_nil_iff.mp (List.sublist_nil.mp families)
  cases node with
  | sourceUnit unit =>
      obtain ⟨members, rfl, -⟩ := exists_map_of_families families exists_member
      simp [withChildren, Node.children, List.filterMap_map, Function.comp_def, member?]
  | member decl =>
      cases decl with
      | importDecl _ | verbatim _ => exact (childless families).symm
      | field decl =>
          obtain ⟨uses, rfl, -⟩ := exists_map_of_families families exists_annotationUse
          simp [withChildren, Node.children, Member.annotations, List.filterMap_map,
            Function.comp_def, annotationUse?]
      | method decl =>
          obtain ⟨_, _, rfl, families, bodiesAmong⟩ := FamiliesAmong.split families
          obtain ⟨_, _, rfl, usesAmong, parametersAmong⟩ := families.split
          obtain ⟨uses, rfl, -⟩ := exists_map_of_families usesAmong exists_annotationUse
          obtain ⟨parameters, rfl, -⟩ := exists_map_of_families parametersAmong exists_parameter
          obtain ⟨bodies, rfl, few⟩ := exists_map_of_families bodiesAmong exists_block
          have sole : bodies.head?.toList = bodies := by
            have atMostOne := few.trans Option.length_toList_le
            cases bodies with
            | nil => rfl
            | cons body others =>
                rw [List.length_cons, Nat.succ_le_succ_iff, Nat.le_zero,
                  List.length_eq_zero_iff] at atMostOne
                rw [atMostOne]
                rfl
          simp [withChildren, Node.children, List.filterMap_map, Function.comp_def, annotationUse?,
            parameter?, block?, sole]
      | classDecl head members =>
          obtain ⟨_, _, rfl, usesAmong, membersAmong⟩ := FamiliesAmong.split families
          obtain ⟨uses, rfl, -⟩ := exists_map_of_families usesAmong exists_annotationUse
          obtain ⟨members, rfl, -⟩ := exists_map_of_families membersAmong exists_member
          simp [withChildren, Node.children, List.filterMap_map, Function.comp_def, annotationUse?,
            member?]
  | block body =>
      obtain ⟨statements, rfl, -⟩ := exists_map_of_families families exists_statement
      simp [withChildren, Node.children, List.filterMap_map, Function.comp_def, statement?]
  | annotationUse _ | parameter _ | statement _ => exact (childless families).symm

end Node

/-! ## Parts of a result -/

/-- Where a node of a result is from. -/
inductive Part where
  /-- The very node of the tree. -/
  | original (place : Occurrence)
  /-- A node of the tree that was put together anew. -/
  | rebuilt (place : Occurrence) (node : Node)
  /-- A node that is part of what a leave hook supplied. -/
  | supplied (node : Node)

namespace Part

/-- The node of the result. -/
def node : Part → Node
  | original place => place.node
  | rebuilt _ node => node
  | supplied node => node

/-- The occurrence in the tree that the node is from. -/
def origin? : Part → Option Occurrence
  | original place => some place
  | rebuilt place _ => some place
  | supplied _ => none

end Part

/-- The parts that a leave hook leaves of a node, with those it was left with. -/
def Returned.parts {node : Node} (above : List Node) (current : List Part) :
    Returned node.Alternative → List Part
  | updated => current
  | original => (node.occurrences above).map .original
  | other node => node.1.walk.map .supplied
  | removal => []

mutual

/-- The parts of what is left of a node. -/
def Fate.parts {node : Node} (above : List Node) : Fate node → List Part
  | .declined returned => returned.parts above ((node.occurrences above).map .original)
  | .entered below returned =>
    returned.parts above
      (match node.rebuilt below.edits with
        | none => (node.occurrences above).map .original
        | some update => .rebuilt ⟨above, node⟩ update :: below.parts (node :: above))

/-- The parts of what is left of some nodes. -/
def Fates.parts {nodes : List Node} (above : List Node) : Fates nodes → List Part
  | .nil => []
  | .cons first rest => first.parts above ++ rest.parts above

end

/-- Whether a leave hook replaced or removed its node. -/
def Decision.Changes (decision : Decision) : Prop :=
  decision.returned = .removal ∨ ∃ node, decision.returned = .other node

/-! ### Nodes that are kept -/

mutual

/-- Where no hook changes anything, the very node is kept. -/
theorem Fate.edit_eq_keep {node : Node} (above : List Node) : (fate : Fate node) →
    (∀ decision ∈ fate.decisions above, ¬decision.Changes) → fate.edit = .keep
  | .declined returned, unchanged => by
      rw [Fate.decisions, List.forall_mem_singleton] at unchanged
      rw [Fate.edit]
      cases returned with
      | updated | original => rfl
      | removal => exact absurd (.inl rfl) unchanged
      | other other => exact absurd (.inr ⟨other, rfl⟩) unchanged
  | .entered below returned, unchanged => by
      rw [Fate.decisions, List.forall_mem_append, List.forall_mem_singleton] at unchanged
      have kept := Fates.all_isKeep (node :: above) below unchanged.1
      rw [Fate.edit, Node.rebuilt, if_pos kept]
      cases returned with
      | updated | original => rfl
      | removal => exact absurd (.inl rfl) unchanged.2
      | other other => exact absurd (.inr ⟨other, rfl⟩) unchanged.2

theorem Fates.all_isKeep {nodes : List Node} (above : List Node) : (fates : Fates nodes) →
    (∀ decision ∈ fates.decisions above, ¬decision.Changes) →
      fates.edits.all Edit.isKeep = true
  | .nil, _ => by rw [Fates.edits, List.all_nil]
  | .cons first rest, unchanged => by
      rw [Fates.decisions, List.forall_mem_append] at unchanged
      rw [Fates.edits, List.all_cons, Fate.edit_eq_keep above first unchanged.1,
        Fates.all_isKeep above rest unchanged.2]
      rfl

end

/-! ### The order of the parts -/

/-- What replaces a node is of its family. -/
theorem Fate.family_of_apply
    {node result : Node}
    (fate : Fate node)
    (applied : fate.edit.apply node = some result) : result.family = node.family := by
  have returned_edit
      {update : Option Node}
      (returned : Returned node.Alternative)
      (sameFamily : (update.getD node).family = node.family)
      (applied : (returned.edit update).apply node = some result) :
      result.family = node.family := by
    cases returned with
    | updated => cases update <;> cases applied <;> exact sameFamily
    | original => cases applied; rfl
    | other other => cases applied; exact other.2
    | removal => cases applied
  cases fate with
  | declined returned =>
      rw [Fate.edit] at applied
      exact returned_edit returned rfl applied
  | entered below returned =>
      rw [Fate.edit] at applied
      refine returned_edit returned ?_ applied
      rw [Node.rebuilt]
      split
      · rfl
      · exact node.family_withChildren _

theorem Fates.familiesAmong {nodes : List Node} : (fates : Fates nodes) →
    Node.FamiliesAmong (Edit.applyAll nodes fates.edits) nodes
  | .nil => List.Sublist.refl _
  | .cons first rest => by
      rw [Fates.edits, Edit.applyAll_cons, Node.FamiliesAmong, List.map_append]
      have others := rest.familiesAmong
      cases applied : first.edit.apply _ with
      | none => exact others.cons _
      | some result =>
          rw [List.map_cons, ← first.family_of_apply applied]
          exact others.cons_cons _

theorem Returned.walk_parts
    {node : Node}
    {above : List Node}
    {update : Option Node}
    {current : List Part}
    (returned : Returned node.Alternative)
    (walked : (update.getD node).walk = current.map Part.node) :
    ((returned.edit update).apply node).toList.flatMap Node.walk =
      (returned.parts above current).map Part.node := by
  cases returned with
  | updated =>
      cases update <;> exact (List.flatMap_singleton _ _).trans walked
  | original =>
      rw [parts, List.map_map]
      exact (List.flatMap_singleton _ _).trans (node.map_node_occurrences above).symm
  | other other =>
      rw [parts, List.map_map]
      exact (List.flatMap_singleton _ _).trans (List.map_id _).symm
  | removal => rfl

theorem map_node_originals (above : List Node) (node : Node) :
    ((node.occurrences above).map Part.original).map Part.node = node.walk := by
  rw [List.map_map]
  exact node.map_node_occurrences above

mutual

/-- The parts are the nodes of the result, in the order of the walk. -/
theorem Fate.walk_parts {node : Node} (above : List Node) : (fate : Fate node) →
    (fate.edit.apply node).toList.flatMap Node.walk = (fate.parts above).map Part.node
  | .declined returned => by
      rw [Fate.edit, Fate.parts]
      exact returned.walk_parts (map_node_originals above node).symm
  | .entered below returned => by
      have others := Fates.walk_parts (node :: above) below
      rw [Fate.edit, Fate.parts]
      refine returned.walk_parts ?_
      cases rebuilt : node.rebuilt below.edits with
      | none => exact (map_node_originals above node).symm
      | some update =>
          have update_eq :
              node.withChildren (Edit.applyAll node.children below.edits) = update := by
            rw [Node.rebuilt] at rebuilt
            split at rebuilt <;> cases rebuilt
            rfl
          rw [Option.getD_some, update.walk_eq, List.map_cons, ← others, ← update_eq,
            Node.children_withChildren below.familiesAmong]
          rfl

theorem Fates.walk_parts {nodes : List Node} (above : List Node) : (fates : Fates nodes) →
    (Edit.applyAll nodes fates.edits).flatMap Node.walk = (fates.parts above).map Part.node
  | .nil => rfl
  | .cons first rest => by
      rw [Fates.edits, Edit.applyAll_cons, List.flatMap_append, Fates.parts, List.map_append,
        Fate.walk_parts above first, Fates.walk_parts above rest]

end

theorem Returned.origins_parts
    {node : Node}
    {above : List Node}
    {current : List Part}
    (returned : Returned node.Alternative)
    (inOrder : (current.filterMap Part.origin?).Sublist (node.occurrences above)) :
    ((returned.parts above current).filterMap Part.origin?).Sublist (node.occurrences above) := by
  cases returned with
  | updated => exact inOrder
  | original => simp [parts, List.filterMap_map, Function.comp_def, Part.origin?]
  | other other => simp [parts, List.filterMap_map, Function.comp_def, Part.origin?]
  | removal => exact List.nil_sublist _

theorem filterMap_origin?_originals (places : List Occurrence) :
    (places.map Part.original).filterMap Part.origin? = places := by
  simp [List.filterMap_map, Function.comp_def, Part.origin?]

mutual

/-- What is left of a tree is in the order of the tree. -/
theorem Fate.origins_parts {node : Node} (above : List Node) : (fate : Fate node) →
    ((fate.parts above).filterMap Part.origin?).Sublist (node.occurrences above)
  | .declined returned => by
      rw [Fate.parts]
      exact returned.origins_parts (by rw [filterMap_origin?_originals])
  | .entered below returned => by
      have others := Fates.origins_parts (node :: above) below
      rw [Fate.parts]
      refine returned.origins_parts ?_
      cases node.rebuilt below.edits with
      | none => rw [filterMap_origin?_originals]
      | some update =>
          rw [node.occurrences_eq]
          exact others.cons_cons _

theorem Fates.origins_parts {nodes : List Node} (above : List Node) : (fates : Fates nodes) →
    ((fates.parts above).filterMap Part.origin?).Sublist (nodes.flatMap (Node.occurrences above))
  | .nil => List.Sublist.refl _
  | .cons first rest => by
      rw [Fates.parts, List.filterMap_append, List.flatMap_cons]
      exact (Fate.origins_parts above first).append (Fates.origins_parts above rest)

end

/-! ### Why parts are not the original nodes -/

/--
A node is put together anew if a leave hook replaced or removed a node below it.  It has the
children that their own leave hooks left, in the same order, and all else is as it was.
-/
structure Part.IsRebuilt (decisions : List Decision) (place : Occurrence) (node : Node) : Prop where
  changed : ∃ decision ∈ decisions, decision.Changes ∧ place.node :: place.above <:+ decision.above
  children : ∃ below : Fates place.node.children,
    below.decisions (place.node :: place.above) <:+: decisions ∧
      node.children = Edit.applyAll place.node.children below.edits
  id_eq : node.id = place.node.id
  kind_eq : node.kind = place.node.kind
  others_eq : node.withChildren [] = place.node.withChildren []

/-- Why a part of a result is not a node of the tree, if it is none. -/
def Part.IsExplained (decisions : List Decision) : Part → Prop
  | original _ => True
  | rebuilt place node => IsRebuilt decisions place node
  | supplied node => ∃ decision ∈ decisions, ∃ other,
      decision.returned = .other other ∧ node ∈ other.1.walk

theorem Part.IsExplained.mono
    {part : Part}
    {decisions others : List Decision}
    (explained : part.IsExplained decisions)
    (inside : decisions <:+: others) : part.IsExplained others := by
  cases part with
  | original place => trivial
  | rebuilt place node =>
      obtain ⟨⟨decision, decided, changes⟩, ⟨below, belowInside, children⟩, sameId, sameKind,
        sameOthers⟩ := explained
      exact ⟨⟨decision, inside.subset decided, changes⟩,
        ⟨below, belowInside.trans inside, children⟩, sameId, sameKind, sameOthers⟩
  | supplied node =>
      obtain ⟨decision, decided, supplies⟩ := explained
      exact ⟨decision, inside.subset decided, supplies⟩

mutual

/-- Hooks are called at a node or below it. -/
theorem Fate.suffix_of_mem_decisions {node : Node} (above : List Node) : (fate : Fate node) →
    ∀ decision ∈ fate.decisions above, above <:+ decision.above
  | .declined returned => by
      rw [Fate.decisions]
      exact List.forall_mem_singleton.mpr List.suffix_rfl
  | .entered below returned => by
      rw [Fate.decisions, List.forall_mem_append]
      exact ⟨fun decision decided => (List.suffix_cons _ _).trans
          (Fates.suffix_of_mem_decisions (node :: above) below decision decided),
        List.forall_mem_singleton.mpr List.suffix_rfl⟩

theorem Fates.suffix_of_mem_decisions {nodes : List Node} (above : List Node) :
    (fates : Fates nodes) → ∀ decision ∈ fates.decisions above, above <:+ decision.above
  | .nil => by
      rw [Fates.decisions]
      exact List.forall_mem_nil _
  | .cons first rest => by
      rw [Fates.decisions, List.forall_mem_append]
      exact ⟨Fate.suffix_of_mem_decisions above first, Fates.suffix_of_mem_decisions above rest⟩

end

/-- A node that is put together anew is explained. -/
theorem Fates.isRebuilt
    {node update : Node}
    {above : List Node}
    (below : Fates node.children)
    (rebuilt : node.rebuilt below.edits = some update) :
    Part.IsRebuilt (below.decisions (node :: above)) ⟨above, node⟩ update := by
  rw [Node.rebuilt] at rebuilt
  split at rebuilt
  · cases rebuilt
  · rename_i notKept
    cases rebuilt
    refine ⟨?_, ⟨below, List.infix_rfl, Node.children_withChildren below.familiesAmong⟩,
      node.id_withChildren _, node.kind_withChildren _, node.withChildren_withChildren _ _⟩
    by_contra unchanged
    refine notKept (below.all_isKeep (node :: above) fun decision decided changes => unchanged ?_)
    exact ⟨decision, decided, changes, below.suffix_of_mem_decisions _ decision decided⟩

theorem Returned.explained
    {node : Node}
    {above : List Node}
    {current : List Part}
    {decisions : List Decision}
    (returned : Returned node.Alternative)
    (currentExplained : ∀ part ∈ current, part.IsExplained decisions) :
    ∀ part ∈ returned.parts above current,
      part.IsExplained (decisions ++ [⟨above, node, returned⟩]) := by
  intro part isPart
  cases returned with
  | updated => exact (currentExplained part isPart).mono (List.prefix_append _ _).isInfix
  | original =>
      obtain ⟨place, -, rfl⟩ := List.mem_map.mp isPart
      trivial
  | other other =>
      obtain ⟨node, inside, rfl⟩ := List.mem_map.mp isPart
      exact ⟨_, List.mem_append_right _ (List.mem_singleton_self _), other, rfl, inside⟩
  | removal => cases isPart

theorem explained_originals (decisions : List Decision) (places : List Occurrence) :
    ∀ part ∈ places.map Part.original, part.IsExplained decisions := by
  intro part isPart
  obtain ⟨place, -, rfl⟩ := List.mem_map.mp isPart
  trivial

mutual

/-- Parts that are not the original nodes are explained by what leave hooks decided. -/
theorem Fate.explained {node : Node} (above : List Node) : (fate : Fate node) →
    ∀ part ∈ fate.parts above, part.IsExplained (fate.decisions above)
  | .declined returned => by
      rw [Fate.parts, Fate.decisions]
      exact returned.explained (explained_originals [] _)
  | .entered below returned => by
      have others := Fates.explained (node :: above) below
      rw [Fate.parts, Fate.decisions]
      refine returned.explained ?_
      cases rebuilt : node.rebuilt below.edits with
      | none => exact explained_originals _ _
      | some update => exact List.forall_mem_cons.mpr ⟨below.isRebuilt rebuilt, others⟩

theorem Fates.explained {nodes : List Node} (above : List Node) : (fates : Fates nodes) →
    ∀ part ∈ fates.parts above, part.IsExplained (fates.decisions above)
  | .nil => by
      rw [Fates.parts]
      exact List.forall_mem_nil _
  | .cons first rest => by
      rw [Fates.parts, Fates.decisions, List.forall_mem_append]
      exact ⟨fun part isPart => (Fate.explained above first part isPart).mono
          (List.prefix_append _ _).isInfix,
        fun part isPart => (Fates.explained above rest part isPart).mono
          (List.suffix_append _ _).isInfix⟩

end

/-! ## Transformations -/

/--
A fate shares what is not touched.  Where no hook changes anything, the very node is kept; otherwise
the nodes of the result are the parts, which are in the order of the tree, and those that are not
the original nodes are explained.
-/
structure Fate.Shares {node : Node} (above : List Node) (fate : Fate node) : Prop where
  keeps : (∀ decision ∈ fate.decisions above, ¬decision.Changes) → fate.edit = .keep
  walk : (fate.edit.apply node).toList.flatMap Node.walk = (fate.parts above).map Part.node
  inOrder : ((fate.parts above).filterMap Part.origin?).Sublist (node.occurrences above)
  explained : ∀ part ∈ fate.parts above, part.IsExplained (fate.decisions above)

theorem Fate.shares {node : Node} (above : List Node) (fate : Fate node) : fate.Shares above where
  keeps := fate.edit_eq_keep above
  walk := fate.walk_parts above
  inOrder := fate.origins_parts above
  explained := fate.explained above

variable {σ : Type}

/--
If all leave hooks give back what they are handed, a transformation comes to its end with the very
node.  Otherwise, if it comes to its end, it shares what is not touched.  This is also what an
editor comes to, and one that may remove bodies is refused alike.
-/
theorem Transformer.shares_untouched
    {hooks : Transformer (StateM σ)}
    {node : Node}
    {cursor after : Cursor σ}
    {outcome : Except Refusal (Edit Node)}
    (ran : (hooks.transform node).run.run cursor = (outcome, after)) :
    ((∀ decision ∈ after.decided, decision.returned = .updated) → outcome = .ok .keep) ∧
      (∀ edit, outcome = .ok edit → ∃ fate : Fate node,
        after.decided = cursor.decided ++ fate.decisions cursor.stack ∧ edit = fate.edit ∧
          fate.Shares cursor.stack) ∧
      ∀ editor : Editor (StateM σ),
        (hooks = editor.transformer editor.leaveBody →
          outcome = .ok ((editor.editNode cursor.stack node).run cursor.hooks).1) ∧
        ∀ leaveBlock, hooks = editor.transformer leaveBlock → node.family ≠ .block →
          outcome =
            (((editor.refusing leaveBlock).editNode cursor.stack node).run.run cursor.hooks).1 := by
  refine ⟨fun allUpdated => ?_, ?_, fun editor => ⟨?_, ?_⟩⟩
  · cases outcome with
    | error refusal =>
        obtain ⟨above, body, -, -, removed⟩ :=
          hooks.atRemovedBody_of_error node cursor after refusal ran
        cases allUpdated _ (List.mem_of_getLast? removed)
    | ok edit =>
        obtain ⟨fate, tells⟩ := hooks.exists_fate node cursor after edit ran
        rw [tells.progress.decided, List.forall_mem_append] at allUpdated
        refine congrArg Except.ok (tells.edit_eq.trans
          (fate.edit_eq_keep cursor.stack fun decision decided => ?_))
        rintro (removal | ⟨other, supplied⟩)
        · cases removal.symm.trans (allUpdated.2 decision decided)
        · cases supplied.symm.trans (allUpdated.2 decision decided)
  · rintro edit rfl
    obtain ⟨fate, tells⟩ := hooks.exists_fate node cursor after edit ran
    exact ⟨fate, tells.progress.decided, tells.edit_eq, fate.shares cursor.stack⟩
  · rintro rfl
    obtain ⟨_, -, -, done⟩ := editor.exists_run_transform node cursor
    exact congrArg Prod.fst (ran.symm.trans done)
  · rintro leaveBlock rfl noBody
    obtain ⟨_, -, -, carriedOut⟩ := editor.carriesOut_transform noBody leaveBlock cursor
    exact congrArg Prod.fst (ran.symm.trans carriedOut)

/-! ### A removed statement -/

/-- A method whose body has some statements. -/
def Node.methodOf (statements : List Statement) : Member :=
  .method ⟨3, "", [], "", "", some "void", " ", "run", "", [], "", " ",
    some ⟨4, "", statements, " "⟩, ["first", "second"]⟩

/-- A class with a piece of text and such a method. -/
def Node.classOf (statements : List Statement) : Node :=
  .member (.classDecl ⟨1, "", [], "", "class A \x7b", "A", " \x7d", []⟩
    [.verbatim ⟨2, " ", ";", []⟩, Node.methodOf statements])

/-- A statement that calls a method. -/
def Statement.calling (id : Nat) (name : String) : Statement :=
  ⟨id, " ", name ++ "();", none, [name]⟩

/-- The transformer that removes the node with a number. -/
def Transformer.removing (id : Nat) : Transformer (StateM Unit) where
  enter _ _ := pure true
  leave _ node _ := pure (if node.id = id then .removal else .updated)

theorem Transformer.shares_untouched_removedStatement :
    ∃ fate : Fate (Node.classOf [.calling 5 "first", .calling 6 "second"]),
      fate.edit = .replace (Node.classOf [.calling 6 "second"]) ∧ fate.Shares [] := by
  have outcome : (((removing 5).transform
      (Node.classOf [.calling 5 "first", .calling 6 "second"])).run.run (Cursor.start ())).1 =
        .ok (.replace (Node.classOf [.calling 6 "second"])) := by
    simp [transform_eq, Node.classOf, Node.methodOf, Node.children, removing, transformChild,
      Cursor.within, leaveNode, Statement.calling]
    rfl
  obtain ⟨-, shares, -⟩ := shares_untouched (Prod.ext outcome rfl)
  obtain ⟨fate, -, edit_eq, shares⟩ := shares _ rfl
  exact ⟨fate, edit_eq.symm, shares⟩

end JupiterMigration
