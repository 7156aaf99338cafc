import JupiterMigration.Proofs.Traversal.Transform

/-!
# Editors are transformers

An editor goes through a tree kind by kind and list by list.  Whatever the kind of a node, this
comes down to the node and its children (`Editor.editNode_eq`), and so a transformer with a stack
that has the hooks of an editor does what the editor does (`Editor.exists_run_transform`).  With a
hook that may remove bodies, it is refused where the editor with that hook is
(`Editor.carriesOut_transform`).
-/

namespace JupiterMigration

namespace Edit

variable {α β : Type} {nodes others : List α} {edits : List (Edit α)}

@[simp]
theorem isKeep_map (wrap : α → β) (edit : Edit α) : (edit.map wrap).isKeep = edit.isKeep := by
  cases edit <;> rfl

theorem all_isKeep_map (wrap : α → β) (edits : List (Edit α)) :
    (edits.map (Edit.map wrap)).all isKeep = edits.all isKeep := by
  simp [Function.comp_def]

theorem applyAll_append
    (others : List α)
    (otherEdits : List (Edit α))
    (sameLength : edits.length = nodes.length) :
    applyAll (nodes ++ others) (edits ++ otherEdits) =
      applyAll nodes edits ++ applyAll others otherEdits := by
  rw [applyAll, List.zip_append sameLength.symm, List.filterMap_append]
  rfl

theorem applyAll_map (wrap : α → β) (nodes : List α) (edits : List (Edit α)) :
    applyAll (nodes.map wrap) (edits.map (Edit.map wrap)) = (applyAll nodes edits).map wrap := by
  rw [applyAll, applyAll, List.zip_map, List.filterMap_map, List.map_filterMap]
  refine List.filterMap_congr fun edited _ => ?_
  obtain ⟨node, edit⟩ := edited
  cases edit <;> rfl

/-- Where all is kept, nothing changes. -/
theorem applyAll_of_isKeep
    (allKept : edits.all isKeep = true)
    (sameLength : edits.length = nodes.length) : applyAll nodes edits = nodes := by
  induction edits generalizing nodes with
  | nil =>
      rw [List.length_nil, eq_comm, List.length_eq_zero_iff] at sameLength
      rw [sameLength]
      rfl
  | cons head tail inductionHypothesis =>
      cases nodes with
      | nil => cases sameLength
      | cons first rest =>
          rw [List.all_cons, Bool.and_eq_true] at allKept
          cases head with
          | keep =>
              exact congrArg (first :: ·)
                (inductionHypothesis allKept.2 (Nat.succ.inj sameLength))
          | replace _ | remove => cases allKept.1

end Edit

namespace Editor

/-! ## Lists -/

variable {α β γ : Type}

/-- What edits leave of a list; nothing if all was kept. -/
def settle (items : List α) (edits : List (Edit α)) : Option (List α) :=
  if edits.all Edit.isKeep then none else some (Edit.applyAll items edits)

theorem isNone_settle (items : List α) (edits : List (Edit α)) :
    (settle items edits).isNone = edits.all Edit.isKeep := by
  unfold settle
  split <;> simp_all

theorem getD_settle
    {items : List α}
    {edits : List (Edit α)}
    (sameLength : edits.length = items.length) :
    (settle items edits).getD items = Edit.applyAll items edits := by
  unfold settle
  split
  · rename_i allKept
    exact (Edit.applyAll_of_isKeep allKept sameLength).symm
  · rfl

theorem combine_settle
    {rest : List α}
    {edits : List (Edit α)}
    (first : α)
    (head : Edit α)
    (sameLength : edits.length = rest.length) :
    combine first rest head (settle rest edits) = settle (first :: rest) (head :: edits) := by
  have others := getD_settle sameLength
  cases head with
  | keep =>
      unfold settle
      cases kept : edits.all Edit.isKeep <;>
        simp [combine, kept, Edit.isKeep, Edit.applyAll, Edit.apply]
  | replace other =>
      rw [combine, others]
      simp [settle, Edit.isKeep, Edit.applyAll, Edit.apply]
  | remove =>
      rw [combine, others]
      simp [settle, Edit.isKeep, Edit.applyAll, Edit.apply]

section

variable {m : Type → Type} [Monad m]

theorem editMembers_eq (editor : Editor m) (above : List Node) (members : List Member) :
    editor.editMembers above members = editList (editor.editMember above) members := by
  induction members with
  | nil => rw [editMembers, editList]
  | cons first rest inductionHypothesis => rw [editMembers, editList, inductionHypothesis]

variable [LawfulMonad m]

/-- What is done with the results for a list may use that there is one for each element. -/
theorem mapM_bind_congr
    {items : List α}
    {step : α → m β}
    {next other : List β → m γ}
    (same : ∀ results, results.length = items.length → next results = other results) :
    items.mapM step >>= next = items.mapM step >>= other := by
  induction items generalizing next other with
  | nil =>
      rw [List.mapM_nil, pure_bind, pure_bind]
      exact same [] rfl
  | cons first rest inductionHypothesis =>
      simp only [List.mapM_cons, bind_assoc, pure_bind]
      exact bind_congr fun result => inductionHypothesis fun results sameLength =>
        same (result :: results) (congrArg Nat.succ sameLength)

theorem editList_eq (edit : α → m (Edit α)) (items : List α) :
    editList edit items = settle items <$> items.mapM edit := by
  induction items with
  | nil => rw [editList, List.mapM_nil, map_pure]; rfl
  | cons first rest inductionHypothesis =>
      rw [editList, inductionHypothesis, List.mapM_cons]
      simp only [map_eq_pure_bind, bind_assoc, pure_bind]
      refine bind_congr fun head => mapM_bind_congr fun edits sameLength => ?_
      rw [combine_settle first head sameLength]

end

/-! ## Nodes -/

/-- What a hook of an editor gives back. -/
def returned {wrap : α → Node} {item : α}
    (sameFamily : ∀ other, (wrap other).family = (wrap item).family) :
    Edit α → Returned (wrap item).Alternative
  | .keep => .updated
  | .replace other => .other ⟨wrap other, sameFamily other⟩
  | .remove => .removal

theorem edit_returned
    {wrap : α → Node}
    {item : α}
    (sameFamily : ∀ other, (wrap other).family = (wrap item).family)
    (update : Option α)
    (edit : Edit α) :
    (returned sameFamily edit).edit (update.map wrap) = (Edit.after update edit).map wrap := by
  cases edit with
  | keep => cases update <;> rfl
  | replace _ | remove => rfl

section

variable {m : Type → Type} [Monad m] (editor : Editor m)

/-- What becomes of a body, as an editor that removes no body decides it. -/
def leaveBody (leaving : Leaving Block) : m (Edit Block) :=
  Edit.ofUpdate <$> editor.leaveBlock leaving

/-- The transformer with the hooks of an editor and one for bodies. -/
def transformer (leaveBlock : Leaving Block → m (Edit Block)) : Transformer m where
  enter := editor.enter
  leave above node update :=
    match node with
    | .sourceUnit unit =>
      returned (fun _ => rfl) <$> editor.leaveUnit ⟨above, unit, update.bind Node.sourceUnit?⟩
    | .member decl =>
      returned (fun _ => rfl) <$> editor.leaveMember ⟨above, decl, update.bind Node.member?⟩
    | .annotationUse use =>
      returned (fun _ => rfl) <$>
        editor.leaveAnnotation ⟨above, use, update.bind Node.annotationUse?⟩
    | .parameter decl =>
      returned (fun _ => rfl) <$> editor.leaveParameter ⟨above, decl, update.bind Node.parameter?⟩
    | .block body =>
      returned (fun _ => rfl) <$> leaveBlock ⟨above, body, update.bind Node.block?⟩
    | .statement step =>
      returned (fun _ => rfl) <$> editor.leaveStatement ⟨above, step, update.bind Node.statement?⟩

/-- Edits a file wherever it stands. -/
def editUnit (above : List Node) (unit : SourceUnit) : m (Edit SourceUnit) := do
  let update ← editor.inside above (.sourceUnit unit) fun inner => do
    let members ← editor.editMembers inner unit.members
    return members.map fun members => { unit with members }
  return .after update (← editor.leaveUnit ⟨above, unit, update⟩)

/-- Edits a node of any kind and everything below it. -/
def editNode (above : List Node) : Node → m (Edit Node)
  | .sourceUnit unit => Edit.map .sourceUnit <$> editor.editUnit above unit
  | .member decl => Edit.map .member <$> editor.editMember above decl
  | .annotationUse use => Edit.map .annotationUse <$> editor.editAnnotation above use
  | .parameter decl => Edit.map .parameter <$> editor.editParameter above decl
  | .block body => (Edit.map .block ∘ Edit.ofUpdate) <$> editor.editBlock above body
  | .statement step => Edit.map .statement <$> editor.editStatement above step

/-- Editing a file is editing it as a node. -/
theorem editNode_sourceUnit (unit : SourceUnit) :
    editor.editNode [] (.sourceUnit unit) = Edit.map .sourceUnit <$> editor.edit unit := rfl

theorem map_inside
    [LawfulMonad m]
    (wrap : α → β)
    (above : List Node)
    (node : Node)
    (inner : List Node → m (Option α)) :
    Option.map wrap <$> editor.inside above node inner =
      editor.inside above node fun below => Option.map wrap <$> inner below := by
  simp only [inside, map_bind]
  refine bind_congr fun descends => ?_
  cases descends with
  | true => rfl
  | false => exact map_pure _ _

variable [LawfulMonad m]

/-- Edits of some children of one family. -/
theorem mapM_children
    {inner : List Node}
    (wrap : α → Node)
    (edit : α → m (Edit α))
    (edited : ∀ item, editor.editNode inner (wrap item) = Edit.map wrap <$> edit item)
    (items : List α) :
    (items.map wrap).mapM (editor.editNode inner) =
      List.map (Edit.map wrap) <$> items.mapM edit := by
  induction items with
  | nil => simp
  | cons first rest inductionHypothesis =>
      rw [List.map_cons, List.mapM_cons, List.mapM_cons, inductionHypothesis, edited]
      simp

end

end Editor

namespace Node

variable {edits : List (Edit Node)}

theorem settle_map {α : Type} (wrap : α → Node) (items : List α) (edits : List (Edit α)) :
    Editor.settle (items.map wrap) (edits.map (Edit.map wrap)) =
      (Editor.settle items edits).map (List.map wrap) := by
  unfold Editor.settle
  rw [Edit.all_isKeep_map, Edit.applyAll_map]
  split <;> rfl

theorem rebuilt_eq_settle (node : Node) (edits : List (Edit Node)) :
    node.rebuilt edits = (Editor.settle node.children edits).map fun children =>
      node.withChildren children := by
  unfold rebuilt Editor.settle
  split <;> rfl

theorem rebuilt_sourceUnit (unit : SourceUnit) (edits : List (Edit Member)) :
    (sourceUnit unit).rebuilt (edits.map (Edit.map member)) =
      (Editor.settle unit.members edits).map fun members => sourceUnit { unit with members } := by
  rw [rebuilt_eq_settle, children, settle_map, Option.map_map]
  simp [Function.comp_def, withChildren, List.filterMap_map, member?]

theorem rebuilt_field (decl : Field) (edits : List (Edit Annotation)) :
    (member (.field decl)).rebuilt (edits.map (Edit.map annotationUse)) =
      (Editor.settle decl.annotations edits).map fun annotations =>
        member (.field { decl with annotations }) := by
  have children_eq : (member (.field decl)).children = decl.annotations.map annotationUse := rfl
  rw [rebuilt_eq_settle, children_eq, settle_map, Option.map_map]
  simp [Function.comp_def, withChildren, List.filterMap_map, annotationUse?]

theorem rebuilt_block (body : Block) (edits : List (Edit Statement)) :
    (block body).rebuilt (edits.map (Edit.map statement)) =
      (Editor.settle body.statements edits).map fun statements =>
        block { body with statements } := by
  rw [rebuilt_eq_settle, children, settle_map, Option.map_map]
  simp [Function.comp_def, withChildren, List.filterMap_map, statement?]

theorem rebuilt_classDecl
    {head : ClassHead}
    {members : List Member}
    {uses : List (Edit Annotation)}
    {others : List (Edit Member)}
    (sameUses : uses.length = head.annotations.length) :
    (member (.classDecl head members)).rebuilt
        (uses.map (Edit.map annotationUse) ++ others.map (Edit.map member)) =
      if uses.all Edit.isKeep && others.all Edit.isKeep then none
      else some (member (.classDecl
        { head with annotations := Edit.applyAll head.annotations uses }
        (Edit.applyAll members others))) := by
  rw [rebuilt, children, List.all_append, Edit.all_isKeep_map, Edit.all_isKeep_map,
    Edit.applyAll_append _ _ (by simp [sameUses]), Edit.applyAll_map, Edit.applyAll_map]
  simp [withChildren, List.filterMap_map, Function.comp_def, annotationUse?, member?]

/-- A body may also be given as what it was changed to, if it was changed. -/
theorem rebuilt_method
    {decl : Method}
    {uses : List (Edit Annotation)}
    {parameters : List (Edit Parameter)}
    (bodies : List (Edit Block))
    (update : Option Block)
    (sameUses : uses.length = decl.annotations.length)
    (sameParameters : parameters.length = decl.parameters.length)
    (sameKept : bodies.all Edit.isKeep = update.isNone)
    (sameBody : (Edit.applyAll decl.body.toList bodies).head? = update.or decl.body) :
    (member (.method decl)).rebuilt (uses.map (Edit.map annotationUse) ++
        parameters.map (Edit.map parameter) ++ bodies.map (Edit.map block)) =
      if uses.all Edit.isKeep && parameters.all Edit.isKeep && update.isNone then none
      else some (member (.method { decl with
        annotations := Edit.applyAll decl.annotations uses
        parameters := Edit.applyAll decl.parameters parameters
        body := update.or decl.body })) := by
  rw [rebuilt, children, List.all_append, List.all_append, Edit.all_isKeep_map,
    Edit.all_isKeep_map, Edit.all_isKeep_map, sameKept,
    Edit.applyAll_append _ _ (by simp [sameUses, sameParameters]),
    Edit.applyAll_append _ _ (by simp [sameUses]), Edit.applyAll_map, Edit.applyAll_map,
    Edit.applyAll_map, ← sameBody]
  simp [withChildren, List.filterMap_map, Function.comp_def, annotationUse?, parameter?, block?]

end Node

namespace Editor

variable {m : Type → Type} [Monad m] [LawfulMonad m] (editor : Editor m)

theorem rebuilt_editInMethod (decl : Method) (inner : List Node) :
    Option.map (Node.member ∘ .method) <$> editor.editInMethod decl inner =
      (Node.member (.method decl)).rebuilt <$>
        (Node.member (.method decl)).children.mapM (editor.editNode inner) := by
  have uses := editor.mapM_children .annotationUse (editor.editAnnotation inner)
    (fun _ => rfl) decl.annotations
  have parameters := editor.mapM_children .parameter (editor.editParameter inner)
    (fun _ => rfl) decl.parameters
  have bodies := editor.mapM_children .block
    (fun body => Edit.ofUpdate <$> editor.editBlock inner body)
    (fun _ => comp_map _ _ _) decl.body.toList
  rw [Node.children, List.mapM_append, List.mapM_append, bodies, uses, parameters, editInMethod,
    editAnnotations, editList_eq, editList_eq]
  simp only [map_eq_pure_bind, bind_assoc, pure_bind]
  refine mapM_bind_congr fun uses sameUses => mapM_bind_congr fun parameters sameParameters => ?_
  simp only [isNone_settle, getD_settle sameUses, getD_settle sameParameters]
  cases body_eq : decl.body with
  | none =>
      have rebuilt := Node.rebuilt_method [] none sameUses sameParameters rfl
        (by rw [body_eq]; rfl)
      rw [Option.toList_none, List.mapM_nil, pure_bind, rebuilt, body_eq]
      dsimp only
      split <;> rw [pure_bind] <;> rfl
  | some body =>
      simp only [Option.toList_some, List.mapM_cons, List.mapM_nil, bind_assoc, pure_bind]
      refine bind_congr fun update => ?_
      have rebuilt := Node.rebuilt_method [Edit.ofUpdate update] update sameUses sameParameters
        (by cases update <;> rfl) (by rw [body_eq]; cases update <;> rfl)
      rw [rebuilt, body_eq]
      split <;> rw [pure_bind] <;> rfl

theorem rebuilt_editMembers (unit : SourceUnit) (inner : List Node) :
    (Option.map fun members => Node.sourceUnit { unit with members }) <$>
        editor.editMembers inner unit.members =
      (Node.sourceUnit unit).rebuilt <$>
        (Node.sourceUnit unit).children.mapM (editor.editNode inner) := by
  have members := editor.mapM_children .member (editor.editMember inner)
    (fun _ => rfl) unit.members
  rw [Node.children, members, editMembers_eq, editList_eq, Functor.map_map, Functor.map_map]
  simp only [Node.rebuilt_sourceUnit]

theorem rebuilt_editAnnotations (decl : Field) (inner : List Node) :
    (Option.map fun annotations => Node.member (.field { decl with annotations })) <$>
        editor.editAnnotations inner decl.annotations =
      (Node.member (.field decl)).rebuilt <$>
        (Node.member (.field decl)).children.mapM (editor.editNode inner) := by
  have uses := editor.mapM_children .annotationUse (editor.editAnnotation inner)
    (fun _ => rfl) decl.annotations
  have children_eq : (Node.member (.field decl)).children =
      decl.annotations.map Node.annotationUse := rfl
  rw [children_eq, uses, editAnnotations, editList_eq, Functor.map_map, Functor.map_map]
  simp only [Node.rebuilt_field]

theorem rebuilt_editStatements (body : Block) (inner : List Node) :
    (Option.map fun statements => Node.block { body with statements }) <$>
        editList (editor.editStatement inner) body.statements =
      (Node.block body).rebuilt <$>
        (Node.block body).children.mapM (editor.editNode inner) := by
  have statements := editor.mapM_children .statement (editor.editStatement inner)
    (fun _ => rfl) body.statements
  rw [Node.children, statements, editList_eq, Functor.map_map, Functor.map_map]
  simp only [Node.rebuilt_block]

theorem rebuilt_editInClass (head : ClassHead) (members : List Member) (inner : List Node) :
    (Option.map Node.member <$> do
        let annotations ← editor.editAnnotations inner head.annotations
        let others ← editor.editMembers inner members
        if annotations.isNone && others.isNone then return none
        return some (.classDecl { head with annotations := annotations.getD head.annotations }
          (others.getD members))) =
      (Node.member (.classDecl head members)).rebuilt <$>
        (Node.member (.classDecl head members)).children.mapM (editor.editNode inner) := by
  have uses := editor.mapM_children .annotationUse (editor.editAnnotation inner)
    (fun _ => rfl) head.annotations
  have others := editor.mapM_children .member (editor.editMember inner) (fun _ => rfl) members
  rw [Node.children, List.mapM_append, uses, others, editAnnotations, editList_eq, editMembers_eq,
    editList_eq]
  simp only [map_eq_pure_bind, bind_assoc, pure_bind]
  refine mapM_bind_congr fun uses sameUses => mapM_bind_congr fun others sameOthers => ?_
  rw [Node.rebuilt_classDecl sameUses, isNone_settle, isNone_settle, getD_settle sameUses,
    getD_settle sameOthers]
  split <;> rw [pure_bind] <;> rfl

theorem rebuilt_childless
    {node : Node}
    {α : Type}
    (childless : node.children = [])
    (wrap : α → Node)
    (inner : List Node) :
    Option.map wrap <$> (pure none : m (Option α)) =
      node.rebuilt <$> node.children.mapM (editor.editNode inner) := by
  rw [childless, List.mapM_nil, map_pure, map_pure]
  rfl

/-- A node is left like the nodes of its family. -/
theorem map_leaving
    {above : List Node}
    {α : Type}
    {inner : List Node → m (Option α)}
    (wrap : α → Node)
    (unwrap : Node → Option α)
    (item : α)
    (leave : Leaving α → m (Edit α))
    (unwrap_wrap : ∀ other, unwrap (wrap other) = some other)
    (sameFamily : ∀ other, (wrap other).family = (wrap item).family)
    (same : ∀ below, Option.map wrap <$> inner below =
      (wrap item).rebuilt <$> (wrap item).children.mapM (editor.editNode below)) :
    Edit.map wrap <$> (do
        let update ← editor.inside above (wrap item) inner
        return .after update (← leave ⟨above, item, update⟩)) =
      (do
        let update ← editor.inside above (wrap item) fun below =>
          (wrap item).rebuilt <$> (wrap item).children.mapM (editor.editNode below)
        Returned.edit update <$> returned sameFamily <$>
          leave ⟨above, item, update.bind unwrap⟩) := by
  simp only [← same]
  rw [← map_inside, bind_map_left, map_bind]
  refine bind_congr fun update => ?_
  have unwrapped : (update.map wrap).bind unwrap = update := by
    cases update with
    | none => rfl
    | some other => exact unwrap_wrap other
  rw [unwrapped]
  simp only [map_eq_pure_bind, bind_assoc, pure_bind, edit_returned]

/-- A body is left like other nodes. -/
theorem ofUpdate_editBlock (above : List Node) (body : Block) :
    Edit.ofUpdate <$> editor.editBlock above body = (do
      let update ← editor.inside above (.block body) fun inner => do
        let statements ← editList (editor.editStatement inner) body.statements
        return statements.map fun statements => { body with statements }
      return .after update (← editor.leaveBody ⟨above, body, update⟩)) := by
  unfold leaveBody
  rw [editBlock, map_bind]
  refine bind_congr fun update => ?_
  simp only [map_eq_pure_bind, bind_assoc, pure_bind]
  refine bind_congr fun other => ?_
  cases other <;> rfl

/--
Editing a node is editing its children one after the other, between entering and leaving it; the
node is put together anew if a child was replaced or removed.
-/
theorem editNode_eq (above : List Node) (node : Node) :
    editor.editNode above node = (do
      let update ← editor.inside above node fun inner =>
        node.rebuilt <$> node.children.mapM (editor.editNode inner)
      Returned.edit update <$> (editor.transformer editor.leaveBody).leave above node update) := by
  cases node with
  | sourceUnit unit =>
      refine editor.map_leaving .sourceUnit Node.sourceUnit? unit editor.leaveUnit
        (fun _ => rfl) (fun _ => rfl) fun inner => ?_
      rw [← rebuilt_editMembers]
      simp [Function.comp_def]
  | member decl =>
      rw [editNode]
      cases decl with
      | importDecl _ | verbatim _ =>
          rw [editMember]
          exact editor.map_leaving .member Node.member? _ editor.leaveMember
            (fun _ => rfl) (fun _ => rfl) (editor.rebuilt_childless rfl _)
      | field decl =>
          rw [editMember]
          refine editor.map_leaving .member Node.member? _ editor.leaveMember
            (fun _ => rfl) (fun _ => rfl) fun inner => ?_
          rw [← rebuilt_editAnnotations]
          simp [Function.comp_def]
      | method decl =>
          rw [editMember]
          refine editor.map_leaving .member Node.member? _ editor.leaveMember
            (fun _ => rfl) (fun _ => rfl) fun inner => ?_
          rw [← rebuilt_editInMethod]
          simp
      | classDecl head members =>
          rw [editMember]
          exact editor.map_leaving .member Node.member? _ editor.leaveMember
            (fun _ => rfl) (fun _ => rfl) (editor.rebuilt_editInClass head members)
  | annotationUse use =>
      exact editor.map_leaving .annotationUse Node.annotationUse? use editor.leaveAnnotation
        (fun _ => rfl) (fun _ => rfl) (editor.rebuilt_childless rfl _)
  | parameter decl =>
      exact editor.map_leaving .parameter Node.parameter? decl editor.leaveParameter
        (fun _ => rfl) (fun _ => rfl) (editor.rebuilt_childless rfl _)
  | block body =>
      rw [editNode, comp_map, ofUpdate_editBlock]
      refine editor.map_leaving .block Node.block? body editor.leaveBody
        (fun _ => rfl) (fun _ => rfl) fun inner => ?_
      rw [← rebuilt_editStatements]
      simp [Function.comp_def]
  | statement step =>
      exact editor.map_leaving .statement Node.statement? step editor.leaveStatement
        (fun _ => rfl) (fun _ => rfl) (editor.rebuilt_childless rfl _)

end Editor

/-! ## Editors that may be refused -/

namespace Editor

variable {m : Type → Type} [Monad m] [LawfulMonad m]
variable (editor : Editor m) (leaveBlock : Leaving Block → m (Edit Block))

theorem map_lift
    {α β : Type}
    (step : m α)
    (view : α → β) :
    view <$> (liftM step : ExceptT Refusal m α) = ExceptT.mk ((Except.ok ∘ view) <$> step) := by
  apply ExceptT.ext
  simp [ExceptT.run_map]
  rfl

/-- A hook for nodes that are no bodies is called as it is. -/
theorem edit_lift
    {α : Type}
    {node : Node}
    (other : node.family ≠ .block)
    (update : Option Node)
    (hook : m α)
    (view : α → Returned node.Alternative) :
    Returned.edit update <$> view <$> (liftM hook : ExceptT Refusal m α) =
      ExceptT.mk ((Transformer.keepRequired node ∘ Returned.edit update) <$> view <$> hook) := by
  have kept : Transformer.keepRequired node = Except.ok :=
    funext (Transformer.keepRequired_of_family_ne other)
  rw [← comp_map, map_lift, kept, ← comp_map]
  rfl

/-- What an editor decides that may be refused is what the transformer with its hooks decides. -/
theorem edit_leave_refusing (above : List Node) (node : Node) (update : Option Node) :
    Returned.edit update <$> ((editor.refusing leaveBlock).transformer
        (editor.refusing leaveBlock).leaveBody).leave above node update =
      ExceptT.mk ((Transformer.keepRequired node ∘ Returned.edit update) <$>
        (editor.transformer leaveBlock).leave above node update) := by
  cases node with
  | sourceUnit _ | member _ | annotationUse _ | parameter _ | statement _ =>
      exact edit_lift (by simp [Node.family]) update _ _
  | block body =>
      apply ExceptT.ext
      simp only [transformer, leaveBody, refusing, ExceptT.run_map, ExceptT.run_mk,
        Functor.map_map]
      congr 1
      funext edit
      cases edit with
      | keep => cases update <;> rfl
      | replace _ | remove => rfl

/-- An editor that removes no body is not refused. -/
theorem edit_leave_leaveBody (above : List Node) (node : Node) (update : Option Node) :
    (Transformer.keepRequired node ∘ Returned.edit update) <$>
        (editor.transformer editor.leaveBody).leave above node update =
      (Except.ok ∘ Returned.edit update) <$>
        (editor.transformer editor.leaveBody).leave above node update := by
  by_cases other : node.family = .block
  · cases node with
    | block body =>
        simp only [transformer, leaveBody, Functor.map_map]
        congr 1
        funext other
        cases other with
        | none => cases update <;> rfl
        | some _ => rfl
    | _ => cases other
  · rw [funext (Transformer.keepRequired_of_family_ne other)]

theorem mapM_liftM
    {α β : Type}
    {step : α → m β}
    {lifted : α → ExceptT Refusal m β}
    {items : List α}
    (each : ∀ item ∈ items, lifted item = liftM (step item)) :
    items.mapM lifted = liftM (items.mapM step) := by
  induction items with
  | nil => rw [List.mapM_nil, List.mapM_nil, liftM_pure]
  | cons first rest inductionHypothesis =>
      rw [List.forall_mem_cons] at each
      simp only [List.mapM_cons, liftM_bind, liftM_pure, each.1, inductionHypothesis each.2]

theorem editNode_refusing_leaveBody (node : Node) (above : List Node) :
    (editor.refusing editor.leaveBody).editNode above node =
      (liftM (editor.editNode above node) : ExceptT Refusal m (Edit Node)) := by
  induction node using Node.induction_children generalizing above with
  | step node inductionHypothesis =>
      have children (inner : List Node) :
          node.children.mapM ((editor.refusing editor.leaveBody).editNode inner) =
            liftM (node.children.mapM (editor.editNode inner)) :=
        mapM_liftM fun child isChild => inductionHypothesis child isChild inner
      have enters : (editor.refusing editor.leaveBody).enter above node =
        liftM (editor.enter above node) := rfl
      rw [editNode_eq, editNode_eq, liftM_bind]
      simp only [inside, edit_leave_refusing, edit_leave_leaveBody, children, enters, liftM_bind]
      have leaves (update : Option Node) :
          ExceptT.mk ((Except.ok ∘ Returned.edit update) <$>
            (editor.transformer editor.leaveBody).leave above node update) =
          (liftM (Returned.edit update <$>
            (editor.transformer editor.leaveBody).leave above node update) :
              ExceptT Refusal m (Edit Node)) := by
        rw [liftM_map, map_lift]
      simp only [leaves, bind_assoc]
      refine bind_congr fun descends => ?_
      cases descends <;> simp [liftM_map, liftM_pure]

end Editor

/-! ## Transformations with the hooks of an editor -/

namespace Editor

variable {σ : Type} {editor : Editor (StateM σ)}
  {leaveBlock : Leaving Block → StateM σ (Edit Block)}

/--
A transformation ends like a step to which the nodes around are handed down; it does the same to the
state of the hooks, and leaves the stack as it was.
-/
def CarriesOut {α : Type} (transforming : Transforming σ α)
    (step : List Node → Refusing σ α) : Prop :=
  ∀ cursor, ∃ after, after.stack = cursor.stack ∧
    after.hooks = ((step cursor.stack).run.run cursor.hooks).2 ∧
    transforming.run.run cursor = (((step cursor.stack).run.run cursor.hooks).1, after)

theorem carriesOut_children
    {children : List Node}
    (each : ∀ child ∈ children, CarriesOut ((editor.transformer leaveBlock).transformChild child)
      fun above => (editor.refusing leaveBlock).editNode above child) :
    CarriesOut (children.mapM (editor.transformer leaveBlock).transformChild) fun above =>
      children.mapM ((editor.refusing leaveBlock).editNode above) := by
  induction children with
  | nil => exact fun cursor => ⟨cursor, rfl, rfl, rfl⟩
  | cons first rest inductionHypothesis =>
      intro cursor
      rw [List.forall_mem_cons] at each
      obtain ⟨between, sameStack, sameHooks, front⟩ := each.1 cursor
      dsimp only
      rw [List.mapM_cons, List.mapM_cons]
      cases edited : ((editor.refusing leaveBlock).editNode cursor.stack first).run.run
          cursor.hooks with
      | mk outcome state =>
          dsimp only at sameHooks front
          rw [edited] at sameHooks front
          cases outcome with
          | error refusal =>
              rw [Refusing.run_bind_of_error front, Refusing.run_bind_of_error edited]
              exact ⟨between, sameStack, sameHooks, rfl⟩
          | ok edit =>
              obtain ⟨after, stack_eq, hooks_eq, back⟩ := inductionHypothesis each.2 between
              rw [sameStack, sameHooks] at hooks_eq back
              rw [Refusing.run_bind_of_ok front, Refusing.run_bind_of_ok edited]
              refine ⟨after, stack_eq.trans sameStack, ?_⟩
              dsimp only at hooks_eq back
              cases others : (rest.mapM
                  ((editor.refusing leaveBlock).editNode cursor.stack)).run.run state with
              | mk outcome final =>
                  rw [others] at hooks_eq back
                  cases outcome with
                  | error refusal =>
                      rw [Refusing.run_bind_of_error back, Refusing.run_bind_of_error others]
                      exact ⟨hooks_eq, rfl⟩
                  | ok edits =>
                      rw [Refusing.run_bind_of_ok back, Refusing.run_bind_of_ok others]
                      exact ⟨hooks_eq, rfl⟩

/--
A transformation with the hooks of an editor that may be refused does what the editor does: a
removed body stops both.
-/
theorem carriesOut_transformChild
    (editor : Editor (StateM σ))
    (leaveBlock : Leaving Block → StateM σ (Edit Block))
    (node : Node) :
    CarriesOut ((editor.transformer leaveBlock).transformChild node) fun above =>
      (editor.refusing leaveBlock).editNode above node := by
  induction node using Node.induction_children with
  | step node inductionHypothesis =>
      intro cursor
      simp only [(editor.refusing leaveBlock).editNode_eq, inside, edit_leave_refusing]
      unfold Transformer.transformChild
      cases entered : (editor.enter cursor.stack node).run cursor.hooks with
      | mk descends state =>
          have visited : ((editor.refusing leaveBlock).enter cursor.stack node).run.run
              cursor.hooks = (.ok descends, state) := Refusing.run_lift entered
          rw [bind_assoc, Refusing.run_bind_of_ok visited]
          cases descends with
          | false =>
              rw [if_neg Bool.false_ne_true, pure_bind, ExceptT.run_mk, StateT.run_map]
              cases left : ((editor.transformer leaveBlock).leave cursor.stack node none).run
                  state with
              | mk returned final =>
                  have ran := Transformer.run_transform_declined entered
                    (Transformer.run_leaveNode false left)
                  rw [Refusing.run_bind_of_ok ran]
                  refine ⟨_, ?_, ?_, rfl⟩ <;> rfl
          | true =>
              obtain ⟨below, sameStack, sameHooks, children⟩ := carriesOut_children
                inductionHypothesis
                ((cursor.advance [.visit ⟨cursor.stack, node⟩ true] state).push node)
              have stack_eq : below.pop.stack = cursor.stack := congrArg List.tail sameStack
              rw [if_pos rfl, bind_map_left]
              cases edited : (node.children.mapM ((editor.refusing leaveBlock).editNode
                  (node :: cursor.stack))).run.run state with
              | mk outcome between =>
                  have hooks_eq : below.pop.hooks = between :=
                    sameHooks.trans (congrArg Prod.snd edited)
                  have children_eq := children.trans
                    (congrArg (fun result => (result.1, below)) edited)
                  cases outcome with
                  | error refusal =>
                      have ran := Transformer.run_transform_refused entered children_eq
                      rw [Refusing.run_bind_of_error ran, Refusing.run_bind_of_error edited]
                      exact ⟨_, stack_eq, hooks_eq, rfl⟩
                  | ok edits =>
                      rw [Refusing.run_bind_of_ok edited, ExceptT.run_mk, StateT.run_map]
                      cases left : ((editor.transformer leaveBlock).leave cursor.stack node
                          (node.rebuilt edits)).run between with
                      | mk returned final =>
                          rw [← stack_eq, ← hooks_eq] at left
                          have ran := Transformer.run_transform_entered entered children_eq
                            (Transformer.run_leaveNode true left)
                          rw [Refusing.run_bind_of_ok ran]
                          refine ⟨_, ?_, ?_, rfl⟩
                          · exact stack_eq
                          · rfl

theorem carriesOut_transform
    {node : Node}
    (noBody : node.family ≠ .block)
    (editor : Editor (StateM σ))
    (leaveBlock : Leaving Block → StateM σ (Edit Block)) :
    CarriesOut ((editor.transformer leaveBlock).transform node) fun above =>
      (editor.refusing leaveBlock).editNode above node := by
  rw [← Transformer.transformChild_eq_transform _ noBody]
  exact editor.carriesOut_transformChild leaveBlock node

/-- A transformation with the hooks of an editor that removes no body does what the editor does. -/
theorem exists_run_transform (editor : Editor (StateM σ)) (node : Node) (cursor : Cursor σ) :
    ∃ after, after.stack = cursor.stack ∧
      after.hooks = ((editor.editNode cursor.stack node).run cursor.hooks).2 ∧
      ((editor.transformer editor.leaveBody).transform node).run.run cursor =
        (.ok ((editor.editNode cursor.stack node).run cursor.hooks).1, after) := by
  obtain ⟨after, sameStack, sameHooks, ran⟩ :=
    editor.carriesOut_transformChild editor.leaveBody node cursor
  have lifted := Refusing.run_lift
    (rfl : (editor.editNode cursor.stack node).run cursor.hooks = (_, _))
  dsimp only at sameHooks ran
  rw [editNode_refusing_leaveBody, lifted] at sameHooks ran
  exact ⟨after, sameStack, sameHooks, Transformer.run_transform_of_child ran⟩

end Editor

end JupiterMigration
