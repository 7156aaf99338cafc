import JupiterMigration.Proofs.Collection
import JupiterMigration.Proofs.Synthesis
import Mathlib.Logic.Relation

/-!
# Revised declarations

A declaration is revised by rewriting some of the classes in it, the nested ones first
(`Member.Revised`); everything else in it stays as it is.  This is what rewriting the classes of a
file comes to (`Member.revisedAll_rewriteAll`), and without a rewritten class a declaration is the
same as before (`Member.Revised.eq`).
-/

namespace JupiterMigration

/-- Whatever is in the second of two lists is related to something in the first. -/
theorem exists_of_forall₂
    {α β : Type}
    {related : α → β → Prop}
    {front : List α}
    {back : List β}
    (each : List.Forall₂ related front back)
    {item : β}
    (inside : item ∈ back) : ∃ old ∈ front, related old item := by
  induction each with
  | nil => exact absurd inside List.not_mem_nil
  | cons head _ inductionHypothesis =>
      cases inside with
      | head => exact ⟨_, List.mem_cons_self, head⟩
      | tail _ later =>
          obtain ⟨old, isOld, holds⟩ := inductionHypothesis later
          exact ⟨old, List.mem_cons_of_mem _ isOld, holds⟩

/-- Two lists are related through a third one. -/
theorem forall₂_comp
    {α β γ : Type}
    {first : α → β → Prop}
    {second : β → γ → Prop}
    {front : List α}
    {middle : List β}
    {back : List γ}
    (each : List.Forall₂ first front middle)
    (others : List.Forall₂ second middle back) :
    List.Forall₂ (Relation.Comp first second) front back := by
  induction each generalizing back with
  | nil =>
      cases others
      exact .nil
  | cons head _ inductionHypothesis =>
      cases others with
      | cons headOther tailOther =>
          exact .cons ⟨_, head, headOther⟩ (inductionHypothesis tailOther)

/-- The class that a node is, if it is one. -/
def Node.class? : Node → Option ClassDecl
  | .member decl => decl.class?
  | _ => none

namespace Member

/-- The same declaration, possibly after other white space and comments. -/
def SameButLead (member other : Member) : Prop :=
  ∃ lead, other = member.withLead lead

/-- The classes in a declaration, which may be one itself. -/
def classes (member : Member) : List ClassDecl :=
  member.walk.filterMap Node.class?

/-- The classes in some declarations. -/
def classesAll (members : List Member) : List ClassDecl :=
  (walkAll members).filterMap Node.class?

/-! ## Declarations that differ in their leads -/

theorem withLead_lead (member : Member) : member.withLead member.lead = member := by
  cases member <;> rfl

@[simp]
theorem withLead_withLead (first second : String) (member : Member) :
    (member.withLead first).withLead second = member.withLead second := by
  cases member <;> rfl

@[simp]
theorem isImport_withLead (lead : String) (member : Member) :
    (member.withLead lead).isImport = member.isImport := by
  cases member <;> rfl

theorem namesUsed_withLead (lead : String) (member : Member) :
    (member.withLead lead).namesUsed = member.namesUsed := by
  cases member <;> rfl

namespace SameButLead

theorem refl (member : Member) : member.SameButLead member :=
  ⟨member.lead, member.withLead_lead.symm⟩

theorem of_withLead (lead : String) (member : Member) : member.SameButLead (member.withLead lead) :=
  ⟨lead, rfl⟩

theorem trans
    {first second third : Member}
    (front : first.SameButLead second)
    (back : second.SameButLead third) : first.SameButLead third := by
  obtain ⟨frontLead, rfl⟩ := front
  obtain ⟨backLead, rfl⟩ := back
  exact ⟨backLead, withLead_withLead frontLead backLead first⟩

theorem forall₂_refl (members : List Member) : List.Forall₂ SameButLead members members :=
  List.forall₂_same.mpr fun member _ => refl member

theorem forall₂_trans
    {first second third : List Member}
    (front : List.Forall₂ SameButLead first second)
    (back : List.Forall₂ SameButLead second third) : List.Forall₂ SameButLead first third := by
  refine (forall₂_comp front back).imp ?_
  rintro _ _ ⟨_, headFront, headBack⟩
  exact headFront.trans headBack

theorem of_following (atHead : Bool) (removed next : Member) :
    next.SameButLead (following atHead removed next) := by
  unfold following
  split
  · exact of_withLead removed.lead next
  · exact refl next

/-- What is left without a declaration is what stood around it, apart from a lead. -/
theorem of_removeAt (front : List Member) (removed : Member) (back : List Member) :
    List.Forall₂ SameButLead (front ++ back)
      (removeAt front.length (front ++ removed :: back)) := by
  unfold removeAt
  rw [List.drop_left, List.take_left]
  cases back with
  | nil =>
      rw [List.append_nil]
      exact forall₂_refl front
  | cons next rest =>
      exact List.rel_append (forall₂_refl front)
        (.cons (of_following _ removed next) (forall₂_refl rest))

/-- A class is still among some declarations, with the same members. -/
theorem exists_class
    {members others : List Member}
    (same : List.Forall₂ SameButLead members others)
    {head : ClassHead}
    {inner : List Member}
    (inside : classDecl head inner ∈ members) : ∃ newHead, classDecl newHead inner ∈ others := by
  induction same with
  | nil => exact absurd inside List.not_mem_nil
  | cons sameHead _ inductionHypothesis =>
      cases inside with
      | head =>
          obtain ⟨lead, rfl⟩ := sameHead
          exact ⟨_, List.mem_cons_self⟩
      | tail _ later =>
          obtain ⟨newHead, isMember⟩ := inductionHypothesis later
          exact ⟨newHead, List.mem_cons_of_mem _ isMember⟩

theorem idsAll_eq
    {members others : List Member}
    (same : List.Forall₂ SameButLead members others) : idsAll others = idsAll members := by
  induction same with
  | nil => rfl
  | cons head _ inductionHypothesis =>
      obtain ⟨lead, rfl⟩ := head
      rw [idsAll_cons, idsAll_cons, inductionHypothesis, ids_withLead]

theorem distinct
    {members others : List Member}
    {next : Nat}
    (same : List.Forall₂ SameButLead members others)
    (distinct : Distinct members next) : Distinct others next where
  nodup := by
    rw [idsAll_eq same]
    exact distinct.nodup
  lt := by
    rw [idsAll_eq same]
    exact distinct.lt

end SameButLead

/-! ## The classes in a declaration -/

theorem classes_classDecl (head : ClassHead) (members : List Member) :
    (classDecl head members).classes = ⟨head, members⟩ :: classesAll members := by
  have annotations : (head.annotations.map Node.annotationUse).filterMap Node.class? = [] := by
    simp [Node.class?]
  have own : Node.class? (.member (classDecl head members)) = some ⟨head, members⟩ := rfl
  rw [classes, walk, List.filterMap_cons_some own, List.filterMap_append, annotations]
  rfl

theorem classesAll_cons (first : Member) (rest : List Member) :
    classesAll (first :: rest) = first.classes ++ classesAll rest := by
  rw [classesAll, walkAll, List.filterMap_append]
  rfl

theorem classesAll_singleton (member : Member) : classesAll [member] = member.classes := by
  rw [classesAll_cons]
  exact List.append_nil _

theorem classesAll_append (front back : List Member) :
    classesAll (front ++ back) = classesAll front ++ classesAll back := by
  induction front with
  | nil => rfl
  | cons first rest inductionHypothesis =>
      rw [List.cons_append, classesAll_cons, classesAll_cons, inductionHypothesis,
        List.append_assoc]

theorem mem_classesAll
    {head : ClassHead}
    {members root : List Member} :
    ⟨head, members⟩ ∈ classesAll root ↔ Node.member (classDecl head members) ∈ walkAll root := by
  rw [classesAll, List.mem_filterMap]
  constructor
  · rintro ⟨node, inside, class_eq⟩
    cases node with
    | member other =>
        cases other <;> cases class_eq
        exact inside
    | _ => cases class_eq
  · intro inside
    exact ⟨_, inside, rfl⟩

/-- There are no classes in a declaration of another kind. -/
theorem classes_eq_nil {member : Member} (noClass : member.class? = none) :
    member.classes = [] := by
  rw [classes, List.filterMap_eq_nil_iff]
  cases member with
  | classDecl head members => cases noClass
  | importDecl decl | verbatim decl | field decl => simp [walk, Node.class?, class?]
  | method decl =>
      cases body_eq : decl.body <;>
        simp [walk, Method.walkBelow, Block.walk, body_eq, Node.class?, class?, or_imp, forall_and]

/-- There are no classes in imports. -/
theorem classesAll_filter_isImport (members : List Member) :
    classesAll (members.filter (!·.isImport)) = classesAll members := by
  induction members with
  | nil => rfl
  | cons first rest inductionHypothesis =>
      rw [List.filter_cons, classesAll_cons, ← inductionHypothesis]
      split
      · rw [classesAll_cons]
      · next isImport =>
          cases first with
          | importDecl decl => rfl
          | _ => exact absurd rfl isImport

/-- The numbers of classes are among the numbers that tell nodes apart. -/
theorem map_id_classesAll_sublist (members : List Member) :
    ((classesAll members).map (·.id)).Sublist (idsAll members) := by
  unfold classesAll idsAll
  induction walkAll members with
  | nil => exact List.Sublist.refl _
  | cons first rest inductionHypothesis =>
      cases first with
      | member decl =>
          rw [List.filter_cons_of_pos rfl, List.map_cons]
          cases decl with
          | classDecl head inner => exact inductionHypothesis.cons_cons head.id
          | _ => exact inductionHypothesis.cons _
      | annotationUse use =>
          rw [List.filter_cons_of_pos rfl, List.map_cons]
          exact inductionHypothesis.cons _
      | _ => exact inductionHypothesis

theorem mem_classesAll_nonImports {unit : SourceUnit} {decl : ClassDecl} :
    decl ∈ classesAll unit.nonImports ↔ decl ∈ classesAll unit.members := by
  rw [SourceUnit.nonImports, classesAll_filter_isImport]

/-- No two classes of a file with different numbers have the same number. -/
theorem Distinct.nodup_classes
    {unit : SourceUnit}
    {next : Nat}
    (distinct : Distinct unit.nonImports next) :
    ((classesAll unit.members).map (·.id)).Nodup := by
  rw [← classesAll_filter_isImport]
  exact (map_id_classesAll_sublist _).nodup distinct.nodup

/-- No two classes of a file that has been read have the same number. -/
theorem nodup_classesAll_of_parse
    {source : String}
    {path : Option String}
    {next : Nat}
    {result : SourceUnit × Nat}
    (parsed : SourceUnit.parse source path next = .ok result) :
    ((classesAll result.1.members).map (·.id)).Nodup :=
  (SourceUnit.distinct_of_parse parsed).nodup_classes

/-- Classes look the same after other white space, if a view of them leaves the lead out. -/
theorem map_classes_withLead
    {β : Type}
    {view : ClassDecl → β}
    (leavesOut : ∀ head lead members, view ⟨{ head with lead }, members⟩ = view ⟨head, members⟩)
    (lead : String)
    (member : Member) : (member.withLead lead).classes.map view = member.classes.map view := by
  cases member with
  | classDecl head members =>
      rw [withLead, classes_classDecl, classes_classDecl, List.map_cons, List.map_cons, leavesOut]
  | _ => rfl

/-! ## Revised declarations -/

variable (Rewrites : ClassDecl → ClassDecl → ClassDecl → Prop)

mutual

/--
A declaration after some of the classes in it have been rewritten, the nested ones first; the
numbers are those of the rewritten classes.  `Rewrites` relates a class as it was, the class with
its members revised, and what has become of it.
-/
inductive Revised : List Nat → Member → Member → Prop
  | other {member : Member} (noClass : member.class? = none) : Revised [] member member
  | kept {rewritten : List Nat} {head : ClassHead} {members inner : List Member}
      (revised : RevisedAll rewritten members inner) :
      Revised rewritten (classDecl head members) (classDecl head inner)
  | rewritten {rewritten : List Nat} {head : ClassHead} {members inner : List Member}
      {result : ClassDecl}
      (revised : RevisedAll rewritten members inner)
      (rewrites : Rewrites ⟨head, members⟩ ⟨head, inner⟩ result) :
      Revised (rewritten ++ [head.id]) (classDecl head members) result.toMember

/-- Some declarations, each of them revised. -/
inductive RevisedAll : List Nat → List Member → List Member → Prop
  | nil : RevisedAll [] [] []
  | cons {front back : List Nat} {first other : Member} {rest others : List Member}
      (head : Revised front first other)
      (tail : RevisedAll back rest others) :
      RevisedAll (front ++ back) (first :: rest) (other :: others)

end

variable {Rewrites}

mutual

/-- A declaration without a rewritten class is the same as before. -/
theorem Revised.eq
    {rewritten : List Nat}
    {member other : Member}
    (revised : Revised Rewrites rewritten member other)
    (untouched : ∀ decl ∈ member.classes, decl.id ∉ rewritten) : other = member := by
  cases revised with
  | other noClass => rfl
  | @kept _ head members inner revised =>
      rw [classes_classDecl] at untouched
      rw [revised.eq fun decl inside => untouched decl (List.mem_cons_of_mem _ inside)]
  | @rewritten ids head members inner result revised rewrites =>
      rw [classes_classDecl] at untouched
      exact absurd (List.mem_append_right _ (List.mem_singleton_self _))
        (untouched ⟨head, members⟩ List.mem_cons_self)

theorem RevisedAll.eq
    {rewritten : List Nat}
    {members others : List Member}
    (revised : RevisedAll Rewrites rewritten members others)
    (untouched : ∀ decl ∈ classesAll members, decl.id ∉ rewritten) : others = members := by
  cases revised with
  | nil => rfl
  | @cons front back first other rest others head tail =>
      rw [classesAll_cons] at untouched
      have same := head.eq fun decl inside touched =>
        untouched decl (List.mem_append_left _ inside) (List.mem_append_left _ touched)
      have sameRest := tail.eq fun decl inside touched =>
        untouched decl (List.mem_append_right _ inside) (List.mem_append_right _ touched)
      rw [same, sameRest]

end

mutual

theorem Revised.imp
    {Other : ClassDecl → ClassDecl → ClassDecl → Prop}
    (each : ∀ rewritten head members inner result, RevisedAll Rewrites rewritten members inner →
      Rewrites ⟨head, members⟩ ⟨head, inner⟩ result → Other ⟨head, members⟩ ⟨head, inner⟩ result)
    {rewritten : List Nat}
    {member other : Member}
    (revised : Revised Rewrites rewritten member other) : Revised Other rewritten member other := by
  cases revised with
  | other noClass => exact .other noClass
  | kept revised => exact .kept (revised.imp each)
  | rewritten revised rewrites =>
      exact .rewritten (revised.imp each) (each _ _ _ _ _ revised rewrites)

/-- Classes may be seen as rewritten in another way, knowing what has become of their members. -/
theorem RevisedAll.imp
    {Other : ClassDecl → ClassDecl → ClassDecl → Prop}
    (each : ∀ rewritten head members inner result, RevisedAll Rewrites rewritten members inner →
      Rewrites ⟨head, members⟩ ⟨head, inner⟩ result → Other ⟨head, members⟩ ⟨head, inner⟩ result)
    {rewritten : List Nat}
    {members others : List Member}
    (revised : RevisedAll Rewrites rewritten members others) :
    RevisedAll Other rewritten members others := by
  cases revised with
  | nil => exact .nil
  | cons head tail => exact .cons (head.imp each) (tail.imp each)

end

/-- What is no class stays as it is and where it is. -/
theorem RevisedAll.forall₂_of_noClass
    {rewritten : List Nat}
    {members others : List Member}
    (revised : RevisedAll Rewrites rewritten members others) :
    List.Forall₂ (fun member other => member.class? = none → other = member) members others := by
  induction members generalizing rewritten others with
  | nil =>
      cases revised
      exact .nil
  | cons first rest inductionHypothesis =>
      cases revised with
      | cons head tail =>
          refine .cons (fun noClass => ?_) (inductionHypothesis tail)
          cases head with
          | other => rfl
          | kept => exact absurd noClass (by simp [class?])
          | rewritten => exact absurd noClass (by simp [class?])

/-- What is no class is among the revised declarations if it has been among them before. -/
theorem RevisedAll.mem_of_noClass
    {rewritten : List Nat}
    {members others : List Member}
    (revised : RevisedAll Rewrites rewritten members others)
    {other : Member}
    (inside : other ∈ others)
    (noClass : other.class? = none) : other ∈ members := by
  induction others generalizing rewritten members with
  | nil => exact absurd inside List.not_mem_nil
  | cons first rest inductionHypothesis =>
      cases revised with
      | @cons front back old _ olds _ head tail =>
          cases inside with
          | head =>
              cases head with
              | other => exact List.mem_cons_self
              | kept => exact absurd noClass (by simp [class?])
              | rewritten => exact absurd noClass (by simp [class?, ClassDecl.toMember])
          | tail _ later => exact List.mem_cons_of_mem _ (inductionHypothesis tail later)

/-- A declaration that is no class stays between what becomes of the others. -/
theorem RevisedAll.exists_of_append
    {rewritten : List Nat}
    {front back others : List Member}
    {member : Member}
    (revised : RevisedAll Rewrites rewritten (front ++ member :: back) others)
    (noClass : member.class? = none) :
    ∃ newFront newBack frontIds backIds, others = newFront ++ member :: newBack ∧
      RevisedAll Rewrites frontIds front newFront ∧ RevisedAll Rewrites backIds back newBack := by
  induction front generalizing rewritten others with
  | nil =>
      cases revised with
      | cons head tail =>
          cases head with
          | other => exact ⟨[], _, [], _, rfl, .nil, tail⟩
          | kept => exact absurd noClass (by simp [class?])
          | rewritten => exact absurd noClass (by simp [class?])
  | cons first rest inductionHypothesis =>
      cases revised with
      | cons head tail =>
          obtain ⟨newFront, newBack, frontIds, backIds, rfl, frontRevised, backRevised⟩ :=
            inductionHypothesis tail
          exact ⟨_ :: newFront, newBack, _, backIds, rfl, .cons head frontRevised, backRevised⟩

/-- Revised declarations keep their numbers if rewritten classes keep theirs. -/
theorem RevisedAll.map_id
    {rewritten : List Nat}
    {members others : List Member}
    (revised : RevisedAll Rewrites rewritten members others)
    (keepsId : ∀ entered inner result, Rewrites entered inner result → result.id = inner.id) :
    others.map Member.id = members.map Member.id := by
  induction members generalizing rewritten others with
  | nil =>
      cases revised with
      | nil => rfl
  | cons first rest inductionHypothesis =>
      cases revised with
      | cons head tail =>
          rw [List.map_cons, List.map_cons, inductionHypothesis tail]
          cases head with
          | other => rfl
          | kept => rfl
          | rewritten revised rewrites =>
              exact congrArg (· :: _) (keepsId _ _ _ rewrites)

/-- Revision turns no declaration into an import and no import into something else. -/
theorem RevisedAll.filter
    {rewritten : List Nat}
    {members others : List Member}
    (revised : RevisedAll Rewrites rewritten members others) :
    RevisedAll Rewrites rewritten (members.filter (!·.isImport)) (others.filter (!·.isImport)) := by
  induction members generalizing rewritten others with
  | nil =>
      cases revised with
      | nil => exact .nil
  | cons first rest inductionHypothesis =>
      cases revised with
      | cons head tail =>
          have others := inductionHypothesis tail
          cases head with
          | other noClass =>
              rw [List.filter_cons, List.filter_cons]
              split
              · exact .cons (.other noClass) others
              · exact others
          | kept revised => exact .cons (.kept revised) others
          | rewritten revised rewrites => exact .cons (.rewritten revised rewrites) others

/-! ## Rewriting classes revises declarations -/

variable
  {σ : Type}
  (change : ClassDecl → ClassDecl → StateT σ Migration (Edit Member))
  (root : List Member)

variable (Rewrites) in
/--
A decision about each class of some declarations: it is kept, or replaced by what it is rewritten
to.
-/
def Decides : Prop :=
  ∀ head members inner rewritten,
    ⟨head, members⟩ ∈ classesAll root →
    RevisedAll Rewrites rewritten members inner →
    ∀ state session,
      let edit := (((change ⟨head, members⟩ ⟨head, inner⟩).run state).run session).1.1
      edit = .keep ∨
        ∃ result, edit = .replace result.toMember ∧ Rewrites ⟨head, members⟩ ⟨head, inner⟩ result

theorem run_rewrite_classDecl
    (head : ClassHead)
    (members : List Member)
    (state : σ)
    (session : Session) :
    ((rewrite change (classDecl head members)).run state).run session =
      let inner := ((rewriteAll change members).run state).run session
      let edit := ((change ⟨head, members⟩ ⟨head, inner.1.1⟩).run inner.1.2).run inner.2
      ((edit.1.1.apply (classDecl head inner.1.1), edit.1.2), edit.2) := by
  rw [rewrite]
  rfl

theorem run_rewriteAll_cons
    (first : Member)
    (rest : List Member)
    (state : σ)
    (session : Session) :
    ((rewriteAll change (first :: rest)).run state).run session =
      let head := ((rewrite change first).run state).run session
      let tail := ((rewriteAll change rest).run head.1.2).run head.2
      ((head.1.1.toList ++ tail.1.1, tail.1.2), tail.2) := by
  rw [rewriteAll]
  rfl

variable {change root}

mutual

theorem revised_rewrite
    (decides : Decides Rewrites change root)
    (member : Member)
    (inside : ∀ decl ∈ member.classes, decl ∈ classesAll root)
    (state : σ)
    (session : Session) :
    ∃ rewritten other,
      (((rewrite change member).run state).run session).1.1 = some other ∧
        Revised Rewrites rewritten member other := by
  cases member with
  | classDecl head members =>
      rw [classes_classDecl] at inside
      have own := inside ⟨head, members⟩ List.mem_cons_self
      obtain ⟨ids, revised⟩ := revisedAll_rewriteAll decides members
        (fun decl below => inside decl (List.mem_cons_of_mem _ below)) state session
      rw [run_rewrite_classDecl]
      dsimp only
      cases decides head members _ ids own revised _ _ with
      | inl kept =>
          rw [kept]
          exact ⟨ids, _, rfl, .kept revised⟩
      | inr replaced =>
          obtain ⟨result, edit_eq, rewrites⟩ := replaced
          rw [edit_eq]
          exact ⟨_, _, rfl, .rewritten revised rewrites⟩
  | _ => exact ⟨[], _, rfl, .other rfl⟩

/-- Rewriting the classes in some declarations revises them. -/
theorem revisedAll_rewriteAll
    (decides : Decides Rewrites change root)
    (members : List Member)
    (inside : ∀ decl ∈ classesAll members, decl ∈ classesAll root)
    (state : σ)
    (session : Session) :
    ∃ rewritten, RevisedAll Rewrites rewritten members
      (((rewriteAll change members).run state).run session).1.1 := by
  cases members with
  | nil => exact ⟨[], .nil⟩
  | cons first rest =>
      rw [classesAll_cons] at inside
      obtain ⟨headIds, other, head_eq, head⟩ := revised_rewrite decides first
        (fun decl below => inside decl (List.mem_append_left _ below)) state session
      rw [run_rewriteAll_cons]
      dsimp only
      rw [head_eq]
      obtain ⟨tailIds, tail⟩ := revisedAll_rewriteAll decides rest
        (fun decl below => inside decl (List.mem_append_right _ below)) _ _
      exact ⟨headIds ++ tailIds, .cons head tail⟩

end

variable (change) in
/-- A decision about a class that renews the numbers of the class and its members. -/
def Renews : Prop :=
  ∀ entered inner state session,
    let run := ((change entered inner).run state).run session
    Renewed session.nextId run.2.nextId inner.toMember.ids
      (idsAll (run.1.1.apply inner.toMember).toList)

mutual

theorem renewed_rewrite
    (renews : Renews change)
    (member : Member)
    (state : σ)
    (session : Session) :
    Renewed session.nextId (((rewrite change member).run state).run session).2.nextId member.ids
      (idsAll (((rewrite change member).run state).run session).1.1.toList) := by
  have same : Renewed session.nextId session.nextId member.ids (idsAll [member]) := by
    rw [idsAll_singleton]
    exact .refl _ _
  cases member with
  | classDecl head members =>
      have inner := renewed_rewriteAll renews members state session
      rw [run_rewrite_classDecl]
      dsimp only
      have own := renews ⟨head, members⟩
        ⟨head, (((rewriteAll change members).run state).run session).1.1⟩
        (((rewriteAll change members).run state).run session).1.2
        (((rewriteAll change members).run state).run session).2
      refine Renewed.trans ?_ own
      simp only [ClassDecl.toMember, ids_classDecl]
      have front := Renewed.refl session.nextId (head.id :: head.annotations.map Annotation.id)
      exact front.append inner
  | _ => exact same

/-- Rewriting the classes in some declarations renews their numbers. -/
theorem renewed_rewriteAll
    (renews : Renews change)
    (members : List Member)
    (state : σ)
    (session : Session) :
    Renewed session.nextId (((rewriteAll change members).run state).run session).2.nextId
      (idsAll members) (idsAll (((rewriteAll change members).run state).run session).1.1) := by
  cases members with
  | nil => exact .refl _ _
  | cons first rest =>
      have head := renewed_rewrite renews first state session
      rw [run_rewriteAll_cons]
      dsimp only
      rw [idsAll_append, idsAll_cons]
      exact head.append (renewed_rewriteAll renews rest _ _)

end

/-- Imports do not matter to decisions about classes. -/
theorem Decides.revisedAll
    {members : List Member}
    (decides : Decides Rewrites change (members.filter (!·.isImport)))
    (state : σ)
    (session : Session) :
    ∃ rewritten, RevisedAll Rewrites rewritten members
      (((rewriteAll change members).run state).run session).1.1 := by
  have inside (decl : ClassDecl) (isClass : decl ∈ classesAll members) :
      decl ∈ classesAll (members.filter (!·.isImport)) := by
    rw [classesAll_filter_isImport]
    exact isClass
  exact revisedAll_rewriteAll decides members inside state session

/-- Rewriting the classes of a file renews the numbers of what is no import. -/
theorem renewed_filter_rewriteAll
    (renews : Renews change)
    (members : List Member)
    (state : σ)
    (session : Session) :
    let run := ((rewriteAll change members).run state).run session
    Renewed session.nextId run.2.nextId (idsAll (members.filter (!·.isImport)))
      (idsAll (run.1.1.filter (!·.isImport))) := by
  induction members generalizing state session with
  | nil => exact .refl _ _
  | cons first rest inductionHypothesis =>
      have head := renewed_rewrite renews first state session
      have tail := inductionHypothesis (((rewrite change first).run state).run session).1.2
        (((rewrite change first).run state).run session).2
      rw [run_rewriteAll_cons]
      dsimp only at tail ⊢
      rw [List.filter_append, idsAll_append, List.filter_cons]
      split
      · rw [idsAll_cons]
        refine (head.trans (.of_sublist ?_ _)).append tail
        exact idsAll_sublist_of_walkAll (walkAll_sublist_of_sublist List.filter_sublist)
      · next isImport =>
          cases first with
          | importDecl decl => exact tail
          | _ => exact absurd rfl isImport

end Member

/-! ## Decisions about planned classes -/

section DecideByPlan

variable
  {Plan σ : Type}
  (plans : List (Nat × Plan))
  {migrate : Plan → ClassDecl → Synthesis ClassDecl}
  (note : String → Plan → σ → σ)

/-- A class is kept, or replaced by what its migration by a plan makes. -/
theorem decideByPlan_cases
    (quietly : ∀ plan decl, Synthesis.quiet.Holds (migrate plan decl))
    (entered decl : ClassDecl)
    (state : σ)
    (session : Session) :
    let run := ((decideByPlan plans migrate note entered decl).run state).run session
    (run.1.1 = .keep ∧ session.nextId ≤ run.2.nextId) ∨
      ∃ plan result later, plans.lookup entered.id = some plan ∧
        (migrate plan decl).Makes session result later ∧
        run.1.1 = .replace result.toMember ∧ run.2.nextId = later.nextId := by
  unfold decideByPlan
  cases plans.lookup entered.id with
  | none => exact .inl ⟨rfl, Nat.le_refl _⟩
  | some plan =>
      have grows := (quietly plan decl session).nextId_le
      have lift_eq : ((liftM (migrate plan decl).run :
            StateT σ Migration (Except SynthesisError ClassDecl)).run state).run session =
          ((((migrate plan decl).run.run session).1, state),
            ((migrate plan decl).run.run session).2) := rfl
      dsimp only
      rw [StateT.run_bind, Migration.run_bind, lift_eq]
      generalize run_eq : (migrate plan decl).run.run session = run at grows ⊢
      obtain ⟨outcome, later⟩ := run
      cases outcome with
      | error error => exact .inl ⟨rfl, grows⟩
      | ok result => exact .inr ⟨plan, result, later, rfl, run_eq, rfl, rfl⟩

open Member in
/-- Decisions by plans rewrite classes as the migrations by those plans do. -/
theorem decides_decideByPlan
    {Rewrites : ClassDecl → ClassDecl → ClassDecl → Prop}
    {root : List Member}
    (quietly : ∀ plan decl, Synthesis.quiet.Holds (migrate plan decl))
    (rewrites : ∀ head members inner rewritten plan result earlier later,
      ⟨head, members⟩ ∈ classesAll root →
      RevisedAll Rewrites rewritten members inner →
      (head.id, plan) ∈ plans →
      (migrate plan ⟨head, inner⟩).Makes earlier result later →
      Rewrites ⟨head, members⟩ ⟨head, inner⟩ result) :
    Decides Rewrites (decideByPlan plans migrate note) root := by
  intro head members inner rewritten inside revised state session
  cases decideByPlan_cases plans note quietly ⟨head, members⟩ ⟨head, inner⟩ state session with
  | inl kept => exact .inl kept.1
  | inr replaced =>
      obtain ⟨plan, result, later, planned, makes, edit_eq, -⟩ := replaced
      exact .inr ⟨result, edit_eq,
        rewrites head members inner rewritten plan result session later inside revised
          (mem_of_lookup planned) makes⟩

open Member in
/-- Decisions by plans renew the numbers of a class if the migrations by those plans do. -/
theorem renews_decideByPlan
    (quietly : ∀ plan decl, Synthesis.quiet.Holds (migrate plan decl))
    (renews : ∀ plan decl result earlier later,
      (migrate plan decl).Makes earlier result later →
      Renewed earlier.nextId later.nextId decl.toMember.ids result.toMember.ids) :
    Renews (decideByPlan plans migrate note) := by
  intro entered decl state session
  dsimp only
  cases decideByPlan_cases plans note quietly entered decl state session with
  | inl kept =>
      obtain ⟨edit_eq, grows⟩ := kept
      rw [edit_eq]
      simp only [Edit.apply, Option.toList_some, idsAll_singleton]
      exact (Renewed.refl _ _).widen grows
  | inr replaced =>
      obtain ⟨plan, result, later, -, makes, edit_eq, nextId_eq⟩ := replaced
      rw [edit_eq, nextId_eq]
      simp only [Edit.apply, Option.toList_some, idsAll_singleton]
      exact renews plan decl result session later makes

end DecideByPlan

end JupiterMigration
