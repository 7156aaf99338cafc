import JupiterMigration.Proofs.Numbering.Order
import JupiterMigration.Tree.Edit
import Mathlib.Data.List.Nodup

/-!
# Numbers as identities

Declarations and annotations are told apart by their numbers: no two of a file that has been read
have the same one (`SourceUnit.distinct_of_parse`).  A step that drops nodes and numbers the new
ones keeps it that way (`Renewed`).  Only the imports of a file are left out: nothing is planned for
one.
-/

namespace JupiterMigration

/-! ## Nodes below a class -/

namespace Member

theorem self_mem_walk (member : Member) : Node.member member ∈ member.walk := by
  cases member <;> simp [walk]

theorem mem_walkAll_of_mem
    {member : Member}
    {members : List Member}
    (inside : member ∈ members) : Node.member member ∈ walkAll members := by
  induction members with
  | nil => exact absurd inside List.not_mem_nil
  | cons first rest inductionHypothesis =>
      cases inside with
      | head => exact List.mem_append_left _ (self_mem_walk _)
      | tail _ later => exact List.mem_append_right _ (inductionHypothesis later)

mutual

theorem walk_sublist_walk
    {member : Member}
    (root : Member)
    (inside : Node.member member ∈ root.walk) : member.walk.Sublist root.walk := by
  cases root with
  | classDecl head members =>
      rw [walk, List.mem_cons, List.mem_append] at inside
      obtain same | isUse | below := inside
      · cases same
        exact List.Sublist.refl _
      · simp at isUse
      · have inner := walk_sublist_walkAll members below
        rw [walk.eq_def (classDecl head members)]
        exact (inner.trans (List.sublist_append_right _ _)).cons _
  | importDecl decl | verbatim decl =>
      cases List.mem_singleton.mp inside
      exact List.Sublist.refl _
  | field decl =>
      rw [walk, List.mem_cons] at inside
      obtain same | isUse := inside
      · cases same
        exact List.Sublist.refl _
      · simp at isUse
  | method decl =>
      rw [walk, List.mem_cons] at inside
      obtain same | below := inside
      · cases same
        exact List.Sublist.refl _
      · cases body_eq : decl.body <;> simp [Method.walkBelow, Block.walk, body_eq] at below

/-- What is below a declaration is below whatever the declaration is below. -/
theorem walk_sublist_walkAll
    {member : Member}
    (root : List Member)
    (inside : Node.member member ∈ walkAll root) : member.walk.Sublist (walkAll root) := by
  cases root with
  | nil => cases inside
  | cons first rest =>
      rw [walkAll, List.mem_append] at inside
      rw [walkAll]
      cases inside with
      | inl inFirst =>
          exact (walk_sublist_walk first inFirst).trans (List.sublist_append_left _ _)
      | inr inRest =>
          exact (walk_sublist_walkAll rest inRest).trans (List.sublist_append_right _ _)

end

theorem walkAll_sublist_walk (head : ClassHead) (members : List Member) :
    (walkAll members).Sublist (classDecl head members).walk := by
  rw [walk]
  exact (List.sublist_append_right _ _).cons _

/-- What is below a class is below whatever the class is below. -/
theorem walkAll_sublist_walkAll
    {head : ClassHead}
    {members : List Member}
    (root : List Member)
    (inside : Node.member (classDecl head members) ∈ walkAll root) :
    (walkAll members).Sublist (walkAll root) :=
  (walkAll_sublist_walk head members).trans (walk_sublist_walkAll root inside)

end Member

/-! ## Identities -/

/-- Whether nodes of a kind are told apart by their numbers: declarations and annotations. -/
def Node.hasIdentity : Node → Bool
  | .member _ => true
  | .annotationUse _ => true
  | _ => false

namespace Member

/-- The numbers that tell the nodes of a declaration apart. -/
def ids (member : Member) : List Nat :=
  (member.walk.filter Node.hasIdentity).map Node.id

/-- The numbers that tell the nodes of some declarations apart. -/
def idsAll (members : List Member) : List Nat :=
  ((walkAll members).filter Node.hasIdentity).map Node.id

theorem filter_annotationUse (uses : List Annotation) :
    (uses.map Node.annotationUse).filter Node.hasIdentity = uses.map Node.annotationUse := by
  rw [List.filter_eq_self]
  intro node member
  obtain ⟨use, -, rfl⟩ := List.mem_map.mp member
  rfl

@[simp]
theorem ids_importDecl (decl : Import) : (importDecl decl).ids = [decl.id] := rfl

@[simp]
theorem ids_verbatim (decl : Verbatim) : (verbatim decl).ids = [decl.id] := rfl

@[simp]
theorem ids_field (decl : Field) :
    (field decl).ids = decl.id :: decl.annotations.map Annotation.id := by
  have own : Node.hasIdentity (.member (field decl)) = true := rfl
  rw [ids, walk, List.filter_cons_of_pos own, filter_annotationUse, List.map_cons, List.map_map]
  rfl

theorem filter_walkBelow (decl : Method) :
    decl.walkBelow.filter Node.hasIdentity = decl.annotations.map Node.annotationUse := by
  have parameters : (decl.parameters.map Node.parameter).filter Node.hasIdentity = [] := by
    simp [List.filter_eq_nil_iff, Node.hasIdentity]
  rw [Method.walkBelow, List.filter_append, List.filter_append, filter_annotationUse, parameters,
    List.append_nil]
  cases decl.body with
  | none => rw [List.filter_nil, List.append_nil]
  | some block =>
      have body : block.walk.filter Node.hasIdentity = [] := by
        simp [List.filter_eq_nil_iff, Block.walk, Node.hasIdentity]
      rw [body, List.append_nil]

@[simp]
theorem ids_method (decl : Method) :
    (method decl).ids = decl.id :: decl.annotations.map Annotation.id := by
  have own : Node.hasIdentity (.member (method decl)) = true := rfl
  rw [ids, walk, List.filter_cons_of_pos own, filter_walkBelow, List.map_cons, List.map_map]
  rfl

@[simp]
theorem ids_classDecl (head : ClassHead) (members : List Member) :
    (classDecl head members).ids =
      head.id :: (head.annotations.map Annotation.id ++ idsAll members) := by
  have own : Node.hasIdentity (.member (classDecl head members)) = true := rfl
  rw [ids, walk, List.filter_cons_of_pos own, List.filter_append, filter_annotationUse,
    List.map_cons, List.map_append, List.map_map]
  rfl

@[simp]
theorem idsAll_nil : idsAll [] = [] := rfl

@[simp]
theorem idsAll_cons (first : Member) (rest : List Member) :
    idsAll (first :: rest) = first.ids ++ idsAll rest := by
  rw [idsAll, walkAll, List.filter_append, List.map_append]
  rfl

theorem idsAll_singleton (member : Member) : idsAll [member] = member.ids := by
  rw [idsAll_cons, idsAll_nil, List.append_nil]

@[simp]
theorem idsAll_append (front back : List Member) :
    idsAll (front ++ back) = idsAll front ++ idsAll back := by
  induction front with
  | nil => rfl
  | cons first rest inductionHypothesis => simp [inductionHypothesis]

@[simp]
theorem ids_withLead (lead : String) (member : Member) :
    (member.withLead lead).ids = member.ids := by
  cases member <;> simp [withLead]

theorem ids_eq_cons (member : Member) : ∃ below, member.ids = member.id :: below := by
  cases member with
  | importDecl decl => exact ⟨[], rfl⟩
  | verbatim decl => exact ⟨[], rfl⟩
  | field decl => exact ⟨_, ids_field decl⟩
  | method decl => exact ⟨_, ids_method decl⟩
  | classDecl head members => exact ⟨_, ids_classDecl head members⟩

theorem map_id_sublist_idsAll (members : List Member) :
    (members.map id).Sublist (idsAll members) := by
  induction members with
  | nil => exact List.Sublist.refl _
  | cons first rest inductionHypothesis =>
      obtain ⟨below, ids_eq⟩ := first.ids_eq_cons
      rw [List.map_cons, idsAll_cons, ids_eq]
      exact (inductionHypothesis.trans (List.sublist_append_right below _)).cons_cons _

theorem map_id_annotations_sublist_ids (member : Member) :
    (member.annotations.map Annotation.id).Sublist member.ids := by
  cases member with
  | importDecl decl | verbatim decl => exact List.nil_sublist _
  | field decl =>
      rw [ids_field]
      exact List.sublist_cons_self _ _
  | method decl =>
      rw [ids_method]
      exact List.sublist_cons_self _ _
  | classDecl head members =>
      rw [ids_classDecl]
      exact (List.sublist_append_left _ _).cons _

theorem idsAll_sublist_of_walkAll
    {members others : List Member}
    (sublist : (walkAll members).Sublist (walkAll others)) :
    (idsAll members).Sublist (idsAll others) :=
  (sublist.filter _).map _

theorem walkAll_sublist_of_sublist
    {members others : List Member}
    (sublist : members.Sublist others) : (walkAll members).Sublist (walkAll others) := by
  induction sublist with
  | slnil => exact List.Sublist.refl _
  | cons first _ inductionHypothesis =>
      rw [walkAll]
      exact inductionHypothesis.trans (List.sublist_append_right _ _)
  | cons_cons first _ inductionHypothesis =>
      rw [walkAll, walkAll]
      exact (List.Sublist.refl _).append inductionHypothesis

/-- What is below no import is below what is no import. -/
theorem mem_walkAll_filter_isImport
    {member : Member}
    {members : List Member}
    (inside : Node.member member ∈ walkAll members)
    (notImport : member.isImport = false) :
    Node.member member ∈ walkAll (members.filter (!·.isImport)) := by
  induction members with
  | nil => exact inside
  | cons first rest inductionHypothesis =>
      rw [walkAll] at inside
      rw [List.filter_cons]
      cases List.mem_append.mp inside with
      | inl inFirst =>
          split
          · exact List.mem_append_left _ inFirst
          · next isImport =>
              cases first with
              | importDecl decl =>
                  cases List.mem_singleton.mp inFirst
                  exact absurd notImport Bool.noConfusion
              | _ => exact absurd rfl isImport
      | inr inRest =>
          split
          · exact List.mem_append_right _ (inductionHypothesis inRest)
          · exact inductionHypothesis inRest

end Member

/-! ## Erasing annotations -/

theorem AnnotationList.map_id_erase_sublist
    (id : Nat)
    (declLead : String)
    (uses : List Annotation) :
    ((erase id declLead uses).annotations.map Annotation.id).Sublist
      (uses.map Annotation.id) := by
  fun_induction erase id declLead uses with
  | case1 => exact List.Sublist.refl _
  | case2 only same => simp
  | case3 only other => simp
  | case4 first next rest same => simp
  | case5 first next rest other others inductionHypothesis =>
      exact inductionHypothesis.cons_cons _

namespace Member

theorem ids_eraseAnnotation_sublist (id : Nat) (member : Member) :
    (member.eraseAnnotation id).ids.Sublist member.ids := by
  cases member with
  | field decl =>
      rw [ eraseAnnotation, ids_field, ids_field]
      exact (AnnotationList.map_id_erase_sublist id decl.declLead decl.annotations).cons_cons _
  | method decl =>
      rw [ eraseAnnotation, ids_method, ids_method]
      exact (AnnotationList.map_id_erase_sublist id decl.declLead decl.annotations).cons_cons _
  | classDecl head members =>
      have uses := AnnotationList.map_id_erase_sublist id head.declLead head.annotations
      rw [ eraseAnnotation, ids_classDecl, ids_classDecl]
      exact (uses.append_right _).cons_cons _
  | _ => exact List.Sublist.refl _

end Member

/-! ## New numbers -/

/--
Numbers after a step that has dealt out those from `low` on and below `high`.  Each of them is an
old one or has been dealt out, and none is repeated if the old ones were below `low` and not
repeated.
-/
structure Renewed (low high : Nat) (old new : List Nat) : Prop where
  le : low ≤ high
  mem : ∀ id ∈ new, id ∈ old ∨ (low ≤ id ∧ id < high)
  nodup : (∀ id ∈ old, id < low) → old.Nodup → new.Nodup

namespace Renewed

variable {low middle high : Nat}

theorem of_sublist
    {old new : List Nat}
    (sublist : new.Sublist old)
    (next : Nat) : Renewed next next old new :=
  ⟨Nat.le_refl next, fun _ member => .inl (sublist.subset member), fun _ => sublist.nodup⟩

theorem refl (next : Nat) (ids : List Nat) : Renewed next next ids ids :=
  of_sublist (List.Sublist.refl ids) next

/-- Numbers that are dealt out afterwards do not matter. -/
theorem widen
    {old new : List Nat}
    {higher : Nat}
    (renewed : Renewed low high old new)
    (le : high ≤ higher) : Renewed low higher old new where
  le := Nat.le_trans renewed.le le
  mem id member := (renewed.mem id member).imp_right fun dealt =>
    ⟨dealt.1, Nat.lt_of_lt_of_le dealt.2 le⟩
  nodup := renewed.nodup

theorem of_dealsOut
    {α : Type}
    {all : α → List Nat}
    {numbering : Numbering α}
    (dealsOut : DealsOut all numbering)
    (next : Nat)
    {new : List Nat}
    (sublist : new.Sublist (all (numbering.run next).1)) :
    Renewed next (numbering.run next).2 [] new where
  le := dealsOut.ascends next
  mem _ member := .inr (dealsOut.mem_iff.mp (sublist.subset member))
  nodup _ _ := sublist.nodup (dealsOut.nodup next)

/-- One step after the other, on the same nodes. -/
theorem trans
    {old new newer : List Nat}
    (front : Renewed low middle old new)
    (back : Renewed middle high new newer) : Renewed low high old newer where
  le := Nat.le_trans front.le back.le
  mem id member := by
    cases back.mem id member with
    | inl isNew =>
        cases front.mem id isNew with
        | inl isOld => exact .inl isOld
        | inr dealt => exact .inr ⟨dealt.1, Nat.lt_of_lt_of_le dealt.2 back.le⟩
    | inr dealt => exact .inr ⟨Nat.le_trans front.le dealt.1, dealt.2⟩
  nodup below distinct := by
    refine back.nodup (fun id member => ?_) (front.nodup below distinct)
    cases front.mem id member with
    | inl isOld => exact Nat.lt_of_lt_of_le (below id isOld) front.le
    | inr dealt => exact dealt.2

/-- One step after the other, on different nodes. -/
theorem append
    {oldFront newFront oldBack newBack : List Nat}
    (front : Renewed low middle oldFront newFront)
    (back : Renewed middle high oldBack newBack) :
    Renewed low high (oldFront ++ oldBack) (newFront ++ newBack) where
  le := Nat.le_trans front.le back.le
  mem id member := by
    have frontLe := front.le
    have backLe := back.le
    cases List.mem_append.mp member with
    | inl inFront =>
        have known := front.mem id inFront
        grind
    | inr inBack =>
        have known := back.mem id inBack
        grind
  nodup below distinct := by
    have frontLe := front.le
    rw [List.nodup_append] at distinct ⊢
    obtain ⟨distinctFront, distinctBack, apart⟩ := distinct
    have belowFront (id : Nat) (member : id ∈ oldFront) : id < low := below id (by simp [member])
    have belowBack (id : Nat) (member : id ∈ oldBack) : id < low := below id (by simp [member])
    refine ⟨front.nodup belowFront distinctFront, back.nodup (fun id member => ?_) distinctBack, ?_⟩
    · exact Nat.lt_of_lt_of_le (belowBack id member) frontLe
    · intro id inFront other inBack same
      subst same
      have knownFront := front.mem id inFront
      have knownBack := back.mem id inBack
      grind

end Renewed

/-- No two nodes have the same number, and all numbers are below the next one. -/
structure Member.Distinct (members : List Member) (next : Nat) : Prop where
  nodup : (idsAll members).Nodup
  lt : ∀ id ∈ idsAll members, id < next

namespace Member.Distinct

variable {members : List Member}

theorem renewed
    {low high : Nat}
    {others : List Member}
    (distinct : Distinct members low)
    (renewed : Renewed low high (idsAll members) (idsAll others)) : Distinct others high where
  nodup := renewed.nodup distinct.lt distinct.nodup
  lt id member := by
    cases renewed.mem id member with
    | inl isOld => exact Nat.lt_of_lt_of_le (distinct.lt id isOld) renewed.le
    | inr dealt => exact dealt.2

theorem mono
    {next later : Nat}
    (distinct : Distinct members next)
    (le : next ≤ later) : Distinct members later :=
  ⟨distinct.nodup, fun id member => Nat.lt_of_lt_of_le (distinct.lt id member) le⟩

/-- Nodes with the same number are the same. -/
theorem eq_of_id_eq
    {next : Nat}
    (distinct : Distinct members next)
    {first second : Node}
    (firstInside : first ∈ walkAll members)
    (secondInside : second ∈ walkAll members)
    (firstIdentity : first.hasIdentity = true)
    (secondIdentity : second.hasIdentity = true)
    (same : first.id = second.id) : first = second :=
  List.inj_on_of_nodup_map distinct.nodup (List.mem_filter.mpr ⟨firstInside, firstIdentity⟩)
    (List.mem_filter.mpr ⟨secondInside, secondIdentity⟩) same

/-- No two nodes of a declaration among some have the same number. -/
theorem nodup_ids
    {next : Nat}
    (distinct : Distinct members next)
    {member : Member}
    (inside : Node.member member ∈ walkAll members) : member.ids.Nodup :=
  (((walk_sublist_walkAll members inside).filter _).map _).nodup distinct.nodup

/-- No two annotations of a declaration have the same number. -/
theorem nodup_annotations
    {next : Nat}
    (distinct : Distinct members next)
    {member : Member}
    (inside : Node.member member ∈ walkAll members) :
    (member.annotations.map Annotation.id).Nodup :=
  member.map_id_annotations_sublist_ids.nodup (distinct.nodup_ids inside)

/-- No two members of a class have the same number. -/
theorem nodup_members
    {next : Nat}
    (distinct : Distinct members next)
    {head : ClassHead}
    {inner : List Member}
    (inside : Node.member (classDecl head inner) ∈ walkAll members) :
    (inner.map Member.id).Nodup :=
  ((map_id_sublist_idsAll inner).trans (idsAll_sublist_of_walkAll
    (walkAll_sublist_walkAll members inside))).nodup distinct.nodup

end Member.Distinct

/-- The top level declarations of a file that are no imports. -/
def SourceUnit.nonImports (unit : SourceUnit) : List Member :=
  unit.members.filter (!·.isImport)

/-- What is no import of a file is below what is no import. -/
theorem SourceUnit.mem_walkAll_nonImports
    {unit : SourceUnit}
    {member : Member}
    (inside : Node.member member ∈ unit.walk)
    (notImport : member.isImport = false) :
    Node.member member ∈ Member.walkAll unit.nonImports := by
  cases inside with
  | tail _ below => exact Member.mem_walkAll_filter_isImport below notImport

/-- No two declarations or annotations of a file that has been read have the same number. -/
theorem SourceUnit.distinct_of_parse
    {source : String}
    {path : Option String}
    {next : Nat}
    {result : SourceUnit × Nat}
    (parsed : parse source path next = .ok result) :
    Member.Distinct result.1.nonImports result.2 := by
  unfold parse at parsed
  split at parsed
  · next unit _ =>
      have numbered : unit.numbered.run next = result := Except.ok.inj parsed
      have sublist : (Member.idsAll result.1.nonImports).Sublist (result.1.walk.map Node.id) :=
        (Member.idsAll_sublist_of_walkAll (Member.walkAll_sublist_of_sublist
          List.filter_sublist)).trans ((List.filter_sublist.map Node.id).cons _)
      rw [← numbered] at sublist ⊢
      have renewed := Renewed.of_dealsOut unit.dealsOut_numbered next sublist
      exact ⟨renewed.nodup (by simp) List.nodup_nil, fun id member =>
        ((renewed.mem id member).resolve_left List.not_mem_nil).2⟩
  · exact absurd parsed (by simp)

end JupiterMigration
