import JupiterMigration.Proofs.AnnotationRemoval
import JupiterMigration.Proofs.Revision.Parameterized

/-!
# Annotations by their place

A recipe finds the annotation it is after by a test and then goes by its number.  Where no two
annotations have one number, that is the same as going by the test alone: the first annotation that
the test picks is taken out (`AnnotationList.eraseFirst_eq`) or replaced
(`Parameterized.ClassMigration.replaceMark_eq`).
-/

namespace JupiterMigration

variable {picks : Annotation → Bool}

/-- An annotation whose number no later one has is not the one that is found among them. -/
theorem Annotation.id_ne_of_find?
    {first mark : Annotation}
    {rest : List Annotation}
    (absent : first.id ∉ rest.map id)
    (found : rest.find? picks = some mark) : first.id ≠ mark.id :=
  fun same => absent (same ▸ List.mem_map_of_mem (List.mem_of_find?_eq_some found))

namespace AnnotationList

/-- Takes out the first annotation that a test picks; what stands after it takes over its lead. -/
def eraseFirst (picks : Annotation → Bool) (declLead : String) : List Annotation → AnnotationList
  | [] => ⟨[], declLead⟩
  | first :: rest =>
    if picks first then withLead first.lead ⟨rest, declLead⟩
    else (eraseFirst picks declLead rest).push first

/-- Among annotations with different numbers, the first picked one is taken out by its number. -/
theorem eraseFirst_eq
    {uses : List Annotation}
    (distinct : (uses.map Annotation.id).Nodup)
    (declLead : String) :
    eraseFirst picks declLead uses =
      (uses.find? picks).elim ⟨uses, declLead⟩ fun mark => erase mark.id declLead uses := by
  induction uses with
  | nil => rfl
  | cons first rest inductionHypothesis =>
      obtain ⟨absent, distinctRest⟩ := List.nodup_cons.mp distinct
      rw [eraseFirst]
      cases picked : picks first with
      | true =>
          rw [List.find?_cons_of_pos picked, if_pos rfl]
          exact (without_push_self first ⟨rest, declLead⟩).symm
      | false =>
          rw [List.find?_cons_of_neg (Bool.eq_false_iff.mp picked), if_neg Bool.false_ne_true,
            inductionHypothesis distinctRest]
          cases found : rest.find? picks with
          | none => rfl
          | some mark =>
              have differs := Annotation.id_ne_of_find? absent found
              exact (without_push_of_ne differs ⟨rest, declLead⟩).symm

end AnnotationList

/-! ## Declarations -/

/-- The field without the first annotation that a test picks. -/
def Field.eraseFirst (picks : Annotation → Bool) (field : Field) : Field :=
  let list := AnnotationList.eraseFirst picks field.declLead field.annotations
  { field with annotations := list.annotations, declLead := list.declLead }

/-- The method without the first annotation that a test picks. -/
def Method.eraseFirst (picks : Annotation → Bool) (method : Method) : Method :=
  let list := AnnotationList.eraseFirst picks method.declLead method.annotations
  { method with annotations := list.annotations, declLead := list.declLead }

/-- The class without the first annotation that a test picks. -/
def ClassHead.eraseFirst (picks : Annotation → Bool) (head : ClassHead) : ClassHead :=
  let list := AnnotationList.eraseFirst picks head.declLead head.annotations
  { head with annotations := list.annotations, declLead := list.declLead }

theorem Field.eraseFirst_eq
    {field : Field}
    (distinct : (field.annotations.map Annotation.id).Nodup) :
    field.eraseFirst picks =
      (field.annotations.find? picks).elim field fun mark => field.eraseAnnotation mark.id := by
  rw [Field.eraseFirst, AnnotationList.eraseFirst_eq distinct]
  cases field.annotations.find? picks <;> rfl

theorem Method.eraseFirst_eq
    {method : Method}
    (distinct : (method.annotations.map Annotation.id).Nodup) :
    method.eraseFirst picks =
      (method.annotations.find? picks).elim method fun mark => method.eraseAnnotation mark.id := by
  rw [Method.eraseFirst, AnnotationList.eraseFirst_eq distinct]
  cases method.annotations.find? picks <;> rfl

theorem ClassHead.eraseFirst_eq
    {head : ClassHead}
    (distinct : (head.annotations.map Annotation.id).Nodup) :
    head.eraseFirst picks =
      (head.annotations.find? picks).elim head fun mark => head.eraseAnnotation mark.id := by
  rw [ClassHead.eraseFirst, AnnotationList.eraseFirst_eq distinct]
  cases head.annotations.find? picks <;> rfl

namespace Parameterized.ClassMigration

/-- The annotations with the first one that a test picks replaced by others. -/
def replaceFirst (picks : Annotation → Bool) (replacement : List Annotation) :
    List Annotation → List Annotation
  | [] => []
  | first :: rest =>
    if picks first then replacement ++ rest else first :: replaceFirst picks replacement rest

/-- Among annotations with different numbers, the first picked one is replaced by its number. -/
theorem replaceMark_eq
    {mark : Annotation}
    {uses : List Annotation}
    (found : uses.find? picks = some mark)
    (distinct : (uses.map Annotation.id).Nodup)
    (replacement : List Annotation) :
    replaceMark mark replacement uses = replaceFirst picks replacement uses := by
  induction uses with
  | nil => cases found
  | cons first rest inductionHypothesis =>
      obtain ⟨absent, distinctRest⟩ := List.nodup_cons.mp distinct
      rw [replaceMark_cons, replaceFirst]
      cases picked : picks first with
      | true =>
          rw [List.find?_cons_of_pos picked] at found
          cases found
          rw [if_pos rfl, if_pos rfl, replaceMark_of_not_mem absent]
      | false =>
          rw [List.find?_cons_of_neg (Bool.eq_false_iff.mp picked)] at found
          have differs := Annotation.id_ne_of_find? absent found
          rw [if_neg differs, if_neg Bool.false_ne_true, inductionHypothesis found distinctRest]
          rfl

end Parameterized.ClassMigration

end JupiterMigration
