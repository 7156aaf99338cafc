import JupiterMigration.Tree.Edit

/-!
# Declarations without one of their annotations

The annotations of a declaration and the white space after them are an `AnnotationList`.  An erased
annotation takes along its text and the lead of what follows it, which is the next annotation or the
rest of the declaration; that gets the lead of the erased one.  So the printed declaration loses one
slice (`Member.eraseAnnotation_cuts_slice`).

The lead that a list begins with may be replaced before or after an annotation is erased
(`AnnotationList.without_withLead`), and therefore annotations may be erased in any order.
-/

namespace JupiterMigration

/-- The annotation with nothing before it. -/
def Annotation.withoutLead (use : Annotation) : Annotation :=
  { use with lead := "" }

namespace AnnotationList

/-! ## Lists of annotations -/

/-- The lead of what the list begins with: its first annotation, or what follows the list. -/
def leading (list : AnnotationList) : String :=
  match list.annotations with
  | [] => list.declLead
  | first :: _ => first.lead

/-- The list with another lead of what it begins with. -/
def withLead (lead : String) (list : AnnotationList) : AnnotationList :=
  match list.annotations with
  | [] => { list with declLead := lead }
  | first :: rest => { list with annotations := { first with lead } :: rest }

/-- The list behind a further annotation. -/
def push (first : Annotation) (list : AnnotationList) : AnnotationList :=
  { list with annotations := first :: list.annotations }

/-- The list without the first annotation that has the given number. -/
def without (id : Nat) (list : AnnotationList) : AnnotationList :=
  erase id list.declLead list.annotations

/-- The annotations and the white space after them. -/
def print (list : AnnotationList) : String :=
  printAll Annotation.print list.annotations ++ list.declLead

variable {first use : Annotation} {id : Nat}

/-! ### Without an annotation -/

theorem without_push_self (use : Annotation) (list : AnnotationList) :
    (list.push use).without use.id = list.withLead use.lead := by
  obtain ⟨annotations, declLead⟩ := list
  cases annotations with
  | nil => exact if_pos rfl
  | cons next rest => exact if_pos rfl

theorem without_push_of_ne (differs : first.id ≠ id) (list : AnnotationList) :
    (list.push first).without id = (list.without id).push first := by
  obtain ⟨annotations, declLead⟩ := list
  cases annotations with
  | nil => exact if_neg differs
  | cons next rest => exact if_neg differs

theorem withLead_withLead (lead other : String) (list : AnnotationList) :
    (list.withLead other).withLead lead = list.withLead lead := by
  obtain ⟨annotations, declLead⟩ := list
  cases annotations <;> rfl

/-- The lead at the beginning may be replaced before or after an annotation is erased. -/
theorem without_withLead (id : Nat) (lead : String) (list : AnnotationList) :
    (list.withLead lead).without id = (list.without id).withLead lead := by
  obtain ⟨annotations, declLead⟩ := list
  cases annotations with
  | nil => rfl
  | cons first rest =>
      change (push { first with lead } ⟨rest, declLead⟩).without id =
        ((push first ⟨rest, declLead⟩).without id).withLead lead
      by_cases same : first.id = id
      · subst same
        rw [without_push_self, withLead_withLead]
        exact without_push_self { first with lead } _
      · rw [without_push_of_ne same]
        exact without_push_of_ne (show ({ first with lead } : Annotation).id ≠ id from same) _

/-- The order in which annotations are erased does not matter. -/
theorem without_comm (id other : Nat) (list : AnnotationList) :
    (list.without id).without other = (list.without other).without id := by
  obtain ⟨annotations, declLead⟩ := list
  by_cases equal : id = other
  · rw [equal]
  induction annotations with
  | nil => rfl
  | cons first rest inductionHypothesis =>
      change ((push first ⟨rest, declLead⟩).without id).without other =
        ((push first ⟨rest, declLead⟩).without other).without id
      -- An erased first annotation hands its lead on, and that is not lost by the other erasure.
      by_cases isFirst : first.id = id
      · subst isFirst
        rw [without_push_self, without_withLead, without_push_of_ne equal, without_push_self]
      · by_cases isOther : first.id = other
        · subst isOther
          rw [without_push_of_ne isFirst, without_push_self, without_push_self, without_withLead]
        · rw [without_push_of_ne isFirst, without_push_of_ne isOther, without_push_of_ne isOther,
            without_push_of_ne isFirst, inductionHypothesis]

/-! ### Printed lists -/

theorem print_push (first : Annotation) (list : AnnotationList) :
    (list.push first).print = first.lead ++ first.text ++ list.print := by
  rw [print, push, printAll, List.map_cons, String.join_cons, Annotation.print, print, printAll,
    String.append_assoc]

/-- Another lead at the beginning stands in place of the old one. -/
theorem exists_print_withLead (list : AnnotationList) :
    ∃ rest, list.print = list.leading ++ rest ∧
      ∀ lead, (list.withLead lead).print = lead ++ rest := by
  obtain ⟨annotations, declLead⟩ := list
  cases annotations with
  | nil =>
      refine ⟨"", ?_, fun lead => ?_⟩
      · simp [print, printAll, leading]
      · simp [print, printAll, withLead]
  | cons first rest =>
      refine ⟨first.text ++ print ⟨rest, declLead⟩, ?_, fun lead => ?_⟩
      · rw [← String.append_assoc]
        exact print_push first ⟨rest, declLead⟩
      · rw [← String.append_assoc]
        exact print_push { first with lead } ⟨rest, declLead⟩

theorem map_withoutLead_withLead (lead : String) (list : AnnotationList) :
    (list.withLead lead).annotations.map Annotation.withoutLead =
      list.annotations.map Annotation.withoutLead := by
  obtain ⟨annotations, declLead⟩ := list
  cases annotations <;> rfl

/-- What an annotation of a list takes along when it is erased, and what stays. -/
structure Cut (front : List Annotation) (use : Annotation) (back : List Annotation)
    (list erased : AnnotationList) : Prop where
  kept : erased.annotations.map Annotation.withoutLead =
    (front ++ back).map Annotation.withoutLead
  slice : ∃ after,
    list.print = printAll Annotation.print front ++ use.lead ++
      (use.text ++ leading ⟨back, list.declLead⟩) ++ after ∧
    erased.print = printAll Annotation.print front ++ use.lead ++ after

theorem Cut.push
    {front back : List Annotation}
    {list erased : AnnotationList}
    (cut : Cut front use back list erased)
    (first : Annotation) : Cut (first :: front) use back (list.push first) (erased.push first) where
  kept := congrArg (first.withoutLead :: ·) cut.kept
  slice := by
    obtain ⟨after, whole, rest⟩ := cut.slice
    have printed : printAll Annotation.print (first :: front) =
        first.lead ++ first.text ++ printAll Annotation.print front := by
      rw [printAll, List.map_cons, String.join_cons, Annotation.print, printAll]
    refine ⟨after, ?_, ?_⟩
    · rw [print_push, whole, printed]
      simp only [String.append_assoc, AnnotationList.push]
    · rw [print_push, rest, printed]
      simp only [String.append_assoc]

/-- An annotation whose number no earlier one has is cut out of the list. -/
theorem cut_without
    {front : List Annotation}
    (absent : ∀ earlier ∈ front, earlier.id ≠ use.id)
    (back : List Annotation)
    (declLead : String) :
    Cut front use back ⟨front ++ use :: back, declLead⟩
      (without use.id ⟨front ++ use :: back, declLead⟩) := by
  induction front with
  | nil =>
      have erased : without use.id ⟨[] ++ use :: back, declLead⟩ =
          withLead use.lead ⟨back, declLead⟩ := without_push_self use ⟨back, declLead⟩
      obtain ⟨after, whole, rest⟩ := exists_print_withLead ⟨back, declLead⟩
      have printed : print ⟨[] ++ use :: back, declLead⟩ =
          use.lead ++ use.text ++ print ⟨back, declLead⟩ := print_push use ⟨back, declLead⟩
      have front_eq : printAll Annotation.print [] = "" := rfl
      rw [erased]
      refine ⟨map_withoutLead_withLead use.lead ⟨back, declLead⟩, after, ?_, ?_⟩
      · rw [printed, whole, front_eq, String.empty_append]
        simp only [String.append_assoc]
      · rw [rest, front_eq, String.empty_append]
  | cons first rest inductionHypothesis =>
      obtain ⟨differs, absent⟩ := List.forall_mem_cons.mp absent
      have erased := without_push_of_ne differs ⟨rest ++ use :: back, declLead⟩
      have cut := (inductionHypothesis absent).push first
      rw [← erased] at cut
      exact cut

end AnnotationList

namespace Member

/-! ## Declarations -/

/-- White space between the last annotation of a declaration and the rest. -/
def declLead : Member → String
  | field decl => decl.declLead
  | method decl => decl.declLead
  | classDecl head _ => head.declLead
  | _ => ""

/-- The annotations of a declaration and the white space after them. -/
def annotationList (member : Member) : AnnotationList :=
  ⟨member.annotations, member.declLead⟩

/-- The declaration with other annotations, if it is of a kind that has some. -/
def withAnnotationList (list : AnnotationList) : Member → Member
  | field decl => field { decl with annotations := list.annotations, declLead := list.declLead }
  | method decl => method { decl with annotations := list.annotations, declLead := list.declLead }
  | classDecl head members =>
    classDecl { head with annotations := list.annotations, declLead := list.declLead } members
  | member => member

theorem eraseAnnotation_eq (id : Nat) (member : Member) :
    member.eraseAnnotation id = member.withAnnotationList (member.annotationList.without id) := by
  cases member <;> rfl

theorem eraseAnnotation_comm (id other : Nat) (member : Member) :
    eraseAnnotation other (member.eraseAnnotation id) =
      eraseAnnotation id (member.eraseAnnotation other) := by
  have swapped := AnnotationList.without_comm id other member.annotationList
  cases member with
  | field decl => exact congrArg (withAnnotationList · (field decl)) swapped
  | method decl => exact congrArg (withAnnotationList · (method decl)) swapped
  | classDecl head members =>
      exact congrArg (withAnnotationList · (classDecl head members)) swapped
  | _ => rfl

variable {member : Member}

theorem annotations_withAnnotationList
    (annotated : member.annotations ≠ [])
    (list : AnnotationList) :
    (member.withAnnotationList list).annotations = list.annotations := by
  cases member with
  | importDecl decl => exact absurd rfl annotated
  | verbatim decl => exact absurd rfl annotated
  | _ => rfl

/-- A declaration is printed as its lead, its annotations, and a rest. -/
theorem exists_print_withAnnotationList (annotated : member.annotations ≠ []) :
    ∃ rest, member.print = member.lead ++ member.annotationList.print ++ rest ∧
      ∀ list, (member.withAnnotationList list).print = member.lead ++ list.print ++ rest := by
  cases member with
  | importDecl decl => exact absurd rfl annotated
  | verbatim decl => exact absurd rfl annotated
  | field decl =>
      refine ⟨decl.text, ?_, fun list => ?_⟩ <;>
        simp [withAnnotationList, annotationList, annotations, declLead, print, lead, text,
          Field.body, AnnotationList.print, String.append_assoc]
  | method decl =>
      refine ⟨decl.modifiers ++ decl.typeText ++ decl.name ++ decl.nameSpace ++ "(" ++
        decl.parameterText ++ ")" ++ decl.throwsText ++ decl.bodyText, ?_, fun list => ?_⟩ <;>
        simp [withAnnotationList, annotationList, annotations, declLead, print, lead, text,
          Method.text, Method.typeText, Method.parameterText, Method.bodyText,
          AnnotationList.print, String.append_assoc]
  | classDecl head members =>
      refine ⟨head.header ++ inBraces (printMembers members) head.closing, ?_, fun list => ?_⟩ <;>
        simp [withAnnotationList, annotationList, annotations, declLead, print, lead, text,
          ClassHead.front, AnnotationList.print, String.append_assoc]

/--
Where the annotations of a declaration have different numbers, erasing one of them leaves the others
in order, apart from leads, and cuts one slice out of the printed declaration: the text of the
annotation and the lead of what follows it.  A further annotation may be erased before or after it.
-/
theorem eraseAnnotation_cuts_slice
    (distinct : (member.annotations.map Annotation.id).Nodup)
    {front back : List Annotation}
    {use : Annotation}
    (split_eq : member.annotations = front ++ use :: back) :
    (member.eraseAnnotation use.id).annotations.map Annotation.withoutLead =
        (front ++ back).map Annotation.withoutLead ∧
      (∃ before after,
        before = member.lead ++ printAll Annotation.print front ++ use.lead ∧
          member.print = before ++
            (use.text ++ AnnotationList.leading ⟨back, member.declLead⟩) ++ after ∧
          (member.eraseAnnotation use.id).print = before ++ after) ∧
      ∀ other ∈ member.annotations,
        eraseAnnotation other.id (member.eraseAnnotation use.id) =
          eraseAnnotation use.id (member.eraseAnnotation other.id) := by
  have annotated : member.annotations ≠ [] := by
    rw [split_eq]
    exact List.append_ne_nil_of_right_ne_nil _ (List.cons_ne_nil _ _)
  have absent : ∀ earlier ∈ front, earlier.id ≠ use.id := by
    rw [split_eq, List.map_append, List.map_cons] at distinct
    exact fun earlier inFront => (List.nodup_append.mp distinct).2.2 _ (List.mem_map_of_mem inFront)
      _ List.mem_cons_self
  have list_eq : member.annotationList = ⟨front ++ use :: back, member.declLead⟩ := by
    rw [annotationList, split_eq]
  have cut := AnnotationList.cut_without absent back member.declLead
  obtain ⟨rest, printed, printedWith⟩ := exists_print_withAnnotationList annotated
  obtain ⟨after, whole, erased⟩ := cut.slice
  rw [list_eq, whole] at printed
  refine ⟨?_, ⟨_, after ++ rest, rfl, ?_, ?_⟩,
    fun other _ => eraseAnnotation_comm use.id other.id member⟩
  · rw [eraseAnnotation_eq, annotations_withAnnotationList annotated, list_eq]
    exact cut.kept
  · rw [printed]
    simp only [String.append_assoc]
  · rw [eraseAnnotation_eq, printedWith, list_eq, erased]
    simp only [String.append_assoc]

end Member

/-! ### The middle one of three annotations -/

/-- An annotation without arguments. -/
def Annotation.marker (id : Nat) (lead name : String) : Annotation :=
  ⟨id, lead, "@" ++ name, name, [], [name]⟩

/-- A method with three annotations on two lines. -/
def Member.annotatedMethod : Member :=
  .method ⟨1, "\n", [.marker 2 "" "A", .marker 3 " " "B", .marker 4 "\n" "C"], "\t", "",
    some "void", " ", "run", "", [], "", ";", none, ["run"]⟩

theorem Member.eraseAnnotation_cuts_slice_threeAnnotations :
    (annotatedMethod.annotations.map Annotation.id).Nodup ∧
      annotatedMethod.annotations =
        [.marker 2 "" "A"] ++ .marker 3 " " "B" :: [.marker 4 "\n" "C"] ∧
      (∃ after, annotatedMethod.print = "\n@A " ++ ("@B" ++ "\n") ++ after ∧
        (annotatedMethod.eraseAnnotation 3).print = "\n@A " ++ after) ∧
      eraseAnnotation 4 (annotatedMethod.eraseAnnotation 3) =
        eraseAnnotation 3 (annotatedMethod.eraseAnnotation 4) := by
  have distinct : (annotatedMethod.annotations.map Annotation.id).Nodup := by decide
  have split_eq : annotatedMethod.annotations =
      [.marker 2 "" "A"] ++ .marker 3 " " "B" :: [.marker 4 "\n" "C"] := rfl
  obtain ⟨-, ⟨before, after, before_eq, whole, erased⟩, commutes⟩ :=
    eraseAnnotation_cuts_slice distinct split_eq
  have before_eq : before = "\n@A " := before_eq.trans (by decide)
  rw [before_eq] at whole erased
  have last : .marker 4 "\n" "C" ∈ annotatedMethod.annotations := by
    rw [split_eq]
    simp
  exact ⟨distinct, split_eq, ⟨after, whole, erased⟩, commutes _ last⟩

end JupiterMigration
