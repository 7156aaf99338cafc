import JupiterMigration.Template
import Mathlib.Data.List.Basic

/-!
# Rendered templates

`Template.substitute` reads a template once from the left, keeps its characters, and puts the next
text in place of each placeholder.  It never looks at what it has put there, and a placeholder
overlaps no other one, so what stands before a placeholder and behind it is treated apart
(`Template.substitute_append`).  Rendering is this substitution by the texts of the values
(`Template.render_substitutes`); it fails if their number is another one than that of the
placeholders, or if a value without a text is among them, at any depth.
-/

namespace JupiterMigration

/-! ## Printed nodes -/

/-- The node as its kind prints it. -/
def Node.printed : Node → String
  | sourceUnit unit => unit.print
  | member (.importDecl decl) => decl.print
  | member (.verbatim decl) => decl.print
  | member (.field decl) => decl.print
  | member (.method decl) => decl.print
  | member (.classDecl head members) => ClassDecl.print { head with members }
  | annotationUse use => use.print
  | parameter decl => decl.print
  | block body => body.print
  | statement step => step.print

/-- Nodes of all kinds are printed with their lead first. -/
theorem Node.printed_eq (node : Node) : node.printed = node.lead ++ node.text := by
  cases node with
  | sourceUnit unit => exact String.append_assoc
  | member decl => cases decl <;> rfl
  | _ => rfl

namespace Template

/-- Something is made from values unless they do not fit. -/
structure MakesUnless {α : Type} (misfits : Prop) (result : Except SynthesisError α) (made : α) :
    Prop where
  ok : ¬misfits → result = .ok made
  error : misfits → ∃ error, result = .error error

namespace Value

/-! ## Texts of values -/

mutual

/-- The text that a value stands for; a node is printed and its lead cut off. -/
def written : Value → String
  | .text content => content
  | .node bound => String.ofList (bound.printed.toList.drop bound.lead.length)
  | .expression bound => bound.text
  | .sequence values => ", ".intercalate (writtenAll values)
  | .foreign _ => ""

/-- The texts that some values stand for. -/
def writtenAll : List Value → List String
  | [] => []
  | first :: rest => written first :: writtenAll rest

end

/-- The value has no text in a program, or contains one that has none. -/
inductive HoldsForeign : Value → Prop
  | foreign (kind : String) : HoldsForeign (.foreign kind)
  | sequence {value : Value} {values : List Value} :
      value ∈ values →
      HoldsForeign value →
      HoldsForeign (.sequence values)

theorem holdsForeign_sequence_iff {values : List Value} :
    (sequence values).HoldsForeign ↔ ∃ value ∈ values, value.HoldsForeign := by
  constructor
  · rintro (_ | ⟨inside, foreign⟩)
    exact ⟨_, inside, foreign⟩
  · rintro ⟨value, inside, foreign⟩
    exact .sequence inside foreign

theorem written_node (bound : Node) : (node bound).written = bound.text := by
  rw [written, Node.printed_eq, String.toList_append, ← String.length_toList, List.drop_left,
    String.ofList_toList]

theorem writtenAll_append (front back : List Value) :
    writtenAll (front ++ back) = writtenAll front ++ writtenAll back := by
  induction front with
  | nil => rfl
  | cons first rest inductionHypothesis =>
      rw [List.cons_append, writtenAll, inductionHypothesis, writtenAll, List.cons_append]

theorem length_writtenAll (values : List Value) :
    (writtenAll values).length = values.length := by
  induction values with
  | nil => rfl
  | cons first rest inductionHypothesis =>
      rw [writtenAll, List.length_cons, List.length_cons, inductionHypothesis]

mutual

theorem makesUnless_bind : (value : Value) →
    MakesUnless value.HoldsForeign value.bind value.written
  | .text content => ⟨fun _ => rfl, nofun⟩
  | .node bound => ⟨fun _ => congrArg Except.ok (written_node bound).symm, nofun⟩
  | .expression bound => ⟨fun _ => rfl, nofun⟩
  | .foreign kind => ⟨fun bound => absurd (.foreign kind) bound, fun _ => ⟨_, rfl⟩⟩
  | .sequence values => by
      have all := makesUnless_bindAll values
      refine ⟨fun bound => ?_, fun foreign => ?_⟩
      · rw [holdsForeign_sequence_iff] at bound
        rw [bind, all.ok bound, written]
        rfl
      · obtain ⟨error, error_eq⟩ := all.error (holdsForeign_sequence_iff.mp foreign)
        exact ⟨error, by rw [bind, error_eq]; rfl⟩

theorem makesUnless_bindAll : (values : List Value) →
    MakesUnless (∃ value ∈ values, value.HoldsForeign) (bindAll values) (writtenAll values)
  | [] => ⟨fun _ => rfl, nofun⟩
  | first :: rest => by
      have ofFirst := makesUnless_bind first
      have ofRest := makesUnless_bindAll rest
      refine ⟨fun bound => ?_, fun foreign => ?_⟩
      · simp only [List.exists_mem_cons_iff, not_or] at bound
        rw [bindAll, ofFirst.ok bound.1, ofRest.ok bound.2, writtenAll]
        rfl
      · by_cases inFirst : first.HoldsForeign
        · obtain ⟨error, error_eq⟩ := ofFirst.error inFirst
          exact ⟨error, by rw [bindAll, error_eq]; rfl⟩
        · have inRest := ((List.exists_mem_cons_iff _ _ _).mp foreign).resolve_left inFirst
          obtain ⟨error, error_eq⟩ := ofRest.error inRest
          exact ⟨error, by rw [bindAll, ofFirst.ok inFirst, error_eq]; rfl⟩

end

end Value

/-! ## Placeholders -/

/-- How many placeholders a template has, read from the left. -/
def placeholderCount : List Char → Nat
  | '#' :: '\x7b' :: '\x7d' :: rest => placeholderCount rest + 1
  | _ :: rest => placeholderCount rest
  | [] => 0

/-- The template with texts in place of its placeholders, in order. -/
def substitute : List Char → List String → List Char
  | '#' :: '\x7b' :: '\x7d' :: rest, text :: texts => text.toList ++ substitute rest texts
  | c :: rest, texts => c :: substitute rest texts
  | [], _ => []

/-- The characters of a placeholder. -/
def mark : List Char :=
  ['#', '\x7b', '\x7d']

theorem toList_placeholder : placeholder.toList = mark := by
  decide

variable {c : Char} {rest : List Char}

theorem placeholderCount_cons (other : ¬mark <+: c :: rest) :
    placeholderCount (c :: rest) = placeholderCount rest := by
  rw [placeholderCount]
  rintro rest rfl rfl
  exact other ⟨rest, rfl⟩

theorem substitute_cons (other : ¬mark <+: c :: rest) (texts : List String) :
    substitute (c :: rest) texts = c :: substitute rest texts := by
  rw [substitute]
  rintro rest text texts - rfl rfl
  exact other ⟨rest, rfl⟩

/-- Characters that are not read as a placeholder do not begin with one. -/
theorem not_mark_prefix_cons
    (other : ∀ more, c = '#' → rest = '\x7b' :: '\x7d' :: more → False) :
    ¬mark <+: c :: rest := by
  rintro ⟨more, more_eq⟩
  obtain ⟨rfl, rest_eq⟩ := List.cons.inj more_eq
  exact other more rfl rest_eq.symm

/-- A placeholder that stands behind a text does not begin in it. -/
theorem not_mark_prefix_append (other : ¬mark <+: c :: rest) (back : List Char) :
    ¬mark <+: c :: (rest ++ (mark ++ back)) := by
  intro begins
  apply other
  obtain ⟨rfl, behind⟩ := List.cons_prefix_cons.mp begins
  match rest, behind with
  | [], behind => exact absurd (List.cons_prefix_cons.mp behind).1 (by decide)
  | [second], behind =>
      obtain ⟨-, last⟩ := List.cons_prefix_cons.mp behind
      exact absurd (List.cons_prefix_cons.mp last).1 (by decide)
  | second :: third :: others, behind =>
      obtain ⟨rfl, last⟩ := List.cons_prefix_cons.mp behind
      obtain ⟨rfl, -⟩ := List.cons_prefix_cons.mp last
      exact List.prefix_append mark others

/-- What stands before a placeholder and behind it is substituted apart. -/
theorem substitute_append
    {front : List Char}
    {before : List String}
    (count : placeholderCount front = before.length)
    (back : List Char)
    (text : String)
    (after : List String) :
    substitute (front ++ (mark ++ back)) (before ++ text :: after) =
      substitute front before ++ text.toList ++ substitute back after := by
  fun_induction placeholderCount front generalizing before with
  | case1 rest inductionHypothesis =>
      obtain ⟨first, others, rfl⟩ := List.exists_cons_of_length_eq_add_one count.symm
      simp only [List.cons_append, substitute, inductionHypothesis (Nat.succ.inj count),
        List.append_assoc]
  | case2 c rest other inductionHypothesis =>
      have other := not_mark_prefix_cons other
      rw [List.cons_append, substitute_cons (not_mark_prefix_append other back),
        substitute_cons other, inductionHypothesis count]
      rfl
  | case3 =>
      obtain rfl := List.length_eq_zero_iff.mp count.symm
      rfl

theorem placeholderCount_append (front back : List Char) :
    placeholderCount (front ++ (mark ++ back)) =
      placeholderCount front + placeholderCount back + 1 := by
  fun_induction placeholderCount front with
  | case1 rest inductionHypothesis =>
      simp only [List.cons_append, placeholderCount, inductionHypothesis]
      omega
  | case2 c rest other inductionHypothesis =>
      have other := not_mark_prefix_append (not_mark_prefix_cons other) back
      rw [List.cons_append, placeholderCount_cons other, inductionHypothesis]
  | case3 => simp [mark, placeholderCount]

/-- Each placeholder of a template is replaced by the value with the same position. -/
theorem exists_value_of_placeholder
    {front back : List Char}
    {values : List Value}
    (count : placeholderCount (front ++ (mark ++ back)) = values.length) :
    ∃ before value after,
      values = before ++ value :: after ∧
        placeholderCount front = before.length ∧
        placeholderCount back = after.length ∧
        substitute (front ++ (mark ++ back)) (Value.writtenAll values) =
          substitute front (Value.writtenAll before) ++ value.written.toList ++
            substitute back (Value.writtenAll after) := by
  rw [placeholderCount_append] at count
  have inside : placeholderCount front < values.length := by omega
  obtain ⟨before, value, after, rfl, beforeCount⟩ : ∃ before value after,
      values = before ++ value :: after ∧ placeholderCount front = before.length :=
    ⟨values.take _, values[placeholderCount front], values.drop _,
      by rw [← List.drop_eq_getElem_cons, List.take_append_drop],
      (List.length_take_of_le (Nat.le_of_lt inside)).symm⟩
  rw [List.length_append, List.length_cons, beforeCount] at count
  refine ⟨before, value, after, rfl, beforeCount, by omega, ?_⟩
  rw [Value.writtenAll_append, Value.writtenAll, substitute_append]
  rw [Value.length_writtenAll, beforeCount]

/-! ## Pieces of a template -/

theorem pieces_mark (rest : List Char) :
    Text.pieces mark (mark ++ rest) = [] :: Text.pieces mark rest := by
  have begins : mark.isPrefixOf (mark ++ rest) = true := by
    simp [List.isPrefixOf_iff_prefix]
  have split_eq : mark ++ rest = '#' :: ('\x7b' :: '\x7d' :: rest) := rfl
  rw [split_eq] at begins ⊢
  rw [Text.pieces, Text.piecesFrom, if_pos begins, Text.piecesFrom_skip]
  rfl

theorem pieces_ne_nil (text : List Char) : Text.pieces mark text ≠ [] :=
  Text.piecesFrom_ne_nil mark 0 text

theorem pieces_cons (other : ¬mark <+: c :: rest) :
    Text.pieces mark (c :: rest) = Text.pushFirst c (Text.pieces mark rest) := by
  rw [Text.pieces, Text.piecesFrom, if_neg (by rwa [List.isPrefixOf_iff_prefix]), Text.pieces]

theorem length_pieces (template : List Char) :
    (Text.pieces mark template).length = placeholderCount template + 1 := by
  fun_induction placeholderCount template with
  | case1 rest inductionHypothesis =>
      have split_eq := pieces_mark rest
      exact (congrArg List.length split_eq).trans (congrArg Nat.succ inductionHypothesis)
  | case2 c rest other inductionHypothesis =>
      rw [pieces_cons (not_mark_prefix_cons other), ← inductionHypothesis]
      cases pieces_eq : Text.pieces mark rest with
      | nil => exact absurd pieces_eq (pieces_ne_nil rest)
      | cons piece more => rfl
  | case3 => rfl

/-- A character in front of the first piece is in front of what is woven. -/
theorem weave_pushFirst
    (c : Char)
    {pieces : List (List Char)}
    (nonempty : pieces ≠ [])
    (texts : List String) :
    (weave ((Text.pushFirst c pieces).map String.ofList) texts).toList =
      c :: (weave (pieces.map String.ofList) texts).toList := by
  obtain ⟨piece, more, rfl⟩ := List.exists_cons_of_ne_nil nonempty
  cases texts with
  | nil => simp [Text.pushFirst, weave]
  | cons text others => simp [Text.pushFirst, weave]

/-- Texts woven into the pieces of a template are put in place of its placeholders. -/
theorem weave_pieces
    {template : List Char}
    {texts : List String}
    (count : placeholderCount template = texts.length) :
    (weave ((Text.pieces mark template).map String.ofList) texts).toList =
      substitute template texts := by
  fun_induction placeholderCount template generalizing texts with
  | case1 rest inductionHypothesis =>
      obtain ⟨text, others, rfl⟩ := List.exists_cons_of_length_eq_add_one count.symm
      have woven := inductionHypothesis (Nat.succ.inj count)
      have split_eq : Text.pieces mark ('#' :: '\x7b' :: '\x7d' :: rest) =
          [] :: Text.pieces mark rest := pieces_mark rest
      simp [split_eq, weave, substitute, woven]
  | case2 c rest other inductionHypothesis =>
      have other := not_mark_prefix_cons other
      rw [pieces_cons other, weave_pushFirst c (pieces_ne_nil rest), inductionHypothesis count,
        substitute_cons other]
  | case3 =>
      obtain rfl := List.length_eq_zero_iff.mp count.symm
      rfl

/-! ## Rendering -/

theorem splitOn_placeholder (template : String) :
    Text.splitOn template placeholder = (Text.pieces mark template.toList).map String.ofList := by
  rw [Text.splitOn, toList_placeholder]

theorem length_splitOn_placeholder (template : String) :
    (Text.splitOn template placeholder).length = placeholderCount template.toList + 1 := by
  rw [splitOn_placeholder, List.length_map, length_pieces]

/-- The values are not as many as the placeholders, or one of them has no text. -/
def Misfits (template : String) (values : List Value) : Prop :=
  placeholderCount template.toList ≠ values.length ∨ ∃ value ∈ values, value.HoldsForeign

/-- Rendering weaves the texts of the values into the pieces of the template. -/
theorem makesUnless_render (template : String) (values : List Value) :
    MakesUnless (Misfits template values) (render template values)
      (String.ofList (substitute template.toList (Value.writtenAll values))) := by
  have bound := Value.makesUnless_bindAll values
  by_cases count : placeholderCount template.toList = values.length
  · have rendered : render template values =
        (Value.bindAll values).map (weave (Text.splitOn template placeholder)) := by
      unfold render
      dsimp only
      rw [length_splitOn_placeholder, Nat.add_sub_cancel, if_neg (not_not.mpr count)]
      rfl
    refine ⟨fun fits => ?_, fun misfits => ?_⟩
    · have woven := weave_pieces (count.trans (Value.length_writtenAll values).symm)
      rw [rendered, bound.ok (not_or.mp fits).2, ← woven, splitOn_placeholder, String.ofList_toList]
      rfl
    · obtain ⟨error, error_eq⟩ := bound.error (misfits.resolve_left (not_not.mpr count))
      exact ⟨error, by rw [rendered, error_eq]; rfl⟩
  · refine ⟨fun fits => absurd count (not_or.mp fits).1, fun _ => ?_⟩
    refine ⟨.valueCount (placeholderCount template.toList) values.length template, ?_⟩
    unfold render
    dsimp only
    rw [length_splitOn_placeholder, Nat.add_sub_cancel, if_pos count]
    rfl

/--
Rendering fails exactly if the values are not as many as the placeholders, or one of them has no
text.  Otherwise the template is substituted by the texts of the values: wherever a placeholder
stands in it, the value with the same position is written, between what the others make of the
template before the placeholder and behind it.
-/
theorem render_substitutes (template : String) (values : List Value) :
    ((∃ error, render template values = .error error) ↔ Misfits template values) ∧
      (¬Misfits template values → ∃ text,
        render template values = .ok text ∧
          text.toList = substitute template.toList (Value.writtenAll values) ∧
          ∀ front back, template = front ++ placeholder ++ back →
            ∃ before value after,
              values = before ++ value :: after ∧
                placeholderCount front.toList = before.length ∧
                placeholderCount back.toList = after.length ∧
                text.toList = substitute front.toList (Value.writtenAll before) ++
                  value.written.toList ++ substitute back.toList (Value.writtenAll after)) := by
  have rendered := makesUnless_render template values
  refine ⟨⟨fun ⟨error, error_eq⟩ => ?_, rendered.error⟩,
    fun fits => ⟨_, rendered.ok fits, String.toList_ofList, fun front back split_eq => ?_⟩⟩
  · by_contra fits
    cases error_eq.symm.trans (rendered.ok fits)
  · have count := not_not.mp (not_or.mp fits).1
    have chars_eq : template.toList = front.toList ++ (mark ++ back.toList) := by
      rw [split_eq, String.toList_append, String.toList_append, List.append_assoc,
        toList_placeholder]
    rw [chars_eq] at count
    rw [String.toList_ofList, chars_eq]
    exact exists_value_of_placeholder count

/-- A placeholder in a value, or one that a value and the template form, is no placeholder. -/
example : render "#\x7b\x7d\x7b\x7d + f(#\x7b\x7d)"
    [.text "#", .sequence [.text "#\x7b\x7d", .sequence [.text "a", .text "b"]]] =
      .ok "#\x7b\x7d + f(#\x7b\x7d, a, b)" := by
  cbv

end Template

end JupiterMigration
