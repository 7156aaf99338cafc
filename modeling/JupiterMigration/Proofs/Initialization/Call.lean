import JupiterMigration.Parameterized.ClassMigration
import JupiterMigration.Proofs.Printing
import JupiterMigration.Proofs.Snippet.Statement
import JupiterMigration.Proofs.Synthesis

/-!
# The call of an initializer

The call is rendered from the name of the initializer and the names of the planned parameters and
read back as a statement.  If the names are words joined by dots, its text is cut up into tokens
that close nothing (`CutUp.call`), so the statement has the text that was rendered
(`Parameterized.text_of_call`).
-/

namespace JupiterMigration

namespace Java

namespace CutUp

variable {stack : List Bracket} {rest : List Char} {gap : String}

/-- Paths with commas between them. -/
theorem paths
    {names : List String}
    (isGap : IsGap gap)
    (nonempty : names ≠ [])
    (arePaths : ∀ name ∈ names, IsPath name)
    (ends : rest.head?.any Text.isNameContinue = false) :
    CutUp stack stack rest (gap ++ ", ".intercalate names) := by
  have spaced : IsGap " " := isGap_of_spaces rfl
  induction names generalizing gap with
  | nil => exact absurd rfl nonempty
  | cons first others inductionHypothesis =>
      obtain ⟨isPath, arePaths⟩ := List.forall_mem_cons.mp arePaths
      cases others with
      | nil => exact path isGap isPath ends
      | cons next more =>
          have later := inductionHypothesis spaced (List.cons_ne_nil _ _) arePaths
          have front : CutUp stack stack
              (("," ++ (" " ++ ", ".intercalate (next :: more))).toList ++ rest) (gap ++ first) :=
            path isGap isPath (ends_word rfl rfl _ _)
          have separator : ", " = "," ++ " " := rfl
          rw [String.intercalate_cons_of_ne_nil (List.cons_ne_nil _ _), separator,
            String.append_assoc, String.append_assoc, ← String.append_assoc]
          exact front.append ((comma _).append later)

/-- The call of a function with the given arguments. -/
theorem call
    {function : String}
    {names : List String}
    (isGap : IsGap gap)
    (spelled : isWord function = true)
    (nonempty : names ≠ [])
    (arePaths : ∀ name ∈ names, IsPath name)
    (rest : List Char) :
    CutUp stack stack rest (gap ++ (function ++ "(" ++ ", ".intercalate names ++ ");")) := by
  have noGap : IsGap "" := isGap_of_spaces rfl
  have arguments : CutUp stack stack ((");" : String).toList ++ rest)
      ("" ++ ", ".intercalate names) := paths noGap nonempty arePaths rfl
  rw [String.empty_append] at arguments
  have applied := (openParenthesis _).append (arguments.append (endOfCall rest))
  have front : CutUp stack stack
      (("(" ++ (", ".intercalate names ++ ");")).toList ++ rest) (gap ++ function) :=
    word isGap spelled (ends_word rfl rfl _ _)
  rw [String.append_assoc, String.append_assoc, ← String.append_assoc]
  exact front.append applied

end CutUp

end Java

namespace Parameterized

open Java Synthesis

theorem splitOn_initializerCallTemplate :
    Text.splitOn initializerCallTemplate Template.placeholder = ["", "(", ");"] := by
  decide

/-- The rendered call of an initializer. -/
theorem render_call (function : String) (names : List String) :
    Template.render initializerCallTemplate [.text function, .texts names] =
      .ok (function ++ "(" ++ ", ".intercalate names ++ ");") := by
  have bound : Template.Value.bindAll [.text function, .texts names] =
      .ok [function, ", ".intercalate names] := by
    rw [Template.Value.bindAll, Template.Value.bindAll, Template.Value.bindAll,
      Template.Value.texts, Template.Value.bind, Template.Value.bind, Template.bindAll_texts]
    rfl
  have woven : Template.weave ["", "(", ");"] [function, ", ".intercalate names] =
      function ++ "(" ++ ", ".intercalate names ++ ");" := by
    simp [Template.weave, String.append_assoc]
  unfold Template.render
  rw [splitOn_initializerCallTemplate, bound, ← woven]
  rfl

/-- The text of a call that is made. -/
theorem text_of_call
    {function lead : String}
    {names : List String}
    {statement : JupiterMigration.Statement}
    {earlier later : Session}
    (spelled : isWord function = true)
    (nonempty : names ≠ [])
    (arePaths : ∀ name ∈ names, IsPath name)
    (makes : (Template.statement initializerCallTemplate [.text function, .texts names] ""
      lead).Makes earlier statement later) :
    statement.text = function ++ "(" ++ ", ".intercalate names ++ ");" := by
  obtain ⟨unnumbered, read, rfl, -⟩ := makes_numbered.mp makes
  rw [render_call] at read
  have unshifted (text : String) : Layout.shift text "" = text := by
    unfold Layout.shift
    rw [String.toList_empty, Layout.shiftChars_nil, String.ofList_toList]
  cases snippet : Snippet.readStatement (function ++ "(" ++ ", ".intercalate names ++ ");") with
  | error error =>
      simp [bind, Except.bind, unshifted, snippet] at read
  | ok node =>
      have unnumbered_eq : { node with lead } = unnumbered := by
        simpa [bind, Except.bind, pure, Except.pure, unshifted, snippet] using read
      have onNewLine : IsGap "\n" := isGap_of_spaces rfl
      have ends : endsGap (function ++ "(" ++ ", ".intercalate names ++ ");") = true := by
        rw [String.append_assoc, String.append_assoc]
        exact endsGap_append (endsGap_of_isWord spelled) _
      have node_text : node.text = function ++ "(" ++ ", ".intercalate names ++ ");" :=
        Snippet.text_of_readStatement
          (CutUp.call onNewLine spelled nonempty arePaths afterStatement) ends snippet
      rw [← unnumbered_eq]
      exact node_text

end Parameterized

end JupiterMigration
