import JupiterMigration.Journal
import JupiterMigration.Layout
import JupiterMigration.Snippet

/-!
# Templates

A template is program text with placeholders.  Rendering puts the text of the first value in place
of the first placeholder and so on, all at once: a placeholder inside a value stays as it is.  A
node stands for its text without its lead, an expression for its text, and a sequence for its
elements separated by commas.

New nodes are made by rendering a template from the first column on, shifting it to the column where
the node is put, and reading the result as a snippet.
-/

namespace JupiterMigration

namespace Template

/-- What stands for a value in a template. -/
def placeholder : String := "#\x7b\x7d"

/-- What is put in place of a placeholder. -/
inductive Value where
  | text (text : String)
  | node (node : Node)
  | expression (expression : Expression)
  | sequence (values : List Value)
  /-- A value that has no text in a program, by the name of its kind. -/
  | foreign (kind : String)
  deriving Inhabited

namespace Value

mutual

/-- The text of a value. -/
def bind : Value → Except SynthesisError String
  | .text content => .ok content
  | .node bound => .ok bound.text
  | .expression bound => .ok bound.text
  | .sequence values => return ", ".intercalate (← bindAll values)
  | .foreign kind => .error (.unbindable kind)

/-- The texts of some values. -/
def bindAll : List Value → Except SynthesisError (List String)
  | [] => .ok []
  | first :: rest => do
    let head ← bind first
    let tail ← bindAll rest
    return head :: tail

end

/-- A sequence of texts as a value. -/
def texts (items : List String) : Value :=
  sequence (items.map text)

end Value

/-- The pieces of a template with texts put between them. -/
def weave : List String → List String → String
  | piece :: pieces, text :: texts => piece ++ text ++ weave pieces texts
  | pieces, _ => String.join pieces

/-- The template with the texts of the values in place of its placeholders. -/
def render (template : String) (values : List Value) : Except SynthesisError String := do
  let pieces := Text.splitOn template placeholder
  if pieces.length - 1 ≠ values.length then
    throw (.valueCount (pieces.length - 1) values.length template)
  return weave pieces (← Value.bindAll values)

end Template

/-- A step of a migration that may fail to make a node. -/
abbrev Synthesis := ExceptT SynthesisError Migration

namespace Synthesis

/-- A result as a step that changes nothing. -/
def ofExcept {α : Type} (result : Except SynthesisError α) : Synthesis α :=
  ExceptT.mk (pure result)

/-- A node read from a snippet, numbered from the numbers not yet used. -/
def numbered {α : Type} (node : Except SynthesisError α) (number : α → Numbering α) :
    Synthesis α := do
  let unnumbered ← ofExcept node
  (Migration.number (number unnumbered) : Migration α)

end Synthesis

namespace Template

/-- A member made from a template. -/
def member (template : String) (values : List Value) (indent lead : String) :
    Synthesis Member :=
  Synthesis.numbered (do
    let snippet := Layout.shift (← render template values) indent
    return (← Snippet.readMember snippet).withLead lead) Member.numbered

/-- A statement made from a template. -/
def statement (template : String) (values : List Value) (indent lead : String) :
    Synthesis Statement :=
  Synthesis.numbered (do
    let snippet := Layout.shift (← render template values) indent
    return { ← Snippet.readStatement snippet with lead }) Statement.numbered

/-- An annotation made from a template. -/
def annotationUse (template : String) (values : List Value) (lead : String) :
    Synthesis Annotation :=
  Synthesis.numbered (do
    return { ← Snippet.readAnnotation (← render template values) with lead }) Annotation.numbered

end Template

end JupiterMigration
