import JupiterMigration.Journal
import JupiterMigration.Text.Quoted

/-!
# Traces as JSON documents

The trace of one file is a list of events; the traces of several files stand under their paths.  An
event is named by its position in its trace.
-/

namespace JupiterMigration

/-- A value of a JSON document. -/
inductive JsonValue where
  | null
  | text (content : String)
  | list (items : List JsonValue)
  | object (entries : List (String × JsonValue))
  deriving Inhabited

namespace JsonValue

/-- The escape of one unit of sixteen bits. -/
def unitEscape (unit : Nat) : List Char :=
  '\\' :: 'u' :: Text.paddedHex 4 unit

/-- A character between quotes; all but ASCII characters are escaped. -/
def quoteChar (c : Char) : List Char :=
  let code := c.toNat
  if c == '"' || c == '\\' then ['\\', c]
  else if c == '\n' then ['\\', 'n']
  else if c == '\r' then ['\\', 'r']
  else if c == '\t' then ['\\', 't']
  else if c == '\x08' then ['\\', 'b']
  else if c == '\x0c' then ['\\', 'f']
  else if ' ' ≤ c && code < 0x80 then [c]
  else if code < 0x10000 then unitEscape code
  else
    unitEscape (0xD800 + (code - 0x10000) / 0x400) ++ unitEscape (0xDC00 + (code - 0x10000) % 0x400)

/-- A text between quotes. -/
def quote (content : String) : String :=
  String.ofList ('"' :: content.toList.flatMap quoteChar ++ ['"'])

/-- The beginning of a line at a depth. -/
def newLine (depth : Nat) : String :=
  "\n" ++ String.ofList (List.replicate (2 * depth) ' ')

/-- Parts on lines of their own between brackets. -/
def enclose (depth : Nat) (opening closing : String) (parts : List String) : String :=
  if parts.isEmpty then opening ++ closing
  else
    opening ++ newLine (depth + 1) ++ ("," ++ newLine (depth + 1)).intercalate parts ++
      newLine depth ++ closing

/-- A value with every item and every entry on a line of its own. -/
def render (depth : Nat) : JsonValue → String
  | null => "null"
  | text content => quote content
  | list items => enclose depth "[" "]" (items.attach.map fun ⟨item, _⟩ => item.render (depth + 1))
  | object entries =>
    enclose depth "\x7b" "\x7d" (entries.attach.map fun ⟨(key, value), _⟩ =>
      quote key ++ ": " ++ value.render (depth + 1))
  termination_by value => sizeOf value
  decreasing_by
    all_goals
      simp_wf
      next member => have := List.sizeOf_lt_of_mem member; simp_all; omega

end JsonValue

/-- What is stored of the traces of a run. -/
inductive TraceDocument where
  | single (trace : Trace)
  | byFile (traces : List (String × Trace))
  deriving DecidableEq, Repr

namespace TraceDocument

/-- An event at a position. -/
def eventValue (position : Nat) (event : TraceEvent) : JsonValue :=
  .object [("id", .text (toString position)),
    ("type", .text event.happening.kindName),
    ("description", .text event.happening.description),
    ("parent_id", match event.parent with
      | some parent => .text (toString parent)
      | none => .null),
    ("metadata", .object (event.happening.metadata.map fun (key, detail) => (key, .text detail)))]

/-- A trace as the list of its events. -/
def traceValue (trace : Trace) : JsonValue :=
  .list (trace.events.mapIdx eventValue)

/-- A document as a value. -/
def value : TraceDocument → JsonValue
  | single trace => traceValue trace
  | byFile traces => .object (traces.map fun (path, trace) => (path, traceValue trace))

/-- The text of a document. -/
def render (document : TraceDocument) : String :=
  document.value.render 0

end TraceDocument

end JupiterMigration
