import JupiterMigration.Text.Ranges
import JupiterMigration.Text.Search

/-!
# Quoted text in messages

A text is shown between single quotes, or between double quotes when it holds a single quote and
no double one.  The quote in use, the backslash, line breaks and tabs are escaped by a letter;
other characters without a visible form by their code.
-/

namespace JupiterMigration.Text

/-- Whether a character is shown as itself. -/
def isVisible (c : Char) : Bool :=
  if c.toNat < 127 then ' ' ≤ c else 127 < c.toNat && !inRanges invisibleRanges c.toNat

/-- A code in lower case hexadecimal, with zeros in front up to the given width. -/
def paddedHex (width code : Nat) : List Char :=
  let digits := Nat.toDigits 16 code
  List.replicate (width - digits.length) '0' ++ digits

/-- The escape of a character without a visible form, as short as its code allows. -/
def codeEscape (c : Char) : List Char :=
  let code := c.toNat
  if code < 0x100 then '\\' :: 'x' :: paddedHex 2 code
  else if code < 0x10000 then '\\' :: 'u' :: paddedHex 4 code
  else '\\' :: 'U' :: paddedHex 8 code

/-- One character between the given quotes. -/
def quoteChar (quote c : Char) : List Char :=
  if c == quote || c == '\\' then ['\\', c]
  else if c == '\n' then ['\\', 'n']
  else if c == '\r' then ['\\', 'r']
  else if c == '\t' then ['\\', 't']
  else if isVisible c then [c]
  else codeEscape c

/-- The quote that surrounds a text. -/
def quoteFor (text : List Char) : Char :=
  if text.contains '\'' && !text.contains '"' then '"' else '\''

/-- A text as messages show it. -/
def quoted (text : String) : String :=
  let chars := text.toList
  let quote := quoteFor chars
  String.ofList (quote :: chars.flatMap (quoteChar quote) ++ [quote])

/-- A list of texts as messages show it. -/
def quotedList (texts : List String) : String :=
  "[" ++ ", ".intercalate (texts.map quoted) ++ "]"

/-- A fixed sequence of texts as messages show it: in parentheses, a single one with a comma. -/
def quotedTuple : List String → String
  | [single] => "(" ++ quoted single ++ ",)"
  | texts => "(" ++ ", ".intercalate (texts.map quoted) ++ ")"

end JupiterMigration.Text
