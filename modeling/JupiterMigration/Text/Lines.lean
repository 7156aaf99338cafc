import JupiterMigration.Text.Search

/-!
# Lines

A text is cut into lines after every line break; the breaks stay with the lines, so that the lines
in a row are the text (`flatten_cutLines`).
-/

namespace JupiterMigration.Text

/-- A character that ends a line. -/
def endsLine (c : Char) : Bool :=
  ('\n' ≤ c && c ≤ '\r') || ('\x1c' ≤ c && c ≤ '\x1e') || c == '\u0085' || c == '\u2028' ||
    c == '\u2029'

/-- The lines of a text with their breaks; a carriage return and a line feed are one break. -/
def cutLines : List Char → List (List Char)
  | [] => []
  | '\r' :: '\n' :: rest => ['\r', '\n'] :: cutLines rest
  | c :: rest => if endsLine c then [c] :: cutLines rest else pushFirst c (cutLines rest)

/-- The lines of a text with their breaks. -/
def lines (text : String) : List String :=
  (cutLines text.toList).map String.ofList

/-- A character in front of the first line is in front of the text. -/
theorem flatten_pushFirst (c : Char) (parts : List (List Char)) :
    (pushFirst c parts).flatten = c :: parts.flatten := by
  cases parts <;> simp [pushFirst]

/-- Cutting a text into lines loses nothing. -/
theorem flatten_cutLines (text : List Char) : (cutLines text).flatten = text := by
  fun_induction cutLines text with
  | case1 => rfl
  | case2 rest ih => simp [ih]
  | case3 c rest _ ends ih => simp [ih]
  | case4 c rest _ ends ih => simp [flatten_pushFirst, ih]

end JupiterMigration.Text
