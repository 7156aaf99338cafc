/-!
# Blank characters and trimming

Two sets of blank characters are in use.  `isSpace` is the Unicode property White_Space, which
separates the tokens of a program.  `isBlank` adds the four information separators and is the set
that trimming, splitting into words and deleting blanks work with.
-/

namespace JupiterMigration.Text

/-- A character with the Unicode property White_Space. -/
def isSpace (c : Char) : Bool :=
  c == ' ' || ('\t' ≤ c && c ≤ '\r') ||
    (127 < c.toNat &&
      (c == '\u0085' || c == '\u00a0' || c == '\u1680' || ('\u2000' ≤ c && c ≤ '\u200a') ||
        c == '\u2028' || c == '\u2029' || c == '\u202f' || c == '\u205f' || c == '\u3000'))

/-- A character that trimming removes: white space or an information separator. -/
def isBlank (c : Char) : Bool :=
  isSpace c || ('\x1c' ≤ c && c ≤ '\x1f')

/-- The text without the blanks it begins with. -/
def trimStart (text : String) : String :=
  String.ofList (text.toList.dropWhile isBlank)

/-- The blanks a text begins with. -/
def leadingBlanks (text : String) : String :=
  String.ofList (text.toList.takeWhile isBlank)

/-- The list without the longest tail of elements that satisfy `p`. -/
def dropTail (p : Char → Bool) (text : List Char) : List Char :=
  (text.reverse.dropWhile p).reverse

/-- The text without the blanks it ends with. -/
def trimEnd (text : String) : String :=
  String.ofList (dropTail isBlank text.toList)

/-- The text without the blanks at both of its ends. -/
def trim (text : String) : String :=
  String.ofList (dropTail isBlank (text.toList.dropWhile isBlank))

/-- The text with every blank deleted. -/
def deleteBlanks (text : String) : String :=
  String.ofList (text.toList.filter fun c => !isBlank c)

/-- The maximal runs of characters that are not blank. -/
def blankSeparated : List Char → List (List Char)
  | [] => []
  | c :: rest =>
    if isBlank c then
      blankSeparated rest
    else
      match rest, blankSeparated rest with
      | next :: _, word :: words =>
        if isBlank next then [c] :: word :: words else (c :: word) :: words
      | _, words => [c] :: words

/-- The words of a text: its maximal runs without blanks. -/
def words (text : String) : List String :=
  (blankSeparated text.toList).map String.ofList

/-- White space is blank. -/
theorem isBlank_of_isSpace {c : Char} (space : isSpace c = true) : isBlank c = true := by
  simp [isBlank, space]

/-- A text is its leading blanks followed by the rest. -/
theorem leadingBlanks_append_trimStart (text : String) :
    leadingBlanks text ++ trimStart text = text := by
  simp [leadingBlanks, trimStart, ← String.ofList_append, List.takeWhile_append_dropWhile]

end JupiterMigration.Text
