import JupiterMigration.Text.Digits

/-!
# Texts and keys of TOML documents

A text stands between single quotes as it is, or between double quotes with escapes.  Between
three quotes it may go over several lines.  A key is a list of names with dots between them.

Readers take the characters that are left and give back those after what they have read.
-/

namespace JupiterMigration.Toml

open JupiterMigration.Text

/-- What has been read, and the characters after it; nothing if they do not begin with it. -/
abbrev Reading (α : Type) := Option (α × List Char)

/-- A character that separates what stands on one line. -/
def isGap (c : Char) : Bool :=
  c == ' ' || c == '\t'

/-- The characters after a gap. -/
def skipGap (text : List Char) : List Char :=
  text.dropWhile isGap

/-- A control character that no text and no comment of one line may hold. -/
def isForbidden (c : Char) : Bool :=
  (c < ' ' && c != '\t') || c == '\x7f'

/-- A reading of characters with one more in front. -/
def withFirst (c : Char) (found : List Char × List Char) : List Char × List Char :=
  (c :: found.1, found.2)

/-! ## Texts as they are -/

/-- Reads on in a text between single quotes, three of them if it is long. -/
def literalText (long : Bool) : List Char → Reading (List Char)
  | [] => none
  | '\'' :: rest =>
    if !long then some ([], rest)
    else if rest.take 2 = ['\'', '\''] then some ([], rest.drop 2)
    else (literalText long rest).map (withFirst '\'')
  | c :: rest =>
    if isForbidden c && !(long && c == '\n') then none
    else (literalText long rest).map (withFirst c)

/-! ## Texts with escapes -/

/-- The character that a letter after a backslash stands for. -/
def letterEscape : Char → Option Char
  | 'b' => some '\x08'
  | 't' => some '\t'
  | 'n' => some '\n'
  | 'f' => some '\x0c'
  | 'r' => some '\r'
  | '"' => some '"'
  | '\\' => some '\\'
  | _ => none

/-- The character of a code in hexadecimal digits. -/
def codeEscape? (digits : List Char) : Option Char :=
  let code := valueOf 16 digits
  if digits.all isHexDigit && decide code.isValidChar then some (Char.ofNat code) else none

/-- The characters after a backslash that ends a line: the next ones that are not blank. -/
def afterLineEnd (text : List Char) : Option (List Char) :=
  match skipGap text with
  | '\n' :: rest => some (rest.dropWhile fun c => isGap c || c == '\n')
  | _ => none

/-- What stands for no character or one after a backslash; a long text may end a line there. -/
def escape (long : Bool) : List Char → Reading (List Char)
  | 'u' :: a :: b :: c :: d :: rest =>
    (codeEscape? [a, b, c, d]).map fun found => ([found], rest)
  | 'U' :: a :: b :: c :: d :: e :: f :: g :: h :: rest =>
    (codeEscape? [a, b, c, d, e, f, g, h]).map fun found => ([found], rest)
  | letter :: rest =>
    if long && (isGap letter || letter == '\n') then
      (afterLineEnd (letter :: rest)).map fun rest => ([], rest)
    else (letterEscape letter).map fun found => ([found], rest)
  | [] => none

/-- Reads on in a text between double quotes, three of them if it is long. -/
def escapedText (long : Bool) : List Char → Reading (List Char)
  | [] => none
  | '"' :: rest =>
    if !long then some ([], rest)
    else if rest.take 2 = ['"', '"'] then some ([], rest.drop 2)
    else (escapedText long rest).map (withFirst '"')
  | '\\' :: rest =>
    match escape long rest with
    | some (found, after) =>
      if _fewer : after.length ≤ rest.length then
        (escapedText long after).map fun (more, rest) => (found ++ more, rest)
      else none
    | none => none
  | c :: rest =>
    if isForbidden c && !(long && c == '\n') then none
    else (escapedText long rest).map (withFirst c)
  termination_by text => text.length

/-! ## Texts over several lines -/

/-- Up to two quotes that stand before the closing ones belong to a long text. -/
def withQuotes (quote : Char) (found : List Char × List Char) : List Char × List Char :=
  let quotes := (found.2.take 2).takeWhile (· == quote)
  (found.1 ++ quotes, found.2.drop quotes.length)

/-- The characters after a line break, if they begin with one. -/
def skipLineBreak : List Char → List Char
  | '\n' :: rest => rest
  | text => text

/-- Reads a text. -/
def text : List Char → Reading String
  | '"' :: '"' :: '"' :: rest =>
    finish ((escapedText true (skipLineBreak rest)).map (withQuotes '"'))
  | '\'' :: '\'' :: '\'' :: rest =>
    finish ((literalText true (skipLineBreak rest)).map (withQuotes '\''))
  | '"' :: rest => finish (escapedText false rest)
  | '\'' :: rest => finish (literalText false rest)
  | _ => none
where
  /-- The characters that have been read as a text. -/
  finish (found : Reading (List Char)) : Reading String :=
    found.map fun (content, rest) => (String.ofList content, rest)

/-! ## Keys -/

/-- A character of a name without quotes. -/
def isBareKeyChar (c : Char) : Bool :=
  isAsciiLetter c || isDigit c || c == '-' || c == '_'

/-- Reads one name of a key. -/
def keyName : List Char → Reading String
  | '"' :: rest => (escapedText false rest).map fun (name, rest) => (String.ofList name, rest)
  | '\'' :: rest => (literalText false rest).map fun (name, rest) => (String.ofList name, rest)
  | text =>
    let name := text.takeWhile isBareKeyChar
    if name.isEmpty then none else some (String.ofList name, text.drop name.length)

/-- Reads a key of a limited number of names, and the gap after it. -/
def keyWithin : Nat → List Char → Option (List String × List Char)
  | 0, _ => none
  | limit + 1, text => do
    let (name, rest) ← keyName text
    match skipGap rest with
    | '.' :: more =>
      let (names, rest) ← keyWithin limit (skipGap more)
      return (name :: names, rest)
    | rest => return ([name], rest)

/-- Reads a key and the gap after it. -/
def key (text : List Char) : Reading (List String) :=
  keyWithin (text.length + 1) text

end JupiterMigration.Toml
