import JupiterMigration.Java.Token
import JupiterMigration.Text.Digits

/-!
# Numeric literals

Each form of literal is measured by the length of the longest text at the beginning of the input
that has this form, zero when there is none.  The literal is the longest of all forms, and of two
equally long ones the form that stands first.
-/

namespace JupiterMigration.Java.Numeral

open JupiterMigration.Text

/-- How much of the text continues a whole number, `held` underscores having been passed. -/
def wholeTail (held : Nat) : List Char → Nat
  | c :: rest =>
    if isDigit c then held + 1 + wholeTail 0 rest
    else if c == '_' then wholeTail (held + 1) rest
    else 0
  | [] => 0

/--
The length of a whole decimal number: a zero, or digits that begin with another one.  Runs of
underscores may stand between digits, after the first digit at most one.
-/
def whole : List Char → Nat
  | '0' :: _ => 1
  | c :: '_' :: d :: rest =>
    if isDigit c then (if isDigit d then 3 + wholeTail 0 rest else 1) else 0
  | c :: d :: rest =>
    if isDigit c then (if isDigit d then 2 + wholeTail 0 rest else 1) else 0
  | [c] => if isDigit c then 1 else 0
  | [] => 0

/-- One if the text begins with one of the characters. -/
def mark (chars : List Char) : List Char → Nat
  | c :: _ => if chars.contains c then 1 else 0
  | [] => 0

/-- The length of an exponent: one of the letters, perhaps a sign, and digits. -/
def exponent (letters : List Char) (text : List Char) : Nat :=
  if mark letters text = 0 then 0
  else
    let afterLetter := text.drop 1
    let sign := mark ['+', '-'] afterLetter
    let digits := groups isDigit (afterLetter.drop sign)
    if digits = 0 then 0 else 1 + sign + digits

/-- Letters that end a long integer. -/
def longMarks : List Char := ['l', 'L']

/-- Letters that end a floating point number. -/
def floatMarks : List Char := ['f', 'F', 'd', 'D']

/-- The length `n` together with one more for a mark that follows. -/
def withMark (marks : List Char) (text : List Char) (n : Nat) : Nat :=
  n + mark marks (text.drop n)

/-- An integer after a two letter sign of its base. -/
def based (letters : List Char) (digit : Char → Bool) : List Char → Nat
  | '0' :: letter :: rest =>
    if letters.contains letter then
      let digits := groups digit rest
      if digits = 0 then 0 else withMark longMarks ('0' :: letter :: rest) (2 + digits)
    else 0
  | _ => 0

/-- A decimal integer. -/
def decimalInteger (text : List Char) : Nat :=
  let digits := whole text
  if digits = 0 then 0 else withMark longMarks text digits

/-- An octal integer: a zero before other octal digits, or `0o`. -/
def octalInteger (text : List Char) : Nat :=
  match text with
  | '0' :: rest =>
    let digits := groups isOctalDigit rest
    let plain := if digits = 0 then 0 else withMark longMarks text (1 + digits)
    max plain (based ['o', 'O'] isOctalDigit text)
  | _ => 0

/-- A length with the exponent and the mark that follow it. -/
def withExponent (letters : List Char) (text : List Char) (n : Nat) : Nat :=
  withMark floatMarks text (n + exponent letters (text.drop n))

/-- A decimal floating point number. -/
def decimalFloating (text : List Char) : Nat :=
  let digits := groups isDigit text
  let pointed :=
    if mark ['.'] (text.drop digits) = 0 then 0
    else
      let fraction := groups isDigit (text.drop (digits + 1))
      if digits + fraction = 0 then 0
      else withExponent ['e', 'E'] text (digits + 1 + fraction)
  let number := whole text
  let bare :=
    if number = 0 then 0
    else
      let raised := number + exponent ['e', 'E'] (text.drop number)
      let marked := withMark floatMarks text raised
      if marked = number then 0 else marked
  max pointed bare

/-- A hexadecimal floating point number. -/
def hexFloating : List Char → Nat
  | '0' :: letter :: rest =>
    if letter == 'x' || letter == 'X' then
      let digits := groups isHexDigit rest
      let point := mark ['.'] (rest.drop digits)
      let fraction := if point = 0 then 0 else groups isHexDigit (rest.drop (digits + 1))
      if digits + fraction = 0 then 0
      else
        let mantissa := digits + point + fraction
        let power := exponent ['p', 'P'] (rest.drop mantissa)
        let ending := if power = 0 then 0 else mark floatMarks (rest.drop (mantissa + power))
        2 + mantissa + power + ending
    else 0
  | _ => 0

/-- Of two measured forms the longer one, the first if they are equally long. -/
def longer (first second : TokenKind × Nat) : TokenKind × Nat :=
  if first.2 < second.2 then second else first

/-- The form and the length of the numeric literal that a text begins with; length zero if none. -/
def measure (text : List Char) : TokenKind × Nat :=
  [(TokenKind.integer .hexadecimal, based ['x', 'X'] isHexDigit text),
    (.integer .octal, octalInteger text),
    (.integer .binary, based ['b', 'B'] isBinaryDigit text),
    (.floating, decimalFloating text),
    (.floating, hexFloating text)].foldl longer (.integer .decimal, decimalInteger text)

/-- The base as a number. -/
def base : Radix → Nat
  | .decimal => 10
  | .hexadecimal => 16
  | .octal => 8
  | .binary => 2

/-- Whether a character is the letter of a base: the `x` of `0x1F`, the `b` of `0b1`. -/
def isBaseLetter (radix : Radix) (c : Char) : Bool :=
  match radix with
  | .decimal => false
  | .hexadecimal => c == 'x' || c == 'X'
  | .octal => c == 'o' || c == 'O'
  | .binary => c == 'b' || c == 'B'

/-- The digits of an integer literal: no sign of the base, no underscores, no mark at the end. -/
def digitsOf (radix : Radix) (text : List Char) : List Char :=
  text.filter fun c => !(c == '_' || longMarks.contains c || isBaseLetter radix c)

/-- The longest decimal literal whose value is read. -/
def maxDecimalDigits : Nat := 4300

/-- The value of an integer literal, unless it is decimal and too long to be read. -/
def value? (radix : Radix) (text : List Char) : Option Nat :=
  let digits := digitsOf radix text
  if radix = .decimal ∧ maxDecimalDigits < digits.length then none
  else some (valueOf (base radix) digits)

end JupiterMigration.Java.Numeral
