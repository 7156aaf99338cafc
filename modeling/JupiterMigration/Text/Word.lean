import JupiterMigration.Text.Ranges

/-!
# Name characters and word characters

`isNameStart` and `isNameContinue` delimit the names of a program; `isWordChar` is the class that
annotation signatures are written in.
-/

namespace JupiterMigration.Text

/-- An ASCII letter. -/
def isAsciiLetter (c : Char) : Bool :=
  ('a' ≤ c && c ≤ 'z') || ('A' ≤ c && c ≤ 'Z')

/-- An ASCII digit. -/
def isDigit (c : Char) : Bool :=
  '0' ≤ c && c ≤ '9'

/-- A hexadecimal digit. -/
def isHexDigit (c : Char) : Bool :=
  isDigit c || ('a' ≤ c && c ≤ 'f') || ('A' ≤ c && c ≤ 'F')

/-- A character that a name may begin with: XID_Start, `_` or `$`. -/
def isNameStart (c : Char) : Bool :=
  isAsciiLetter c || c == '_' || c == '$' ||
    (127 < c.toNat && inRanges nameStartRanges c.toNat)

/-- A character that a name may go on with: XID_Continue, `$` or the cent sign. -/
def isNameContinue (c : Char) : Bool :=
  isNameStart c || isDigit c ||
    (127 < c.toNat && (c == '\u00a2' || inRanges nameContinueRanges c.toNat))

/-- A word character: alphanumeric in any script, or `_`. -/
def isWordChar (c : Char) : Bool :=
  isAsciiLetter c || isDigit c || c == '_' ||
    (127 < c.toNat &&
      ((inRanges nameStartRanges c.toNat && !inRanges unpairedStartRanges c.toNat) ||
        inRanges numberRanges c.toNat))

/-- Every character that begins a name also continues one. -/
theorem isNameContinue_of_isNameStart {c : Char} (start : isNameStart c = true) :
    isNameContinue c = true := by
  simp [isNameContinue, start]

end JupiterMigration.Text
