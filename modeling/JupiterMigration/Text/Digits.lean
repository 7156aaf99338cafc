import JupiterMigration.Text.Word

/-!
# Digits and their values

Digits may stand in groups, with single underscores between them.
-/

namespace JupiterMigration.Text

/-- An octal digit. -/
def isOctalDigit (c : Char) : Bool :=
  '0' ≤ c && c ≤ '7'

/-- A binary digit. -/
def isBinaryDigit (c : Char) : Bool :=
  c == '0' || c == '1'

/-- A decimal digit's value, or a hexadecimal one's. -/
def digitValue (c : Char) : Nat :=
  if isDigit c then c.toNat - '0'.toNat
  else if 'a' ≤ c then c.toNat - 'a'.toNat + 10
  else c.toNat - 'A'.toNat + 10

/-- The number that digits stand for. -/
def valueOf (base : Nat) (digits : List Char) : Nat :=
  digits.foldl (fun total c => total * base + digitValue c) 0

/-- One with that many zeros behind it. -/
def powerOfTen (zeros : Nat) : Nat :=
  Nat.pow 10 zeros

/-- How much of the text continues groups of digits with single underscores between them. -/
def groupTail (digit : Char → Bool) : List Char → Nat
  | '_' :: c :: rest => if digit c then 2 + groupTail digit rest else 0
  | c :: rest => if digit c then 1 + groupTail digit rest else 0
  | [] => 0

/-- The length of groups of digits with single underscores between them. -/
def groups (digit : Char → Bool) : List Char → Nat
  | c :: rest => if digit c then 1 + groupTail digit rest else 0
  | [] => 0

/-- The digits of groups, without the underscores between them. -/
def ungrouped (text : List Char) : List Char :=
  text.filter (· != '_')

end JupiterMigration.Text
