import JupiterMigration.Configuration.Setting
import JupiterMigration.Toml.Text

/-!
# Numbers and moments of TOML documents
-/

namespace JupiterMigration.Toml

open JupiterMigration.Text

/-! ## Dates and times -/

/-- Reads a number of two digits within bounds. -/
def twoDigits (low high : Nat) : List Char → Reading Nat
  | a :: b :: rest =>
    let value := valueOf 10 [a, b]
    if isDigit a && isDigit b && low ≤ value && value ≤ high then some (value, rest) else none
  | _ => none

/-- Passes over a character. -/
def expect (c : Char) : List Char → Option (List Char)
  | first :: rest => if first = c then some rest else none
  | [] => none

/-- Whether a year has a day more. -/
def isLeapYear (year : Nat) : Bool :=
  year % 4 = 0 && (year % 100 ≠ 0 || year % 400 = 0)

/-- How many days a month has. -/
def daysIn (year month : Nat) : Nat :=
  if month = 2 then (if isLeapYear year then 29 else 28)
  else if [4, 6, 9, 11].contains month then 30
  else 31

/-- Passes over a date. -/
def date (text : List Char) : Option (List Char) := do
  let (century, rest) ← twoDigits 0 99 text
  let (year, rest) ← twoDigits 0 99 rest
  let (month, rest) ← twoDigits 1 12 (← expect '-' rest)
  let (day, rest) ← twoDigits 1 31 (← expect '-' rest)
  let year := 100 * century + year
  if 1 ≤ year && day ≤ daysIn year month then return rest else none

/-- Passes over the fraction of a second, if there is one. -/
def skipFraction : List Char → List Char
  | '.' :: rest =>
    let digits := rest.takeWhile isDigit
    if digits.isEmpty then '.' :: rest else rest.drop digits.length
  | text => text

/-- Passes over a time of day. -/
def timeOfDay (text : List Char) : Option (List Char) := do
  let (_, rest) ← twoDigits 0 23 text
  let (_, rest) ← twoDigits 0 59 (← expect ':' rest)
  let (_, rest) ← twoDigits 0 59 (← expect ':' rest)
  return skipFraction rest

/-- Passes over hours and minutes. -/
def hoursAndMinutes (text : List Char) : Option (List Char) := do
  let (_, rest) ← twoDigits 0 23 text
  let (_, rest) ← twoDigits 0 59 (← expect ':' rest)
  return rest

/-- Passes over the offset of a time, if there is one. -/
def skipOffset (text : List Char) : List Char :=
  match text with
  | c :: rest =>
    if c == 'Z' || c == 'z' then rest
    else if c == '+' || c == '-' then (hoursAndMinutes rest).getD text
    else text
  | [] => []

/-- Reads a date, a time, or both. -/
def moment (text : List Char) : Reading Setting :=
  match date text with
  | some rest =>
    match rest with
    | c :: after =>
      match if c == 'T' || c == 't' || c == ' ' then timeOfDay after else none with
      | some rest => some (.moment .dateAndTime, skipOffset rest)
      | none => some (.moment .date, rest)
    | [] => some (.moment .date, [])
  | none => (timeOfDay text).map fun rest => (.moment .time, rest)

/-! ## Numbers -/

/-- Reads digits in groups. -/
def digits (digit : Char → Bool) (text : List Char) : Reading (List Char) :=
  let length := groups digit text
  if length = 0 then none else some (ungrouped (text.take length), text.drop length)

/-- Reads a number with the sign of a base. -/
def basedNumber : List Char → Reading Setting
  | '0' :: 'x' :: rest => finish 16 (digits isHexDigit rest)
  | '0' :: 'o' :: rest => finish 8 (digits isOctalDigit rest)
  | '0' :: 'b' :: rest => finish 2 (digits isBinaryDigit rest)
  | _ => none
where
  /-- The digits that have been read as a number. -/
  finish (base : Nat) (found : Reading (List Char)) : Reading Setting :=
    found.map fun (digits, rest) => (.integer (valueOf base digits), rest)

/-- The sign that a text begins with, and what follows it; true for a minus. -/
def sign : List Char → Bool × List Char
  | '-' :: rest => (true, rest)
  | '+' :: rest => (false, rest)
  | text => (false, text)

/-- Reads the digits before the point: a zero, or digits that begin with another one. -/
def wholeDigits : List Char → Reading (List Char)
  | '0' :: rest => some (['0'], rest)
  | text => digits isDigit text

/-- Reads the digits after the point; there are none without a point. -/
def fractionDigits (text : List Char) : List Char × List Char :=
  match text with
  | '.' :: rest => (digits isDigit rest).getD ([], text)
  | _ => ([], text)

/-- Reads an exponent, if there is one. -/
def exponent (text : List Char) : Option Int × List Char :=
  match text with
  | c :: rest =>
    if c == 'e' || c == 'E' then
      let (negative, rest) := sign rest
      match digits isDigit rest with
      | some (found, rest) =>
        let size : Int := valueOf 10 found
        (some (if negative then -size else size), rest)
      | none => (none, text)
    else (none, text)
  | [] => (none, [])

/-- A number with its sign. -/
def signed (negative : Bool) (size : Nat) : Int :=
  if negative then -(size : Int) else size

/-- The first number that is too large to be finite: halfway above the largest one that is. -/
def infinityBound : Nat := Nat.pow 2 1024 - Nat.pow 2 970

/--
The value of digits times a power of ten.  Numbers are finite or infinite as those of double
precision are, and so small ones are zero.
-/
def floating (negative : Bool) (digits : List Char) (power : Int) : Setting :=
  let size := valueOf 10 digits
  let top := ((digits.dropWhile (· == '0')).length : Int) + power
  if size = 0 || top < -330 then .decimal 0 0
  else if 310 < top then .notFinite
  else
    let numerator := size * powerOfTen power.toNat
    let scale := (-power).toNat
    if infinityBound * powerOfTen scale ≤ numerator then .notFinite
    else .decimal (signed negative numerator) scale

/-- Reads a decimal number. -/
def decimalNumber (text : List Char) : Option (Setting × List Char) := do
  let (negative, rest) := sign text
  let (whole, rest) ← wholeDigits rest
  let (fraction, rest) := fractionDigits rest
  let (power, rest) := exponent rest
  if fraction.isEmpty && power.isNone then
    return (.integer (signed negative (valueOf 10 whole)), rest)
  return (floating negative (whole ++ fraction) (power.getD 0 - fraction.length), rest)

/-- Reads an infinity, or what is not a number. -/
def specialNumber (text : List Char) : Reading Setting :=
  match (sign text).2 with
  | 'i' :: 'n' :: 'f' :: rest => some (.notFinite, rest)
  | 'n' :: 'a' :: 'n' :: rest => some (.notFinite, rest)
  | _ => none

/-- Reads a moment or a number. -/
def scalar (text : List Char) : Reading Setting :=
  moment text <|> basedNumber text <|> decimalNumber text <|> specialNumber text

end JupiterMigration.Toml
