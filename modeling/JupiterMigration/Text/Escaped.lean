import JupiterMigration.Text.Blank
import JupiterMigration.Text.Digits
import JupiterMigration.Text.Quoted

/-!
# Texts written with escapes

A text that takes the place of another one may be written with escapes.  A backslash begins an
escape: a letter for a character without a visible form, the octal number of a character, or a
reference to the text that is replaced.  A backslash before anything but a letter or a digit stands
for itself.

`expand` reads such a text.  A text without a backslash stands for itself (`expand_of_not_mem`).
-/

namespace JupiterMigration.Text

/-- What is wrong with an escape. -/
inductive EscapeProblem where
  /-- Nothing follows a backslash. -/
  | unfinished
  | unknownLetter (letter : Char)
  | numberTooLarge (digits : List Char)
  /-- A reference to a part of what is replaced. -/
  | noSuchPart (number : Nat)
  | nameNotBegun
  | nameMissing
  | nameNotEnded
  | badName (name : List Char)
  | unknownName (name : List Char)
  deriving DecidableEq, Repr

/-- An escape of a text that cannot be read, by its position there. -/
structure EscapeFault where
  text : String
  position : Nat
  problem : EscapeProblem
  deriving DecidableEq, Repr

/-! ## Marks -/

/-- A character, or a backslash with the character after it. -/
inductive Mark where
  | plain (c : Char)
  | escape (c : Char)
  deriving DecidableEq, Repr

namespace Mark

/-- The characters of a mark. -/
def chars : Mark → List Char
  | plain c => [c]
  | escape c => ['\\', c]

/-- The digit that a mark is, if it is one of the given kind. -/
def digit? (digit : Char → Bool) : Mark → Option Char
  | plain c => if digit c then some c else none
  | escape _ => none

end Mark

/-- The characters of marks in a row. -/
def charsOf (marks : List Mark) : List Char :=
  marks.flatMap Mark.chars

/-- The marks of a text, without a backslash at its end. -/
def marks : List Char → List Mark
  | '\\' :: c :: rest => .escape c :: marks rest
  | c :: rest => if c = '\\' then [] else .plain c :: marks rest
  | [] => []

/-! ## Escapes -/

/-- How many further marks belong to an escape, and its characters or what is wrong with it. -/
structure EscapeReading where
  further : Nat
  /-- The characters; or a problem, and how far before the end of the escape it lies. -/
  result : Except (EscapeProblem × Nat) (List Char)

/-- The number that a reference is written as. -/
def referenceNumber? (name : List Char) : Option Nat :=
  let (negative, digits) :=
    match dropTail isBlank (name.dropWhile isBlank) with
    | '-' :: rest => (true, rest)
    | '+' :: rest => (false, rest)
    | digits => (false, digits)
  let number := valueOf 10 (ungrouped digits)
  if digits.isEmpty || groups isDigit digits < digits.length || (negative && number != 0) then none
  else some number

/-- Whether a reference is written as a name. -/
def isPartName : List Char → Bool
  | [] => false
  | first :: rest =>
    isNameStart first && (first :: rest).all fun c => isNameContinue c && c != '$' && c != '\u00a2'

/-- Reads a reference to the replaced text, after its letter. -/
def readReference (replaced : List Char) : List Mark → EscapeReading
  | .plain '<' :: rest =>
    let inside := rest.takeWhile (· ≠ .plain '>')
    let name := charsOf inside
    if inside.length = rest.length then
      ⟨rest.length + 1,
        .error (if name.isEmpty then (.nameMissing, 0) else (.nameNotEnded, name.length))⟩
    else
      ⟨inside.length + 2,
        if name.isEmpty then .error (.nameMissing, 1)
        else if isPartName name then .error (.unknownName name, name.length + 1)
        else
          match referenceNumber? name with
          | some 0 => .ok replaced
          | some number => .error (.noSuchPart number, name.length + 1)
          | none => .error (.badName name, name.length + 1)⟩
  | _ => ⟨0, .error (.nameNotBegun, 0)⟩

/-- Reads the octal number of a character, after the digit zero. -/
def readZero (rest : List Mark) : EscapeReading :=
  let digits := ((rest.take 2).map (Mark.digit? isOctalDigit)).takeWhile Option.isSome
  let number := valueOf 8 (digits.filterMap id)
  ⟨digits.length, .ok [Char.ofNat number]⟩

/-- Reads the octal number of a character or the number of a part, after a first digit. -/
def readNumber (first : Char) (rest : List Mark) : EscapeReading :=
  match rest with
  | .plain second :: more =>
    let third := more.head?.bind (Mark.digit? isOctalDigit)
    if isDigit second then
      match third with
      | some third =>
        if isOctalDigit first && isOctalDigit second then
          let digits := [first, second, third]
          let number := valueOf 8 digits
          ⟨2, if 0o377 < number then .error (.numberTooLarge digits, 4)
            else .ok [Char.ofNat number]⟩
        else ⟨1, .error (.noSuchPart (valueOf 10 [first, second]), 2)⟩
      | none => ⟨1, .error (.noSuchPart (valueOf 10 [first, second]), 2)⟩
    else ⟨0, .error (.noSuchPart (digitValue first), 1)⟩
  | _ => ⟨0, .error (.noSuchPart (digitValue first), 1)⟩

/-- The character that a letter stands for. -/
def escapedChar? : Char → Option Char
  | 'a' => some '\x07'
  | 'b' => some '\x08'
  | 'f' => some '\x0c'
  | 'n' => some '\n'
  | 'r' => some '\r'
  | 't' => some '\t'
  | 'v' => some '\x0b'
  | '\\' => some '\\'
  | _ => none

/-- Reads an escape, after the character behind the backslash. -/
def readEscape (replaced : List Char) (c : Char) (rest : List Mark) : EscapeReading :=
  if c = 'g' then readReference replaced rest
  else if c = '0' then readZero rest
  else if isDigit c then readNumber c rest
  else
    match escapedChar? c with
    | some meant => ⟨0, .ok [meant]⟩
    | none =>
      ⟨0, if isAsciiLetter c then .error (.unknownLetter c, 2) else .ok ['\\', c]⟩

/-! ## Whole texts -/

/--
The characters that marks stand for after skipping some, or what is wrong with them and where.  They
end a text of the given length; `cut` tells that a backslash follows the last one.
-/
def expandFrom (replaced : List Char) (length : Nat) (cut : Bool) :
    Nat → List Mark → Except (EscapeProblem × Nat) (List Char)
  | _, [] => .ok []
  | skip + 1, _ :: rest => expandFrom replaced length cut skip rest
  | 0, mark :: rest =>
    let reading : EscapeReading :=
      match mark with
      | .plain c => ⟨0, .ok [c]⟩
      | .escape c => readEscape replaced c rest
    let left := rest.drop reading.further
    if left.isEmpty && cut then .error (.unfinished, length - 1)
    else
      match reading.result with
      | .error (problem, before) =>
        .error (problem, length - (charsOf left).length - (if cut then 1 else 0) - before)
      | .ok chars => (expandFrom replaced length cut reading.further rest).map (chars ++ ·)

/-- The text that is put in place of `replaced`. -/
def expand (replaced text : String) : Except EscapeFault String :=
  let chars := text.toList
  let read := marks chars
  let cut := decide ((charsOf read).length < chars.length)
  match expandFrom replaced.toList chars.length cut 0 read with
  | .ok written => .ok (String.ofList written)
  | .error (problem, position) => .error ⟨text, position, problem⟩

/-- What is wrong, in words. -/
def EscapeProblem.message : EscapeProblem → String
  | unfinished => "bad escape (end of pattern)"
  | unknownLetter letter => "bad escape \\" ++ letter.toString
  | numberTooLarge digits =>
    "octal escape value \\" ++ String.ofList digits ++ " outside of range 0-0o377"
  | noSuchPart number => "invalid group reference " ++ toString number
  | nameNotBegun => "missing <"
  | nameMissing => "missing group name"
  | nameNotEnded => "missing >, unterminated name"
  | badName name => "bad character in group name " ++ quoted (String.ofList name)
  | unknownName name => "unknown group name " ++ quoted (String.ofList name)

/-- What is wrong with a text, and where; an unknown name is named without its place. -/
def EscapeFault.message (fault : EscapeFault) : String :=
  let before := fault.text.toList.take fault.position
  let line := before.count '\n' + 1
  let column := (before.reverse.takeWhile (· != '\n')).length + 1
  fault.problem.message ++
    match fault.problem with
    | .unknownName _ => ""
    | _ =>
      " at position " ++ toString fault.position ++
        if fault.text.toList.contains '\n' then
          " (line " ++ toString line ++ ", column " ++ toString column ++ ")"
        else ""

/-- Without a backslash, marks are characters. -/
theorem marks_of_not_mem {text : List Char} (unescaped : '\\' ∉ text) :
    marks text = text.map .plain := by
  induction text with
  | nil => rfl
  | cons c rest ih =>
    simp only [List.mem_cons, not_or] at unescaped
    have differs := Ne.symm unescaped.1
    have tail := ih unescaped.2
    cases rest <;> simp_all [marks]

/-- Characters that are marks have themselves as characters. -/
theorem charsOf_map_plain (text : List Char) : charsOf (text.map .plain) = text := by
  induction text with
  | nil => rfl
  | cons c rest ih => simpa [charsOf, Mark.chars] using ih

/-- Marks that are characters stand for themselves. -/
theorem expandFrom_map_plain (replaced : List Char) (length : Nat) (text : List Char) :
    expandFrom replaced length false 0 (text.map .plain) = .ok text := by
  induction text with
  | nil => rfl
  | cons c rest ih => simp [expandFrom, ih, Except.map]

/-- A text without a backslash stands for itself. -/
theorem expand_of_not_mem (replaced : String) {text : String} (unescaped : '\\' ∉ text.toList) :
    expand replaced text = .ok text := by
  simp [expand, marks_of_not_mem unescaped, charsOf_map_plain, expandFrom_map_plain]

end JupiterMigration.Text
