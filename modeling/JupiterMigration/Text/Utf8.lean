import JupiterMigration.Text.Quoted

/-!
# Texts as bytes

Texts are stored in UTF-8.  `decode` reads them back, and `decode_encode` says that it loses
nothing.  Of bytes that are no text, `firstFault` finds the first place where no character begins.
-/

namespace JupiterMigration.Text

/-- Why no character begins at a place. -/
inductive Utf8Problem where
  | invalidStart
  | invalidContinuation
  | unexpectedEnd
  deriving DecidableEq, Repr

/-- The wording of a problem. -/
def Utf8Problem.message : Utf8Problem → String
  | invalidStart => "invalid start byte"
  | invalidContinuation => "invalid continuation byte"
  | unexpectedEnd => "unexpected end of data"

/-- A place where no character begins. -/
structure Utf8Fault where
  position : Nat
  /-- The bytes that a character could begin with, or the one that none begins with. -/
  bytes : List UInt8
  problem : Utf8Problem
  deriving DecidableEq, Repr

/-- The wording of a fault. -/
def Utf8Fault.message (fault : Utf8Fault) : String :=
  let place :=
    match fault.bytes with
    | [byte] =>
      "byte 0x" ++ String.ofList (paddedHex 2 byte.toNat) ++ " in position " ++
        toString fault.position
    | bytes =>
      "bytes in position " ++ toString fault.position ++ "-" ++
        toString (fault.position + bytes.length - 1)
  "'utf-8' codec can't decode " ++ place ++ ": " ++ fault.problem.message

/-- The ranges of the bytes that follow the first byte of a character. -/
def continuationRanges (first : UInt8) : Option (List (UInt8 × UInt8)) :=
  if first < 0x80 then some []
  else if first < 0xC2 then none
  else if first < 0xE0 then some [(0x80, 0xBF)]
  else if first == 0xE0 then some [(0xA0, 0xBF), (0x80, 0xBF)]
  else if first == 0xED then some [(0x80, 0x9F), (0x80, 0xBF)]
  else if first < 0xF0 then some [(0x80, 0xBF), (0x80, 0xBF)]
  else if first == 0xF0 then some [(0x90, 0xBF), (0x80, 0xBF), (0x80, 0xBF)]
  else if first < 0xF4 then some [(0x80, 0xBF), (0x80, 0xBF), (0x80, 0xBF)]
  else if first == 0xF4 then some [(0x80, 0x8F), (0x80, 0xBF), (0x80, 0xBF)]
  else none

/-- The bytes in front that lie in the given ranges, one after the other. -/
def continuation : List (UInt8 × UInt8) → List UInt8 → List UInt8
  | (low, high) :: ranges, byte :: rest =>
    if low ≤ byte && byte ≤ high then byte :: continuation ranges rest else []
  | _, _ => []

/--
The first place from a position on where no character begins; the end, if there is no other.  The
first `skip` bytes belong to a character that has begun before.
-/
def firstFault (position : Nat) : Nat → List UInt8 → Utf8Fault
  | _, [] => ⟨position, [], .unexpectedEnd⟩
  | skip + 1, _ :: rest => firstFault (position + 1) skip rest
  | 0, first :: rest =>
    match continuationRanges first with
    | none => ⟨position, [first], .invalidStart⟩
    | some ranges =>
      let found := continuation ranges rest
      if found.length = ranges.length then firstFault (position + 1) ranges.length rest
      else if found.length = rest.length then ⟨position, first :: found, .unexpectedEnd⟩
      else ⟨position, first :: found, .invalidContinuation⟩

/-- The bytes of a text. -/
def encode (text : String) : ByteArray :=
  text.toUTF8

/-- The text that bytes stand for. -/
def decode (bytes : ByteArray) : Except Utf8Fault String :=
  match String.fromUTF8? bytes with
  | some text => .ok text
  | none => .error (firstFault 0 0 bytes.toList)

/-- What is stored is read back. -/
@[simp]
theorem decode_encode (text : String) : decode (encode text) = .ok text := by
  have found : String.fromUTF8? text.toUTF8 = some text := by
    have valid : text.toUTF8.IsValidUTF8 := text.isValidUTF8
    simp only [String.fromUTF8?, dif_pos valid]
    rfl
  simp only [decode, encode, found]

end JupiterMigration.Text
