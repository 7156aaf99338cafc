/-!
# Occurrences of one text in another

Occurrences are found from the left and do not overlap.  `pieces` is the text between them;
replacing and splitting are read off it.
-/

namespace JupiterMigration.Text

/-- Puts a character in front of the first piece. -/
def pushFirst (c : Char) : List (List Char) → List (List Char)
  | [] => [[c]]
  | piece :: rest => (c :: piece) :: rest

/--
The pieces of a text between the occurrences of `sep`, after skipping `skip` characters.  Skipping
is how the rest of an occurrence that has begun is passed over.
-/
def piecesFrom (sep : List Char) : Nat → List Char → List (List Char)
  | _, [] => [[]]
  | skip + 1, _ :: rest => piecesFrom sep skip rest
  | 0, c :: rest =>
    if sep.isPrefixOf (c :: rest) then
      [] :: piecesFrom sep (sep.length - 1) rest
    else
      pushFirst c (piecesFrom sep 0 rest)

/-- The pieces of a text between the occurrences of a separator. -/
def pieces (sep text : List Char) : List (List Char) :=
  piecesFrom sep 0 text

/-- The parts of a text that stand between the occurrences of a separator. -/
def splitOn (text sep : String) : List String :=
  (pieces sep.toList text.toList).map String.ofList

/-- The text with every occurrence of `old` replaced by `new`. -/
def replaceAll (text old new : String) : String :=
  new.intercalate (splitOn text old)

/-- Whether one list of characters occurs in another. -/
def occursIn (part : List Char) : List Char → Bool
  | [] => part.isEmpty
  | c :: rest => part.isPrefixOf (c :: rest) || occursIn part rest

/-- Whether `part` occurs in the text. -/
def contains (text part : String) : Bool :=
  occursIn part.toList text.toList

/-- Whether the text begins with `part`. -/
def beginsWith (text part : String) : Bool :=
  part.toList.isPrefixOf text.toList

/-- The text after its last dot, or all of it. -/
def afterLastDot (text : String) : String :=
  (splitOn text ".").getLastD text

/-- The text before its last dot, or nothing when it has none. -/
def beforeLastDot (text : String) : String :=
  ".".intercalate (splitOn text ".").dropLast

/-- How often a character occurs in a text. -/
def count (c : Char) (text : String) : Nat :=
  text.toList.count c

/-- There is always a piece. -/
theorem piecesFrom_ne_nil (sep : List Char) (skip : Nat) (text : List Char) :
    piecesFrom sep skip text ≠ [] := by
  induction text generalizing skip with
  | nil => simp [piecesFrom]
  | cons c rest ih =>
    cases skip with
    | zero =>
      simp only [piecesFrom]
      split
      · simp
      · cases h : piecesFrom sep 0 rest with
        | nil => exact absurd h (ih 0)
        | cons piece more => simp [pushFirst]
    | succ skip => simpa [piecesFrom] using ih skip

/-- Skipping characters leaves the pieces of what follows them. -/
theorem piecesFrom_skip (sep : List Char) (skip : Nat) (text : List Char) :
    piecesFrom sep skip text = piecesFrom sep 0 (text.drop skip) := by
  induction text generalizing skip with
  | nil => cases skip <;> rfl
  | cons c rest ih =>
    cases skip with
    | zero => rfl
    | succ skip => exact ih skip

end JupiterMigration.Text
