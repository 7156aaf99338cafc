import Mathlib.Data.List.DropRight
import Mathlib.Data.List.Forall2

/-!
# The value of a text block

The value of a text block does not depend on the margin that all of its lines have that count: those
that are not blank, and the last one.  If these lines move by the same number of columns, the value
stays the same (`TextBlock.Shifts.value_eq`).
-/

namespace JupiterMigration

/--
A text block: the white space behind its opening quotes, its lines but for the last, and what the
last one holds before the closing quotes.
-/
structure TextBlock where
  opening : List Char
  inner : List (List Char)
  last : List Char
  deriving DecidableEq, Repr

namespace TextBlock

/-- White space within a line, or the carriage return at its end. -/
def isBlank (c : Char) : Bool :=
  c == ' ' || c == '\t' || c == '\x0c' || c == '\r'

/-- The quotes around a text block. -/
def quotes : List Char := ['"', '"', '"']

/-- The lines of a text block, each after a line feed. -/
def linesText (lines : List (List Char)) : List Char :=
  lines.flatMap ('\n' :: ·)

/-- The text of a text block. -/
def text (block : TextBlock) : List Char :=
  quotes ++ (block.opening ++ (linesText block.inner ++ '\n' :: (block.last ++ quotes)))

/-- The parts of a text block hold no line feeds. -/
structure WellFormed (block : TextBlock) : Prop where
  opening : '\n' ∉ block.opening
  inner : ∀ line ∈ block.inner, '\n' ∉ line
  last : '\n' ∉ block.last

/-- The lines that count for the margin: those that are not blank, and the last one. -/
def counted (block : TextBlock) : List (List Char) :=
  block.inner.filter (!·.all isBlank) ++ [block.last]

/-- The number of blanks that a line begins with. -/
def width (line : List Char) : Nat :=
  (line.takeWhile isBlank).length

/-- The least number of blanks that a line that counts begins with. -/
def margin (block : TextBlock) : Nat :=
  ((block.inner.filter (!·.all isBlank)).map width).foldr min (width block.last)

/-- A line without the margin and without blanks at its end. -/
def stripped (margin : Nat) (line : List Char) : List Char :=
  (line.drop margin).rdropWhile isBlank

/-- The value of a text block, line by line. -/
def value (block : TextBlock) : List (List Char) :=
  (block.inner ++ [block.last]).map (stripped block.margin)

/-! ## Lines that move by the same number of columns -/

/-- A line that moves to the right, where the columns from some column on are concerned. -/
structure LineShifts (column distance : Nat) (line other : List Char) : Prop where
  column_le : column ≤ width line
  width_eq : width other = width line + distance
  drop_eq : ∀ count, column ≤ count → other.drop (count + distance) = line.drop count

/-- Lines move together with the blanks that they begin with. -/
theorem lineShifts_append
    {front other : List Char}
    {distance : Nat}
    (frontBlank : ∀ c ∈ front, isBlank c = true)
    (otherBlank : ∀ c ∈ other, isBlank c = true)
    (length_eq : other.length = front.length + distance)
    (rest : List Char) : LineShifts front.length distance (front ++ rest) (other ++ rest) where
  column_le := by
    rw [width, List.takeWhile_append_of_pos frontBlank, List.length_append]
    exact Nat.le_add_right _ _
  width_eq := by
    rw [width, width, List.takeWhile_append_of_pos frontBlank,
      List.takeWhile_append_of_pos otherBlank, List.length_append, List.length_append, length_eq]
    omega
  drop_eq := by
    intro count le
    rw [List.drop_append, List.drop_append, List.drop_eq_nil_of_le (by omega),
      List.drop_eq_nil_of_le le, length_eq]
    congr 2
    omega

/-- A block whose lines that count move by the same number of columns. -/
structure Shifts (column distance : Nat) (block other : TextBlock) : Prop where
  inner : List.Forall₂ (fun line new => line.all isBlank = true ∧ new.all isBlank = true ∨
    line.all isBlank = false ∧ new.all isBlank = false ∧ LineShifts column distance line new)
    block.inner other.inner
  last : LineShifts column distance block.last other.last

variable {column distance : Nat} {block other : TextBlock}

theorem Shifts.margin_eq (shifts : Shifts column distance block other) :
    other.margin = block.margin + distance ∧ column ≤ block.margin := by
  obtain ⟨opening, inner, last⟩ := block
  obtain ⟨otherOpening, otherInner, otherLast⟩ := other
  obtain ⟨each, ofLast⟩ := shifts
  unfold margin
  dsimp only at each ofLast ⊢
  induction each with
  | nil => exact ⟨ofLast.width_eq, ofLast.column_le⟩
  | cons head _ inductionHypothesis =>
      obtain ⟨least_eq, column_le⟩ := inductionHypothesis
      rcases head with ⟨blank, newBlank⟩ | ⟨counts, newCounts, moves⟩
      · rw [List.filter_cons_of_neg (by simpa using newBlank),
          List.filter_cons_of_neg (by simpa using blank)]
        exact ⟨least_eq, column_le⟩
      · rw [List.filter_cons_of_pos (by simpa using newCounts),
          List.filter_cons_of_pos (by simpa using counts), List.map_cons, List.map_cons,
          List.foldr_cons, List.foldr_cons, least_eq, moves.width_eq, Nat.add_min_add_right]
        exact ⟨rfl, Nat.le_min.mpr ⟨moves.column_le, column_le⟩⟩

theorem stripped_eq_nil
    {line : List Char}
    (blank : line.all isBlank = true)
    (margin : Nat) : stripped margin line = [] := by
  rw [stripped, List.rdropWhile_eq_nil_iff]
  exact fun c inside => List.all_eq_true.mp blank c (List.mem_of_mem_drop inside)

/-- The value of a block is the same if the lines that count move by the same number of columns. -/
theorem Shifts.value_eq (shifts : Shifts column distance block other) :
    other.value = block.value := by
  obtain ⟨margin_eq, column_le⟩ := shifts.margin_eq
  have kept {line new : List Char} (moves : LineShifts column distance line new) :
      stripped other.margin new = stripped block.margin line := by
    rw [stripped, stripped, margin_eq, moves.drop_eq _ column_le]
  have inner : block.inner.map (stripped block.margin) =
      other.inner.map (stripped other.margin) := by
    rw [← List.forall₂_eq_eq_eq, List.forall₂_map_left_iff, List.forall₂_map_right_iff]
    refine shifts.inner.imp fun line new related => ?_
    rcases related with ⟨blank, newBlank⟩ | ⟨-, -, moves⟩
    · rw [stripped_eq_nil blank, stripped_eq_nil newBlank]
    · exact (kept moves).symm
  unfold value
  rw [List.map_append, List.map_append, List.map_singleton, List.map_singleton, kept shifts.last,
    inner]

end TextBlock

end JupiterMigration
