import JupiterMigration.Difference.Alignment
import JupiterMigration.Text.Lines

/-!
# Differences between two texts

A difference shows the changed lines of two texts with the shared lines around them.  Changes that
stand close together are shown in one hunk.
-/

namespace JupiterMigration.Difference

/-- How many shared lines are shown before and after a change. -/
def contextSize : Nat := 3

/-- A part of an alignment that is shown: the lines before it in both lists, and its segments. -/
structure Hunk where
  oldStart : Nat
  newStart : Nat
  segments : List Segment
  deriving DecidableEq, Repr

namespace Hunk

/-- A hunk with one more segment. -/
def push (hunk : Hunk) (segment : Segment) : Hunk :=
  { hunk with segments := hunk.segments ++ [segment] }

/-- The old lines of a hunk. -/
def oldLines (hunk : Hunk) : List String :=
  hunk.segments.flatMap Segment.oldLines

/-- The new lines of a hunk. -/
def newLines (hunk : Hunk) : List String :=
  hunk.segments.flatMap Segment.newLines

/-- Whether something changes in a hunk. -/
def changes (hunk : Hunk) : Bool :=
  hunk.segments.any fun segment => segment matches .changed _ _

/-- A hunk that begins with the last shared lines before a place in both lists. -/
def around (oldEnd newEnd : Nat) (lines : List String) : Hunk :=
  let context := lines.drop (lines.length - contextSize)
  ⟨oldEnd - context.length, newEnd - context.length,
    if context.isEmpty then [] else [.shared context]⟩

end Hunk

/--
The hunks of an alignment from a place in both lists on; the first one has begun.  Shared lines
belong to two hunks if the contexts of the changes around them do not meet, and to one otherwise.
-/
def hunksFrom (hunk : Hunk) (oldStart newStart : Nat) : List Segment → List Hunk
  | [] => [hunk]
  | [.shared lines] => [hunk.push (.shared (lines.take contextSize))]
  | .shared lines :: rest =>
    let oldEnd := oldStart + lines.length
    let newEnd := newStart + lines.length
    if 2 * contextSize < lines.length then
      hunk.push (.shared (lines.take contextSize)) ::
        hunksFrom (.around oldEnd newEnd lines) oldEnd newEnd rest
    else hunksFrom (hunk.push (.shared lines)) oldEnd newEnd rest
  | .changed old new :: rest =>
    hunksFrom (hunk.push (.changed old new)) (oldStart + old.length) (newStart + new.length) rest

/-- The hunks of an alignment. -/
def hunks : List Segment → List Hunk
  | .shared lines :: rest =>
    (hunksFrom (.around lines.length lines.length lines) lines.length lines.length rest).filter
      Hunk.changes
  | segments => (hunksFrom ⟨0, 0, []⟩ 0 0 segments).filter Hunk.changes

/-- A range of lines: the number of the first one and how many there are, unless it is one. -/
def rangeText (start size : Nat) : String :=
  if size = 1 then toString (start + 1)
  else if size = 0 then toString start ++ ",0"
  else toString (start + 1) ++ "," ++ toString size

/-- Lines with a mark in front of each. -/
def marked (mark : String) (lines : List String) : String :=
  String.join (lines.map (mark ++ ·))

/-- A segment with its lines marked. -/
def Segment.render : Segment → String
  | shared lines => marked " " lines
  | changed old new => marked "-" old ++ marked "+" new

/-- A hunk with its ranges in front. -/
def Hunk.render (hunk : Hunk) : String :=
  "@@ -" ++ rangeText hunk.oldStart hunk.oldLines.length ++
    " +" ++ rangeText hunk.newStart hunk.newLines.length ++ " @@\n" ++
    String.join (hunk.segments.map Segment.render)

/-- The difference between two named texts; nothing if there is none. -/
def render (oldName newName old new : String) : String :=
  match hunks (align (Text.lines old) (Text.lines new)) with
  | [] => ""
  | found =>
    "--- " ++ oldName ++ "\n+++ " ++ newName ++ "\n" ++ String.join (found.map Hunk.render)

end JupiterMigration.Difference
