/-!
# Aligning two lists of lines

`align old new` cuts two lists of lines into segments that they share and segments that differ.  The
longest run of lines that both lists hold is shared, the first one if there are several, and what
stands before it and after it is aligned in the same way.

Lines that a long list repeats very often say little about where it has been changed.  A run is
not looked for by them, but it is extended by them.

The segments hold both lists, in order (`oldLines_align`, `newLines_align`).
-/

namespace JupiterMigration.Difference

/-- A part of an alignment: lines of both lists, or lines of the one in place of the other's. -/
inductive Segment where
  | shared (lines : List String)
  | changed (old new : List String)
  deriving DecidableEq, Repr

namespace Segment

/-- The lines of the old list. -/
def oldLines : Segment → List String
  | shared lines => lines
  | changed old _ => old

/-- The lines of the new list. -/
def newLines : Segment → List String
  | shared lines => lines
  | changed _ new => new

end Segment

/-- A run of shared lines: where it starts in both lists, and how long it is. -/
structure SharedRun where
  oldStart : Nat
  newStart : Nat
  size : Nat
  deriving DecidableEq, Repr

/-- How many lines two lists have in common at their beginning. -/
def sharedLength : List String → List String → Nat
  | a :: as, b :: bs => if a = b then sharedLength as bs + 1 else 0
  | _, _ => 0

/-- The lengths of the runs that end with a given line of the old list, for every new line. -/
def runLengths (telling : String → Bool) (line : String) (new : List String) (before : List Nat) :
    List Nat :=
  if telling line then
    List.zipWith (fun candidate length => if candidate = line then length + 1 else 0) new
      (0 :: before)
  else new.map fun _ => 0

/-- The longest of a run and those that end at a place of the old list; the first one in a tie. -/
def longerRun (oldEnd : Nat) : Nat → List Nat → SharedRun → SharedRun
  | _, [], best => best
  | newEnd, length :: rest, best =>
    longerRun oldEnd (newEnd + 1) rest
      (if best.size < length then ⟨oldEnd + 1 - length, newEnd + 1 - length, length⟩ else best)

/--
The longest run of telling lines that ends at a place of the old list or later, or the given one.
-/
def longestFrom (telling : String → Bool) (new : List String) :
    Nat → List String → List Nat → SharedRun → SharedRun
  | _, [], _, best => best
  | oldEnd, line :: rest, before, best =>
    let lengths := runLengths telling line new before
    longestFrom telling new (oldEnd + 1) rest lengths (longerRun oldEnd 0 lengths best)

/-- The run with the lines around it that the lists share as well. -/
def SharedRun.extend (old new : List String) (run : SharedRun) : SharedRun :=
  let back := sharedLength (old.take run.oldStart).reverse (new.take run.newStart).reverse
  let ahead :=
    sharedLength (old.drop (run.oldStart + run.size)) (new.drop (run.newStart + run.size))
  ⟨run.oldStart - back, run.newStart - back, back + run.size + ahead⟩

/-- The longest run that two lists share; its size is zero if there is none. -/
def longestRun (telling : String → Bool) (old new : List String) : SharedRun :=
  (longestFrom telling new 0 old (new.map fun _ => 0) ⟨0, 0, 0⟩).extend old new

/-- A changed segment, unless there are no lines in it. -/
def changedSegment (old new : List String) : List Segment :=
  if old.isEmpty && new.isEmpty then [] else [.changed old new]

/-- Whether a run lies in both lists at the same lines, and there is a line in it. -/
def SharedRun.Fits (old new : List String) (run : SharedRun) : Prop :=
  0 < run.size ∧ run.oldStart + run.size ≤ old.length ∧
    (old.drop run.oldStart).take run.size = (new.drop run.newStart).take run.size

instance (old new : List String) (run : SharedRun) : Decidable (run.Fits old new) := by
  unfold SharedRun.Fits
  infer_instance

/-- The segments of two lists, cut at the longest run in them. -/
def cut (telling : String → Bool) (old new : List String) : List Segment :=
  let run := longestRun telling old new
  if _fits : run.Fits old new then
    cut telling (old.take run.oldStart) (new.take run.newStart) ++
      .shared ((old.drop run.oldStart).take run.size) ::
        cut telling (old.drop (run.oldStart + run.size)) (new.drop (run.newStart + run.size))
  else changedSegment old new
  termination_by old.length
  decreasing_by
    · have fits : (longestRun telling old new).Fits old new := _fits
      have ⟨positive, bounded, _⟩ := fits
      simp only [List.length_take]
      omega
    · have fits : (longestRun telling old new).Fits old new := _fits
      have ⟨positive, bounded, _⟩ := fits
      simp only [List.length_drop]
      omega

/-- The segments with neighbours that are both shared made one. -/
def joined : List Segment → List Segment
  | [] => []
  | .changed old new :: rest => .changed old new :: joined rest
  | .shared lines :: rest =>
    match joined rest with
    | .shared more :: others => .shared (lines ++ more) :: others
    | others => .shared lines :: others

/-- Whether a line tells where a list has been changed: a short list, or not very often in it. -/
def isTelling (new : List String) (line : String) : Bool :=
  new.length < 200 || new.count line ≤ new.length / 100 + 1

/-- The alignment of two lists of lines. -/
def align (old new : List String) : List Segment :=
  joined (cut (isTelling new) old new)

/-! ## An alignment holds both lists -/

/-- A changed segment holds the old lines. -/
theorem oldLines_changedSegment (old new : List String) :
    (changedSegment old new).flatMap Segment.oldLines = old := by
  unfold changedSegment
  split
  · simp_all
  · simp [Segment.oldLines]

/-- A changed segment holds the new lines. -/
theorem newLines_changedSegment (old new : List String) :
    (changedSegment old new).flatMap Segment.newLines = new := by
  unfold changedSegment
  split
  · simp_all
  · simp [Segment.newLines]

/-- A list is what stands before a run, the run, and what stands after it. -/
theorem take_append_run (start size : Nat) (lines : List String) :
    lines.take start ++ ((lines.drop start).take size ++ lines.drop (start + size)) = lines := by
  rw [← List.drop_drop, List.take_append_drop, List.take_append_drop]

/-- Cutting keeps the old lines. -/
theorem oldLines_cut (telling : String → Bool) (old new : List String) :
    (cut telling old new).flatMap Segment.oldLines = old := by
  fun_induction cut telling old new with
  | case1 old new run fits before after =>
    simp only [List.flatMap_append, List.flatMap_cons, Segment.oldLines, before, after]
    exact take_append_run ..
  | case2 old new run fits => exact oldLines_changedSegment old new

/-- Cutting keeps the new lines. -/
theorem newLines_cut (telling : String → Bool) (old new : List String) :
    (cut telling old new).flatMap Segment.newLines = new := by
  fun_induction cut telling old new with
  | case1 old new run fits before after =>
    simp only [List.flatMap_append, List.flatMap_cons, Segment.newLines, before, after, fits.2.2]
    exact take_append_run ..
  | case2 old new run fits => exact newLines_changedSegment old new

/-- Joining keeps the old lines. -/
theorem oldLines_joined (segments : List Segment) :
    (joined segments).flatMap Segment.oldLines = segments.flatMap Segment.oldLines := by
  fun_induction joined segments with
  | case1 => rfl
  | case2 old new rest ih => simp [ih]
  | case3 lines rest more others found ih =>
    rw [found] at ih
    simp [Segment.oldLines, ← ih]
  | case4 lines rest others ih => simp [ih]

/-- Joining keeps the new lines. -/
theorem newLines_joined (segments : List Segment) :
    (joined segments).flatMap Segment.newLines = segments.flatMap Segment.newLines := by
  fun_induction joined segments with
  | case1 => rfl
  | case2 old new rest ih => simp [ih]
  | case3 lines rest more others found ih =>
    rw [found] at ih
    simp [Segment.newLines, ← ih]
  | case4 lines rest others ih => simp [ih]

/-- An alignment holds the old lines, in order. -/
theorem oldLines_align (old new : List String) :
    (align old new).flatMap Segment.oldLines = old := by
  rw [align, oldLines_joined, oldLines_cut]

/-- An alignment holds the new lines, in order. -/
theorem newLines_align (old new : List String) :
    (align old new).flatMap Segment.newLines = new := by
  rw [align, newLines_joined, newLines_cut]

end JupiterMigration.Difference
