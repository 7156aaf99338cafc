import JupiterMigration.ExpectedException.ClassMigration
import JupiterMigration.Proofs.Tokens
import Mathlib.Data.List.Nodup
import Mathlib.Data.List.Perm.Subperm

/-!
# Fresh names

A fresh name is the base, or else the base with the least number from one on that gives a name that
is not taken (`IsFresh`).  There is exactly one such name (`IsFresh.eq`), and it is found
(`isFresh_freshName`): of one more numbered names than there are taken ones, some is not taken.
-/

namespace JupiterMigration

namespace ExpectedException

/-- The base with a number. -/
def numberedName (base : String) (number : Nat) : String :=
  base ++ toString number

/-- The base if it is not taken, or else the base with the least number that is not taken. -/
inductive IsFresh (base : String) (taken : List String) : String → Prop
  | base (free : base ∉ taken) : IsFresh base taken base
  | numbered {number : Nat}
      (isTaken : base ∈ taken)
      (positive : 1 ≤ number)
      (free : numberedName base number ∉ taken)
      (least : ∀ smaller, 1 ≤ smaller → smaller < number → numberedName base smaller ∈ taken) :
      IsFresh base taken (numberedName base number)

variable {base name other : String} {taken others : List String}

namespace IsFresh

theorem notMem (fresh : IsFresh base taken name) : name ∉ taken := by
  cases fresh with
  | base free => exact free
  | numbered _ _ free _ => exact free

/-- Which name is fresh depends on nothing but which names are taken. -/
theorem congr
    (fresh : IsFresh base taken name)
    (same : ∀ word, word ∈ taken ↔ word ∈ others) : IsFresh base others name := by
  cases fresh with
  | base free => exact .base (mt (same _).mpr free)
  | numbered isTaken positive free least =>
      exact .numbered ((same _).mp isTaken) positive (mt (same _).mpr free)
        fun smaller isPositive lt => (same _).mp (least smaller isPositive lt)

/-- There is only one fresh name. -/
theorem eq (fresh : IsFresh base taken name) (alsoFresh : IsFresh base taken other) :
    name = other := by
  cases fresh with
  | base free =>
      cases alsoFresh with
      | base _ => rfl
      | numbered isTaken _ _ _ => exact absurd isTaken free
  | @numbered number isTaken positive free least =>
      cases alsoFresh with
      | base free => exact absurd isTaken free
      | @numbered otherNumber _ otherPositive otherFree otherLeast =>
          rcases Nat.lt_trichotomy number otherNumber with lt | rfl | gt
          · exact absurd (otherLeast number positive lt) free
          · rfl
          · exact absurd (least otherNumber otherPositive gt) otherFree

end IsFresh

/-! ## Numbered names -/

theorem numberedName_injective (base : String) : Function.Injective (numberedName base) := by
  intro number other same
  have digits_eq : (toString number).toList = (toString other).toList := by
    have characters := congrArg String.toList same
    simp only [numberedName, String.toList_append] at characters
    exact List.append_cancel_left characters
  have value_eq := congrArg (fun digits => Nat.ofDigitChars 10 digits 0) digits_eq
  simpa [Nat.toString_eq_ofList_toDigits] using value_eq

/-- The numbered names that are tried. -/
def candidates (base : String) (count : Nat) : List String :=
  (List.range count).map fun index => numberedName base (index + 1)

theorem nodup_candidates (base : String) (count : Nat) : (candidates base count).Nodup := by
  have distinct : Function.Injective fun index => numberedName base (index + 1) :=
    fun index other same => Nat.succ.inj (numberedName_injective base same)
  exact (List.nodup_map_iff distinct).mpr List.nodup_range

/-- Of one more candidates than there are taken names, some is not taken. -/
theorem exists_candidate_notMem (base : String) (taken : List String) :
    ∃ name ∈ candidates base (taken.length + 1), name ∉ taken := by
  by_contra noneFree
  have allTaken : candidates base (taken.length + 1) ⊆ taken := fun name isCandidate =>
    by_contra fun free => noneFree ⟨name, isCandidate, free⟩
  have count_le := ((nodup_candidates base (taken.length + 1)).subperm allTaken).length_le
  simp only [candidates, List.length_map, List.length_range] at count_le
  omega

/-- The first candidate that is not taken has the least number. -/
theorem isFresh_of_find?
    {count : Nat}
    (isTaken : base ∈ taken)
    (found : (candidates base count).find? (fun name => !taken.contains name) = some name) :
    IsFresh base taken name := by
  obtain ⟨notTaken, position, inside, rfl, passed⟩ := List.find?_eq_some_iff_getElem.mp found
  simp only [candidates, List.getElem_map, List.getElem_range] at notTaken passed ⊢
  refine .numbered isTaken (Nat.le_add_left 1 position) (by simpa using notTaken)
    fun smaller positive lt => ?_
  have isPassed := passed (smaller - 1) (by omega)
  rw [Nat.sub_add_cancel positive] at isPassed
  simpa using isPassed

theorem freshName_eq (base : String) (taken : List String) :
    freshName base taken =
      if taken.contains base then
        ((candidates base (taken.length + 1)).find? fun name => !taken.contains name).getD base
      else base := rfl

/-- A fresh name is found. -/
theorem isFresh_freshName (base : String) (taken : List String) :
    IsFresh base taken (freshName base taken) := by
  rw [freshName_eq]
  split
  · next isTaken =>
      obtain ⟨free, isCandidate, notTaken⟩ := exists_candidate_notMem base taken
      obtain ⟨name, found⟩ := Option.isSome_iff_exists.mp
        (List.find?_isSome (p := fun name => !taken.contains name).mpr
          ⟨free, isCandidate, by simpa using notTaken⟩)
      rw [found]
      exact isFresh_of_find? (List.contains_iff_mem.mp isTaken) found
  · next free => exact .base (by simpa using free)

/-- The fresh names for two sets of taken names are the same if the sets are. -/
theorem freshName_congr (same : ∀ word, word ∈ taken ↔ word ∈ others) :
    freshName base taken = freshName base others :=
  ((isFresh_freshName base taken).congr same).eq (isFresh_freshName base others)

/-! ## Fresh names as words -/

theorem isNameContinue_of_mem_toString
    {number : Nat}
    {c : Char}
    (inside : c ∈ (toString number).toList) : Text.isNameContinue c = true := by
  rw [Nat.toString_eq_ofList_toDigits, String.toList_ofList] at inside
  have isDigit : c.isDigit = true := Nat.isDigit_of_mem_toDigits (by decide) (by decide) inside
  have digit : Text.isDigit c = true := by
    simpa [Char.isDigit, Text.isDigit, Char.le_def] using isDigit
  simp [Text.isNameContinue, digit]

/-- A fresh name is a word if the base is one. -/
theorem IsFresh.isWord
    {base name : String}
    {taken : List String}
    (fresh : IsFresh base taken name)
    (spelled : Java.isWord base = true) : Java.isWord name = true := by
  cases fresh with
  | base => exact spelled
  | @numbered number =>
      obtain ⟨c, more, base_eq, starts, continues⟩ := Java.isWord_iff.mp spelled
      refine Java.isWord_iff.mpr
        ⟨c, more ++ (toString number).toList, ?_, starts, fun d inside => ?_⟩
      · rw [numberedName, String.toList_append, base_eq, List.cons_append]
      · exact (List.mem_append.mp inside).elim (continues d) isNameContinue_of_mem_toString

end ExpectedException

end JupiterMigration
