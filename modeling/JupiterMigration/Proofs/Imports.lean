import JupiterMigration.Imports
import JupiterMigration.Proofs.Usage

/-!
# When an import goes

An import is removed only if the tree of the file does not mention what it provides
(`not_mem_namesUsed_of_removed`).  The source may still use the name where the tree does not look:
in an annotation behind a keyword, for instance.  The name is unused in the source exactly if it is
none of the overlooked ones (`unused_of_removed_iff`).
-/

namespace JupiterMigration.Imports

open SourceUnit

/-- The import of a name is removed only if the tree does not mention the simple name. -/
theorem not_mem_namesUsed_of_removed
    {name : String}
    {isStatic : Bool}
    {unit result : SourceUnit}
    {session : Session}
    (removed : ((removeIfUnused name isStatic unit).run session).1 = some result) :
    Text.afterLastDot name ∉ unit.namesUsed := by
  intro used
  unfold removeIfUnused at removed
  split at removed
  · exact absurd removed (by simp)
  · have isUsed : unit.namesUsed.contains (Text.afterLastDot name) = true := by simpa using used
    rw [if_pos isUsed] at removed
    exact absurd removed (by simp)

/-- An import on demand is removed only if the tree mentions none of the given types. -/
theorem not_mem_namesUsed_of_wildcard_removed
    {package : String}
    {types : List String}
    {unit result : SourceUnit}
    {session : Session}
    (removed : ((removeWildcardIfUnused package types unit).run session).1 = some result) :
    ∀ type ∈ types, type ∉ unit.namesUsed := by
  intro type listed used
  unfold removeWildcardIfUnused at removed
  split at removed
  · exact absurd removed (by simp)
  · have someUsed : (unit.namesUsed.filter types.contains).isEmpty = false := by
      rw [List.isEmpty_eq_false_iff_exists_mem]
      exact ⟨type, List.mem_filter.mpr ⟨used, by simpa using listed⟩⟩
    simp only [someUsed] at removed
    exact absurd removed (by simp)

/--
What a removed import has provided is unused outside the imports of the source exactly if it is not
overlooked.
-/
theorem unused_of_removed_iff
    {source : String}
    {path : Option String}
    {next : Nat}
    {result : SourceUnit × Nat}
    (parsed : parse source path next = .ok result) :
    (∀ name isStatic session unit,
      ((removeIfUnused name isStatic result.1).run session).1 = some unit →
        (Text.afterLastDot name ∉ sourceNames source ↔
          Text.afterLastDot name ∉ overlookedNames source)) ∧
    ∀ package types session unit,
      ((removeWildcardIfUnused package types result.1).run session).1 = some unit →
        ((∀ type ∈ types, type ∉ sourceNames source) ↔
          ∀ type ∈ types, type ∉ overlookedNames source) := by
  refine ⟨?_, ?_⟩
  · intro name isStatic session unit removed
    have unmentioned := not_mem_namesUsed_of_removed removed
    rw [mem_sourceNames_iff parsed]
    simp [unmentioned]
  · intro package types session unit removed
    have unmentioned := not_mem_namesUsed_of_wildcard_removed removed
    refine forall_congr' fun type => imp_congr_right fun listed => ?_
    rw [mem_sourceNames_iff parsed]
    simp [unmentioned type listed]

/-- The tree of a source and what the removal of an import makes of it, if the import is removed. -/
def removal? (source name : String) : Option (SourceUnit × SourceUnit) :=
  match parse source none 1 with
  | .ok (unit, next) =>
    ((removeIfUnused name false unit).run ⟨.empty, next⟩).1.map fun update => (unit, update)
  | .error _ => none

theorem exists_of_removal?
    {source name : String}
    (removes : (removal? source name).isSome = true) :
    ∃ result unit, parse source none 1 = .ok result ∧
      ((removeIfUnused name false result.1).run ⟨.empty, result.2⟩).1 = some unit := by
  unfold removal? at removes
  cases parsed : parse source none 1 with
  | error _ => simp [parsed] at removes
  | ok result =>
      simp only [parsed, Option.isSome_map] at removes
      obtain ⟨unit, removed⟩ := Option.isSome_iff_exists.mp removes
      exact ⟨result, unit, rfl, removed⟩

/-- A source that does not use what it imports. -/
def unusedImport : String := "import a.Foo;\nclass A \x7b public int x; \x7d\n"

theorem unused_of_removed_iff_unusedImport :
    ∃ result unit, parse unusedImport none 1 = .ok result ∧
      ((removeIfUnused "a.Foo" false result.1).run ⟨.empty, result.2⟩).1 = some unit ∧
      (Text.afterLastDot "a.Foo" ∉ sourceNames unusedImport ↔
        Text.afterLastDot "a.Foo" ∉ overlookedNames unusedImport) := by
  have removes : (removal? unusedImport "a.Foo").isSome = true := by decide +kernel
  obtain ⟨result, unit, parsed, removed⟩ := exists_of_removal? removes
  exact ⟨result, unit, parsed, removed,
    (unused_of_removed_iff parsed).1 "a.Foo" false _ unit removed⟩

/-- A source that uses what it imports in an annotation behind a keyword only. -/
def usedBehindKeyword : String := "import a.Foo;\nclass A \x7b public @Foo int x; \x7d\n"

/-- An import in use is removed. -/
theorem removed_though_used :
    ∃ result unit, parse usedBehindKeyword none 1 = .ok result ∧
      ((removeIfUnused "a.Foo" false result.1).run ⟨.empty, result.2⟩).1 = some unit ∧
      Text.afterLastDot "a.Foo" ∈ sourceNames usedBehindKeyword := by
  have removes : (removal? usedBehindKeyword "a.Foo").isSome = true := by decide +kernel
  obtain ⟨result, unit, parsed, removed⟩ := exists_of_removal? removes
  refine ⟨result, unit, parsed, removed, ?_⟩
  decide +kernel

end JupiterMigration.Imports
