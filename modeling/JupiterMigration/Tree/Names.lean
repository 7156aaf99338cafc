/-!
# Sets of names

A set of names is kept as the ascending list of its elements, so that equal sets are equal lists.
-/

namespace JupiterMigration

/-- A set of names: an ascending list without repetition. -/
abbrev Names := List String

namespace Names

/-- The set with one more name. -/
def insert (name : String) : Names → Names
  | [] => [name]
  | first :: rest =>
    if name < first then name :: first :: rest
    else if name = first then first :: rest
    else first :: insert name rest

/-- The set of the names in a list. -/
def ofList (names : List String) : Names :=
  names.foldr insert []

/-- All names of both sets. -/
def union (first second : Names) : Names :=
  first.foldr insert second

/-- All names of some sets. -/
def unionAll (sets : List Names) : Names :=
  sets.foldr union []

@[simp]
theorem mem_insert {name other : String} {names : Names} :
    other ∈ insert name names ↔ other = name ∨ other ∈ names := by
  induction names with
  | nil => simp [insert]
  | cons first rest ih =>
    simp only [insert]
    split
    · simp
    · split
      · next same => simp [same]
      · simp only [List.mem_cons, ih]
        grind

@[simp]
theorem mem_ofList {name : String} {names : List String} : name ∈ ofList names ↔ name ∈ names := by
  induction names with
  | nil => simp [ofList]
  | cons first rest ih => simp_all [ofList]

@[simp]
theorem mem_union {name : String} {first second : Names} :
    name ∈ union first second ↔ name ∈ first ∨ name ∈ second := by
  induction first with
  | nil => simp [union]
  | cons head rest ih => simp_all [union, or_assoc]

@[simp]
theorem mem_unionAll {name : String} {sets : List Names} :
    name ∈ unionAll sets ↔ ∃ names ∈ sets, name ∈ names := by
  induction sets with
  | nil => simp [unionAll]
  | cons first rest ih =>
    have step : unionAll (first :: rest) = union first (unionAll rest) := rfl
    simp [step, ih]

end Names

end JupiterMigration
