import JupiterMigration.Configuration.Project
import JupiterMigration.Proofs.Configuration

/-!
# The configuration of a project

What a project file says depends on nothing that is asked for explicitly (`Configuration.tableOf`),
and the configuration depends on the project file, if there is one, and on what is asked for
(`Configuration.result_load_cases`).  So a number of workers that is asked for makes no other
difference (`Configuration.eq_of_load`).
-/

namespace JupiterMigration.Configuration

/-- The settings in a project file; none where the table of settings is missing. -/
def tableOf (file : Toml.Table) : List (String × Setting) :=
  match file.lookup "tool" with
  | some (.table tools) =>
    match tools.lookup "junit_switcheroo" with
    | some (.table settings) => settings
    | _ => []
  | _ => []

theorem eq_nil_of_readNoTable
    {names : List String}
    {found : Setting}
    {settings : List (String × Setting)}
    (read : readNoTable names found = .ok settings) : settings = [] := by
  unfold readNoTable at read
  split at read
  · split at read
    · cases read
    · cases read
      rfl
  · dsimp only at read
    split at read
    · cases read
    · cases read
      rfl
  · split at read
    · cases read
      rfl
    · cases read

/-- The names that are looked up have no say in the settings that are found. -/
theorem eq_tableOf_of_projectSettings
    {names : List String}
    {file : Toml.Table}
    {settings : List (String × Setting)}
    (read : projectSettings names file = .ok settings) : settings = tableOf file := by
  unfold projectSettings at read
  unfold tableOf
  split at read
  · next nothing =>
      rw [nothing]
      exact (Except.ok.inj read).symm
  · next tools tools_eq =>
      rw [tools_eq]
      dsimp only
      split at read
      · next nothing =>
          rw [nothing]
          exact (Except.ok.inj read).symm
      · next table table_eq =>
          rw [table_eq]
          exact (Except.ok.inj read).symm
      · next other noTable other_eq =>
          rw [other_eq]
          rw [eq_nil_of_readNoTable read]
          cases other with
          | table entries => exact absurd rfl (noTable entries)
          | _ => rfl
  · cases read

/-- Settings that differ in the number of workers make configurations that differ in it. -/
theorem eq_of_ofSettings
    {settings others : List (String × Setting)}
    {configuration other : Configuration}
    (same : ∀ name, name ≠ "workers" → settings.lookup name = others.lookup name)
    (first : ofSettings settings = .ok configuration)
    (second : ofSettings others = .ok other) :
    configuration = { other with workers := configuration.workers } := by
  have alike {α : Type} (name : String) (standard : α) (check : Setting → Checked α)
      (differs : name ≠ "workers") :
      checked settings name standard check = checked others name standard check := by
    unfold checked
    rw [same name differs]
  obtain ⟨recipes, indent, -, pattern, strict⟩ := ofSettings_eq_ok_iff.mp first
  obtain ⟨otherRecipes, otherIndent, -, otherPattern, otherStrict⟩ :=
    ofSettings_eq_ok_iff.mp second
  rw [alike _ _ _ (by decide)] at recipes indent pattern strict
  rw [otherRecipes] at recipes
  rw [otherIndent] at indent
  rw [otherPattern] at pattern
  rw [otherStrict] at strict
  cases configuration
  cases other
  simp_all

theorem exists_of_combine
    {explicit : List (String × Setting)}
    {file : Toml.Table}
    {configuration : Configuration}
    (accepted : combine explicit file = .ok configuration) :
    ofSettings (explicit.filter (fun entry => !(entry.2 matches .null)) ++ tableOf file) =
      .ok configuration := by
  unfold combine at accepted
  dsimp only at accepted
  split at accepted
  · cases accepted
  · next settings read =>
      rw [← eq_tableOf_of_projectSettings read]
      split at accepted
      · cases accepted
      · next made =>
          cases accepted
          exact made

/--
The settings that are asked for, with a number of workers or without, make alike configurations.
-/
theorem eq_of_combine
    {explicit workers : List (String × Setting)}
    {file : Toml.Table}
    {configuration other : Configuration}
    (onlyWorkers : ∀ entry ∈ workers, entry.1 = "workers")
    (first : combine (explicit ++ workers) file = .ok configuration)
    (second : combine explicit file = .ok other) :
    configuration = { other with workers := configuration.workers } := by
  refine eq_of_ofSettings (fun name differs => ?_) (exists_of_combine first)
    (exists_of_combine second)
  have nowhere : (workers.filter fun entry => !(entry.2 matches .null)).lookup name = none := by
    rw [List.lookup_eq_none_iff]
    intro entry member
    rw [onlyWorkers entry (List.mem_filter.mp member).1]
    simpa using differs
  rw [List.filter_append, List.append_assoc, List.lookup_append, List.lookup_append,
    List.lookup_append, nowhere, Option.none_or]

/-- There is a project file to combine with whatever is asked for, or one that cannot be read. -/
theorem result_load_cases (tree : FileTree) (start : Path) :
    (∃ file, ∀ root explicit, (load root tree start explicit).result = combine explicit file) ∨
      ∃ error, ∀ root explicit, (load root tree start explicit).result = .error error := by
  cases nearest : nearestProjectFile? tree start with
  | none => exact .inl ⟨[], fun root explicit => by rw [load, nearest]⟩
  | some file =>
      cases decoded : Text.decode ((tree.content? file).getD .empty) with
      | error fault =>
          refine .inr ⟨.undecodable fault, fun root explicit => ?_⟩
          rw [load, nearest]
          dsimp only
          rw [decoded]
      | ok text =>
          cases read : Toml.read? text with
          | none =>
              refine .inl ⟨[], fun root explicit => ?_⟩
              rw [load, nearest]
              dsimp only
              rw [decoded]
              dsimp only
              rw [read]
          | some table =>
              refine .inl ⟨table, fun root explicit => ?_⟩
              rw [load, nearest]
              dsimp only
              rw [decoded]
              dsimp only
              rw [read]

/-- How messages show the working directory has no say in the configuration. -/
theorem result_load_eq
    (root other : String)
    (tree : FileTree)
    (start : Path)
    (explicit : List (String × Setting)) :
    (load root tree start explicit).result = (load other tree start explicit).result := by
  rcases result_load_cases tree start with ⟨file, result_eq⟩ | ⟨error, result_eq⟩
  · rw [result_eq, result_eq]
  · rw [result_eq, result_eq]

/-- A number of workers that is asked for makes no other difference to the configuration. -/
theorem eq_of_load
    {root : String}
    {tree : FileTree}
    {start : Path}
    {explicit workers : List (String × Setting)}
    {configuration other : Configuration}
    (onlyWorkers : ∀ entry ∈ workers, entry.1 = "workers")
    (first : (load root tree start (explicit ++ workers)).result = .ok configuration)
    (second : (load root tree start explicit).result = .ok other) :
    configuration = { other with workers := configuration.workers } := by
  rcases result_load_cases tree start with ⟨file, result_eq⟩ | ⟨error, result_eq⟩
  · rw [result_eq] at first second
    exact eq_of_combine onlyWorkers first second
  · rw [result_eq] at first
    cases first

end JupiterMigration.Configuration
