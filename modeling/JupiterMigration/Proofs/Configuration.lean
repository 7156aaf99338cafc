import JupiterMigration.Configuration.Validation

/-!
# Configurations as settings

A configuration that has been read from settings is valid (`Configuration.valid_of_ofSettings`), and
a valid one can be written as settings from which it is read back (`Configuration.ofSettings_dump`).
-/

namespace JupiterMigration

namespace Configuration

/-- The settings that a configuration is written as. -/
def dump (configuration : Configuration) : List (String × Setting) :=
  [("recipes", .list (configuration.recipes.map fun recipe => .text recipe.name)),
    ("indent", (configuration.indent.map Setting.text).getD .null),
    ("workers", .integer configuration.workers),
    ("include", .text configuration.filePattern),
    ("strict_mode", .boolean configuration.strict)]

/-- What reading a configuration from settings makes sure of. -/
structure Valid (configuration : Configuration) : Prop where
  recipes : configuration.recipes.Nodup
  indent : ∀ unit, configuration.indent = some unit → isIndentUnit unit = true
  workers : 1 ≤ configuration.workers

/-- The settings of a run to which nothing is said pass their own checks. -/
theorem valid_standard : standard.Valid :=
  ⟨by decide, fun _ given => (by cases given), by decide⟩

theorem ofSettings_eq_ok_iff
    {settings : List (String × Setting)}
    {configuration : Configuration} :
    ofSettings settings = .ok configuration ↔
      checked settings "recipes" standard.recipes checkRecipes = .ok configuration.recipes ∧
      checked settings "indent" standard.indent checkIndent = .ok configuration.indent ∧
      checked settings "workers" standard.workers checkWorkers = .ok configuration.workers ∧
      checked settings "include" standard.filePattern checkFilePattern =
        .ok configuration.filePattern ∧
      checked settings "strict_mode" standard.strict checkStrict = .ok configuration.strict := by
  unfold ofSettings
  dsimp only
  constructor
  · intro accepted
    split at accepted
    · next recipes indent workers pattern strict =>
        cases accepted
        exact ⟨recipes, indent, workers, pattern, strict⟩
    · cases accepted
  · rintro ⟨recipes, indent, workers, pattern, strict⟩
    rw [recipes, indent, workers, pattern, strict]

theorem eq_or_exists_of_checked
    {α : Type}
    {settings : List (String × Setting)}
    {name : String}
    {standard value : α}
    {check : Setting → Checked α}
    (accepted : checked settings name standard check = .ok value) :
    value = standard ∨ ∃ setting, check setting = .ok value := by
  unfold checked at accepted
  split at accepted
  · exact .inr ⟨_, accepted⟩
  · cases accepted
    exact .inl rfl

theorem located_eq_ok_iff
    {α : Type}
    {location : List String}
    {result : Except SettingProblem α}
    {value : α} : located location result = .ok value ↔ result = .ok value := by
  cases result with
  | ok other => rw [located, Except.ok.injEq, Except.ok.injEq]
  | error problem => exact ⟨nofun, nofun⟩

/-! ## Reading -/

theorem nodup_of_readRecipes
    {found recipes : List Recipe}
    {names : List String}
    (nodup : found.Nodup)
    (read : readRecipes found names = .ok recipes) : recipes.Nodup := by
  induction names generalizing found with
  | nil =>
      cases read
      exact nodup
  | cons name rest inductionHypothesis =>
      rw [readRecipes] at read
      split at read
      · cases read
      · next recipe _ =>
          refine inductionHypothesis ?_ read
          split
          · exact nodup
          · next absent =>
              rw [List.contains_iff_mem] at absent
              exact List.nodup_append.mpr ⟨nodup, List.pairwise_singleton _ recipe, by
                rintro other inside _ single rfl
                rw [List.mem_singleton.mp single] at inside
                exact absent inside⟩

theorem ofName?_name (recipe : Recipe) :
    Recipe.ofName? (Text.trim (Text.lowercase recipe.name)) = some recipe := by
  cases recipe <;> decide

theorem readRecipes_names
    {found recipes : List Recipe}
    (nodup : (found ++ recipes).Nodup) :
    readRecipes found (recipes.map Recipe.name) = .ok (found ++ recipes) := by
  induction recipes generalizing found with
  | nil => rw [List.append_nil, List.map_nil, readRecipes]
  | cons first rest inductionHypothesis =>
      have absent : found.contains first = false := by
        rw [← Bool.not_eq_true, List.contains_iff_mem]
        intro inside
        exact (List.nodup_append.mp nodup).2.2 first inside first List.mem_cons_self rfl
      rw [List.append_cons] at nodup ⊢
      rw [List.map_cons, readRecipes, ofName?_name]
      dsimp only
      rw [absent]
      exact inductionHypothesis nodup

theorem readTexts_map_text (name : String) (position : Nat) (texts : List String) :
    readTexts name position (texts.map Setting.text) = .ok texts := by
  induction texts generalizing position with
  | nil => rfl
  | cons first rest inductionHypothesis =>
      rw [List.map_cons, readTexts, inductionHypothesis]
      rfl

theorem nodup_of_checkRecipes
    {settings : List (String × Setting)}
    {recipes : List Recipe}
    (accepted : checked settings "recipes" standard.recipes checkRecipes = .ok recipes) :
    recipes.Nodup := by
  obtain rfl | ⟨setting, accepted⟩ := eq_or_exists_of_checked accepted
  · decide
  · cases setting with
    | list items =>
        rw [checkRecipes] at accepted
        cases names_eq : readTexts "recipes" 0 items with
        | error errors =>
            rw [names_eq] at accepted
            cases accepted
        | ok names =>
            rw [names_eq] at accepted
            exact nodup_of_readRecipes List.nodup_nil (located_eq_ok_iff.mp accepted)
    | _ => cases accepted

theorem checkIndent_text (value : String) :
    checkIndent (.text value) =
      if isIndentUnit value then .ok (some value)
      else .error [⟨["indent"], .badIndent value⟩] := by
  cases isUnit : isIndentUnit value with
  | true =>
      unfold checkIndent
      simp only [Setting.readText, bind, Except.bind, isUnit]
      rfl
  | false =>
      unfold checkIndent
      simp only [Setting.readText, bind, Except.bind, isUnit]
      rfl

theorem isIndentUnit_of_checkIndent
    {settings : List (String × Setting)}
    {indent : Option String}
    (accepted : checked settings "indent" standard.indent checkIndent = .ok indent)
    (unit : String)
    (given : indent = some unit) : isIndentUnit unit = true := by
  subst given
  obtain none_eq | ⟨setting, accepted⟩ := eq_or_exists_of_checked accepted
  · cases none_eq
  · cases setting with
    | null => cases accepted
    | text value =>
        rw [checkIndent_text] at accepted
        split at accepted
        · next isUnit =>
            cases accepted
            exact isUnit
        · cases accepted
    | _ => cases accepted

theorem checkWorkers_of_readInteger
    {setting : Setting}
    {value : Int}
    (read : setting.readInteger = .ok value) :
    checkWorkers setting =
      if value < 1 then .error [⟨["workers"], .tooSmall⟩] else .ok value.toNat := by
  unfold checkWorkers
  rw [read]
  simp only [bind, Except.bind]
  split <;> rfl

theorem one_le_of_checkWorkers
    {settings : List (String × Setting)}
    {workers : Nat}
    (accepted : checked settings "workers" standard.workers checkWorkers = .ok workers) :
    1 ≤ workers := by
  obtain rfl | ⟨setting, accepted⟩ := eq_or_exists_of_checked accepted
  · decide
  · cases value_eq : setting.readInteger with
    | error problem =>
        rw [checkWorkers, value_eq] at accepted
        cases accepted
    | ok value =>
        rw [checkWorkers_of_readInteger value_eq] at accepted
        split at accepted
        · cases accepted
        · cases accepted
          omega

/-- Settings that can be read make a valid configuration. -/
theorem valid_of_ofSettings
    {settings : List (String × Setting)}
    {configuration : Configuration}
    (accepted : ofSettings settings = .ok configuration) : configuration.Valid := by
  obtain ⟨recipes, indent, workers, -, -⟩ := ofSettings_eq_ok_iff.mp accepted
  exact ⟨nodup_of_checkRecipes recipes, isIndentUnit_of_checkIndent indent,
    one_le_of_checkWorkers workers⟩

/-- A valid configuration is read back from the settings it is written as. -/
theorem ofSettings_dump
    {configuration : Configuration}
    (valid : configuration.Valid) : ofSettings configuration.dump = .ok configuration := by
  have texts_eq : configuration.recipes.map (fun recipe => Setting.text recipe.name) =
      (configuration.recipes.map Recipe.name).map Setting.text := List.map_map.symm
  have recipes : checkRecipes (.list (configuration.recipes.map fun recipe =>
      .text recipe.name)) = .ok configuration.recipes := by
    rw [checkRecipes, texts_eq, readTexts_map_text]
    exact located_eq_ok_iff.mpr (readRecipes_names valid.recipes)
  have indent : checkIndent ((configuration.indent.map Setting.text).getD .null) =
      .ok configuration.indent := by
    cases indent_eq : configuration.indent with
    | none => rfl
    | some unit => exact (checkIndent_text unit).trans (if_pos (valid.indent unit indent_eq))
  have workers : checkWorkers (.integer configuration.workers) = .ok configuration.workers := by
    have enough : ¬((configuration.workers : Int) < 1) := by
      have atLeastOne := valid.workers
      omega
    exact (checkWorkers_of_readInteger rfl).trans (if_neg enough)
  exact ofSettings_eq_ok_iff.mpr ⟨recipes, indent, workers, rfl, rfl⟩

end Configuration

end JupiterMigration
