import JupiterMigration.CommandLine.Shell
import JupiterMigration.Proofs.Batch
import JupiterMigration.Proofs.Configuration.Project

/-!
# What parts of commands do to the files

A part of a command is told by its result and by the tree of files that it leaves
(`Command.Ends`).  Messages, texts and tables leave the files as they are, and have no say in what
follows.
-/

namespace JupiterMigration.CommandLine.Command

variable
  {α β : Type}
  {tree : FileTree}

/-- From a shell, a part of a command gives a result and leaves a tree of files. -/
def Returns (step : Command α) (shell : Shell) (result : α) (after : FileTree) : Prop :=
  ∃ later, step.run.run shell = (.ok result, later) ∧ later.workspace.tree = after

/-- Whatever else is in the shell, a part of a command ends well with a result and a tree. -/
def Ends (step : Command α) (tree : FileTree) (post : α → FileTree → Prop) : Prop :=
  ∀ shell : Shell, shell.workspace.tree = tree →
    ∃ result after, step.Returns shell result after ∧ post result after

theorem ends_pure
    {post : α → FileTree → Prop}
    {result : α}
    (holds : post result tree) : Ends (pure result) tree post := by
  intro shell same
  exact ⟨result, tree, ⟨shell, rfl, same⟩, holds⟩

theorem Ends.bind
    {step : Command α}
    {next : α → Command β}
    {between : α → FileTree → Prop}
    {post : β → FileTree → Prop}
    (first : step.Ends tree between)
    (second : ∀ result middle, between result middle → (next result).Ends middle post) :
    (step >>= next).Ends tree post := by
  intro shell same
  obtain ⟨result, middle, ⟨later, runs, later_eq⟩, holds⟩ := first shell same
  obtain ⟨last, after, ⟨latest, runsOn, latest_eq⟩, ends⟩ :=
    second result middle holds later later_eq
  refine ⟨last, after, ⟨latest, ?_, latest_eq⟩, ends⟩
  rw [ExceptT.run_bind, StateT.run_bind, runs]
  exact runsOn

theorem Ends.mono
    {step : Command α}
    {post weaker : α → FileTree → Prop}
    (ends : step.Ends tree post)
    (weakens : ∀ result after, post result after → weaker result after) :
    step.Ends tree weaker := by
  intro shell same
  obtain ⟨result, after, returns, holds⟩ := ends shell same
  exact ⟨result, after, returns, weakens _ _ holds⟩

/-- What each item keeps going, from the items before it to one more, a whole list does. -/
theorem ends_forM
    {step : α → Command PUnit}
    {items : List α}
    (invariant : List α → FileTree → Prop)
    (start : invariant [] tree)
    (each : ∀ front item back middle, items = front ++ item :: back → invariant front middle →
      (step item).Ends middle fun _ after => invariant (front ++ [item]) after) :
    Ends (items.forM step) tree fun _ after => invariant items after := by
  have rest (back : List α) : ∀ front middle, items = front ++ back → invariant front middle →
      Ends (back.forM step) middle fun _ after => invariant items after := by
    induction back with
    | nil =>
        intro front middle whole holds
        rw [List.append_nil] at whole
        exact ends_pure (whole ▸ holds)
    | cons item back inductionHypothesis =>
        intro front middle whole holds
        refine (each front item back middle whole holds).bind fun _ after further => ?_
        exact inductionHypothesis (front ++ [item]) after (by rw [whole, List.append_cons]) further
  exact rest items [] tree rfl start

/-! ## Smallest parts -/

/-- A part of a command leaves the files as they are. -/
def IsQuiet (step : Command α) : Prop :=
  ∀ tree, step.Ends tree fun _ after => after = tree

theorem isQuiet_say (records : List LogRecord) : IsQuiet (say records) :=
  fun tree _ same => ⟨(), tree, ⟨_, rfl, same⟩, rfl⟩

theorem isQuiet_display (item : Display) : IsQuiet (display item) :=
  fun tree _ same => ⟨(), tree, ⟨_, rfl, same⟩, rfl⟩

theorem isQuiet_forM
    {step : α → Command PUnit}
    (each : ∀ item, IsQuiet (step item))
    (items : List α) : IsQuiet (items.forM step) := by
  intro tree
  have keeps (middle : FileTree) (same : middle = tree) (item : α) :
      (step item).Ends middle fun _ after => after = tree := by
    rw [same]
    exact each item tree
  exact ends_forM (fun _ after => after = tree) rfl fun _ item _ middle _ same =>
    keeps middle same item

/-- After a part that leaves the files as they are, the next one starts from the same files. -/
theorem IsQuiet.bind
    {step : Command α}
    {next : α → Command β}
    {post : β → FileTree → Prop}
    (quiet : step.IsQuiet)
    (second : ∀ result, (next result).Ends tree post) : (step >>= next).Ends tree post :=
  (quiet tree).bind fun result middle same => by
    rw [same]
    exact second result

/-- A part of a command gives a result that only depends on the files, and leaves them. -/
def Gives (step : Command α) (tree : FileTree) (result : α) : Prop :=
  step.Ends tree fun found after => found = result ∧ after = tree

theorem Gives.bind
    {step : Command α}
    {next : α → Command β}
    {post : β → FileTree → Prop}
    {result : α}
    (gives : step.Gives tree result)
    (second : (next result).Ends tree post) : (step >>= next).Ends tree post :=
  Ends.bind gives fun found middle same => by
    rw [same.1, same.2]
    exact second

theorem gives_tree : Command.tree.Gives tree tree :=
  fun shell same => ⟨shell.workspace.tree, tree, ⟨shell, rfl, same⟩, same, rfl⟩

/-- A part that looks at the shell starts from some shell with the same files. -/
theorem ends_bind_get
    {next : Shell → Command β}
    {post : β → FileTree → Prop}
    (second : ∀ shell, shell.workspace.tree = tree → (next shell).Ends tree post) :
    Ends (get >>= next) tree post :=
  fun shell same => second shell same shell same

theorem gives_orFail
    {ε : Type}
    {failure : ε → Failure}
    {result : α} : Gives (orFail failure (.ok result)) tree result :=
  ends_pure ⟨rfl, rfl⟩

theorem ends_store
    {path : Path}
    {content : String}
    {added : FileTree}
    (adds : tree.addFile path (Text.encode content) = .ok added) :
    (store path content).Ends tree fun result after => result = .ok () ∧ after = added := by
  unfold store
  refine gives_tree.bind ?_
  rw [adds]
  intro shell _
  exact ⟨_, added, ⟨_, rfl, rfl⟩, rfl, rfl⟩

/-! ## Configurations and conversions -/

theorem gives_loadConfiguration
    {path : Path}
    {explicit : List (String × Setting)}
    {root : String}
    {configuration : Configuration}
    (isDirectory : tree.isDirectory path = true)
    (accepted : (Configuration.load root tree path explicit).result = .ok configuration) :
    (loadConfiguration path explicit).Gives tree (some configuration) := by
  unfold loadConfiguration
  refine ends_bind_get fun shell same => ?_
  dsimp only
  rw [same, if_pos isDirectory]
  refine (isQuiet_say _).bind fun _ => ?_
  rw [Configuration.result_load_eq shell.workspace.root root, accepted]
  exact ends_pure ⟨rfl, rfl⟩

theorem gives_convertFiles
    (configuration : Configuration)
    (paths : List Path) :
    (convertFiles configuration paths).Gives tree
      (paths.map fun path => (Run.ofFile configuration tree path 0).conversion) := by
  rintro shell rfl
  refine ⟨_, _, ⟨_, rfl, rfl⟩, ?_, rfl⟩
  exact Batch.conversions_convert configuration shell.workspace.tree shell.workspace.nextId 0 paths

end JupiterMigration.CommandLine.Command
