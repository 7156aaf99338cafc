import JupiterMigration.Batch
import JupiterMigration.Proofs.Configuration
import JupiterMigration.Proofs.Renumbering

/-!
# Batches

A file is converted in the same way wherever it stands in a batch, and whoever converts it: all
files of a batch may share one counter, or each may be a job for some worker, which has a counter of
its own and reads its configuration from the settings in the job
(`Batch.conversions_independent_of_counters`).
-/

namespace JupiterMigration

/-- The outcome for a file does not depend on the number from which nodes are numbered. -/
theorem Run.conversion_ofFile_eq
    (configuration : Configuration)
    (tree : FileTree)
    (path : Path)
    (firstId otherId : Nat) :
    (ofFile configuration tree path firstId).conversion =
      (ofFile configuration tree path otherId).conversion := by
  unfold ofFile
  cases tree.readText path with
  | ok code => exact conversion_start_eq configuration code (some path.text) firstId otherId
  | error error => rfl

/-- A file to convert, and the settings that a worker is given with it. -/
structure Job where
  settings : List (String × Setting)
  path : Path

/-- What a worker makes of a job; the counter of the worker stands at the given number. -/
def Job.run (tree : FileTree) (firstId : Nat) (job : Job) : Configuration.Checked Conversion := do
  let configuration ← Configuration.ofSettings job.settings
  return (Run.ofFile configuration tree job.path firstId).conversion

namespace Batch

/-- The jobs that some files are for the workers. -/
def jobs (configuration : Configuration) (paths : List Path) : List Job :=
  paths.map fun path => ⟨configuration.dump, path⟩

/--
What the workers make of jobs, gathered in the order of the jobs.  The counter of the worker that
takes up the job at a position may stand at any number.
-/
def gathered (tree : FileTree) (counters : Nat → Nat) (jobs : List Job) :
    List (Configuration.Checked Conversion) :=
  jobs.mapIdx fun position job => job.run tree (counters position)

theorem conversions_inTurn
    (configuration : Configuration)
    (tree : FileTree)
    (firstId otherId : Nat)
    (paths : List Path) :
    (inTurn configuration tree firstId paths).conversions =
      paths.map fun path => (Run.ofFile configuration tree path otherId).conversion := by
  induction paths generalizing firstId with
  | nil => rfl
  | cons first rest inductionHypothesis =>
      rw [inTurn, List.map_cons]
      dsimp only
      rw [inductionHypothesis, Run.conversion_ofFile_eq configuration tree first firstId otherId]

theorem conversions_convert
    (configuration : Configuration)
    (tree : FileTree)
    (firstId otherId : Nat)
    (paths : List Path) :
    (convert configuration tree firstId paths).conversions =
      paths.map fun path => (Run.ofFile configuration tree path otherId).conversion := by
  unfold convert
  split
  · exact List.map_congr_left fun path _ =>
      Run.conversion_ofFile_eq configuration tree path firstId otherId
  · exact conversions_inTurn configuration tree firstId otherId paths

theorem gathered_jobs
    {configuration : Configuration}
    (valid : configuration.Valid)
    (tree : FileTree)
    (counters : Nat → Nat)
    (otherId : Nat)
    (paths : List Path) :
    gathered tree counters (jobs configuration paths) =
      paths.map fun path => .ok (Run.ofFile configuration tree path otherId).conversion := by
  have each (path : Path) (firstId : Nat) : Job.run tree firstId ⟨configuration.dump, path⟩ =
      .ok (Run.ofFile configuration tree path otherId).conversion := by
    unfold Job.run
    rw [Configuration.ofSettings_dump valid]
    exact congrArg Except.ok (Run.conversion_ofFile_eq configuration tree path firstId otherId)
  unfold gathered jobs
  refine List.ext_getElem (by simp) fun position _ _ => ?_
  rw [List.getElem_mapIdx, List.getElem_map, List.getElem_map, each]

/--
Numbers are invisible in what comes of conversions.  A source is converted in the same way from
whatever number on.  So a batch has one outcome for each file, in order, that depends on the file
alone, whether the files share one counter or are jobs for workers with counters of their own.
-/
theorem conversions_independent_of_counters :
    (∀ configuration code path firstId otherId,
      (Run.start configuration code path firstId).conversion =
        (Run.start configuration code path otherId).conversion) ∧
    ∀ settings configuration, Configuration.ofSettings settings = .ok configuration →
      ∀ tree paths firstId otherId counters,
        let conversions := paths.map fun path =>
          (Run.ofFile configuration tree path otherId).conversion
        (convert { configuration with workers := 1 } tree firstId paths).conversions =
            conversions ∧
          (convert configuration tree firstId paths).conversions = conversions ∧
          gathered tree counters (jobs configuration paths) = conversions.map .ok := by
  refine ⟨Run.conversion_start_eq, ?_⟩
  intro settings configuration accepted tree paths firstId otherId counters
  refine ⟨?_, conversions_convert configuration tree firstId otherId paths, ?_⟩
  · exact conversions_convert { configuration with workers := 1 } tree firstId otherId paths
  · have valid := Configuration.valid_of_ofSettings accepted
    rw [gathered_jobs valid tree counters otherId, List.map_map]
    rfl

/-- A file that can be read, among others that are missing. -/
def loneFile : FileTree := ⟨[(["Lone.java"], .file "class Lone \x7b\x7d".toUTF8)]⟩

/-- A configuration in which two workers apply one recipe. -/
def twoWorkers : Configuration := { Configuration.standard with
  recipes := [.parameterized]
  workers := 2 }

theorem conversions_independent_of_counters_twoWorkers :
    Configuration.ofSettings [("recipes", .list [.text "Parameterized "]), ("workers", .text "2")] =
        .ok twoWorkers ∧
      gathered loneFile id
          (jobs twoWorkers [.ofString "Lone.java", .ofString "Missing.java"]) =
        [.ok (Run.ofFile twoWorkers loneFile (.ofString "Lone.java") 7).conversion,
          .ok (Run.ofFile twoWorkers loneFile (.ofString "Missing.java") 7).conversion] := by
  have accepted : Configuration.ofSettings
      [("recipes", .list [.text "Parameterized "]), ("workers", .text "2")] = .ok twoWorkers := rfl
  exact ⟨accepted, (conversions_independent_of_counters.2 _ _ accepted loneFile
    [.ofString "Lone.java", .ofString "Missing.java"] 0 7 id).2.2⟩

end Batch

end JupiterMigration
