import JupiterMigration.CommandLine.Check
import JupiterMigration.Proofs.CommandLine
import JupiterMigration.Proofs.Files
import JupiterMigration.Proofs.Report

/-!
# What conversions do to the files

A conversion of the files of a directory handles them one after another.  Every file has the outcome
that it has alone in the tree before all of them, as long as the files that are written can be added
side by side, and what comes out is that tree with these files in it (`CommandLine.ends_handleAll`).
-/

namespace JupiterMigration.CommandLine

open Command

variable
  {tree : FileTree}
  {request : ConvertRequest}
  {configuration : Configuration}
  {sources : List (List String)}

/-- The outcome for the file that names lead to from a path. -/
def outcome
    (configuration : Configuration)
    (tree : FileTree)
    (path : Path)
    (names : List String) : Conversion :=
  (Run.ofFile configuration tree (path.below names) 0).conversion

/-- The files that names lead to from a path, each with the outcome for it. -/
def converted
    (configuration : Configuration)
    (tree : FileTree)
    (path : Path)
    (sources : List (List String)) : List ConvertedFile :=
  sources.map fun names => ⟨names, path.below names, outcome configuration tree path names⟩

theorem gives_convertSources
    (configuration : Configuration)
    (path : Path)
    (sources : List (List String)) :
    (convertSources configuration path sources).Gives tree
      (converted configuration tree path sources) := by
  refine (gives_convertFiles configuration _).bind (ends_pure ⟨?_, rfl⟩)
  unfold converted
  induction sources with
  | nil => rfl
  | cons first rest inductionHypothesis => exact congrArg _ inductionHypothesis

theorem isQuiet_summarize (files : List ConvertedFile) : IsQuiet (summarize files) := by
  intro tree
  unfold summarize
  dsimp only
  split
  · exact isQuiet_say _ tree
  · exact (isQuiet_display _).bind fun _ => isQuiet_display _ tree

theorem findAt?_of_isDirectory
    {path : Path}
    (isDirectory : tree.isDirectory path = true) : tree.findAt? path = some .directory := by
  unfold FileTree.isDirectory at isDirectory
  split at isDirectory
  · assumption
  · cases isDirectory

theorem contains_of_isDirectory
    {path : Path}
    (isDirectory : tree.isDirectory path = true) : tree.contains path = true := by
  rw [FileTree.contains, findAt?_of_isDirectory isDirectory]
  rfl

theorem isFile_of_isDirectory
    {path : Path}
    (isDirectory : tree.isDirectory path = true) : tree.isFile path = false := by
  rw [FileTree.isFile, findAt?_of_isDirectory isDirectory]

theorem directory_mono
    {path : Path}
    {other : FileTree}
    (keeps : ∀ place, tree.find? place = some .directory → other.find? place = some .directory)
    (isDirectory : tree.isDirectory path = true) : other.isDirectory path = true := by
  have found := findAt?_of_isDirectory isDirectory
  unfold FileTree.findAt? at found
  split at found
  · next location located =>
      simp [FileTree.isDirectory, FileTree.findAt?, FileTree.locate_mono keeps located,
        keeps location found]
  · cases found

/-- A conversion ends with its exit code once all files have been handled. -/
theorem ends_convert
    {root : String}
    {post : FileTree → Prop}
    (isDirectory : tree.isDirectory request.path = true)
    (accepted : (Configuration.load root tree request.path request.settings).result =
      .ok configuration)
    (selected : tree.sources request.path configuration = .ok sources)
    (untraced : request.jsonTrace = none)
    (handles : Ends ((converted configuration tree request.path sources).forM (handle request)) tree
      fun _ after => post after) :
    (convert request).Ends tree fun code after =>
      code = exitCode (converted configuration tree request.path sources) ∧ post after := by
  unfold convert
  refine gives_tree.bind ?_
  rw [contains_of_isDirectory isDirectory]
  refine (gives_loadConfiguration isDirectory accepted).bind ?_
  refine gives_tree.bind ?_
  rw [selected, untraced]
  refine gives_orFail.bind ?_
  have rest : (do
      let files ← convertSources configuration request.path sources
      files.forM (handle request)
      summarize files
      return exitCode files).Ends tree fun code after =>
        code = exitCode (converted configuration tree request.path sources) ∧ post after := by
    refine (gives_convertSources configuration request.path sources).bind ?_
    refine handles.bind fun _ after holds => ?_
    exact (isQuiet_summarize _).bind fun _ => ends_pure ⟨rfl, holds⟩
  split
  · next nothing =>
      obtain rfl := List.isEmpty_iff.mp nothing
      have ends : (([] : List ConvertedFile).forM (handle request) >>= fun _ => pure 0).Ends tree
          fun code after => code = exitCode (converted configuration tree request.path []) ∧
            post after := handles.bind fun _ _ holds => ends_pure ⟨rfl, holds⟩
      exact (isQuiet_say _).bind fun _ => ends
  · refine gives_tree.bind ?_
    rw [if_pos isDirectory]
    exact (isQuiet_say _).bind fun _ => rest

/-! ## Writing -/

/--
The file that is written for a converted one, if any: at its own place, or below the location that
files go to instead.
-/
def ConvertRequest.newFile?
    (request : ConvertRequest)
    (tree : FileTree)
    (target : Location)
    (file : ConvertedFile) : Option FileTree.NewFile :=
  if file.conversion.success then
    match request.out with
    | some out =>
      some ⟨out.below file.names, target ++ file.names, Text.encode file.conversion.code⟩
    | none =>
      if file.conversion.changed then
        (tree.locate file.path).toOption.map fun location =>
          ⟨file.path, location, Text.encode file.conversion.code⟩
      else none
  else none

theorem ends_writeOutcome
    {file : ConvertedFile}
    {destination : Path}
    {added : FileTree}
    (adds : tree.addFile destination (Text.encode file.conversion.code) = .ok added) :
    (writeOutcome file destination).Ends tree fun _ after => after = added := by
  unfold writeOutcome
  refine (ends_store adds).bind ?_
  rintro _ _ ⟨rfl, rfl⟩
  refine gives_orFail.bind ?_
  split
  · exact isQuiet_say _ _
  · exact ends_pure rfl

theorem gives_showDifference
    {file : ConvertedFile}
    {text : String}
    (readable : tree.readText file.path = .ok text) : (showDifference file).Gives tree () := by
  unfold showDifference
  refine gives_tree.bind ?_
  rw [readable]
  exact (isQuiet_display _ tree).mono fun _ _ same => ⟨rfl, same⟩

/--
What is written for a file makes one tree of another one; without anything, it stays the same.
-/
def Writes (tree : FileTree) : Option FileTree.NewFile → FileTree → Prop
  | none, after => after = tree
  | some new, after => tree.addFile new.path new.content = .ok after

theorem ends_emit
    {middle : FileTree}
    {target : Location}
    {file : ConvertedFile}
    (isDirectory : middle.isDirectory request.path = true)
    (located : file.conversion.changed = true → ∃ location, tree.locate file.path = .ok location)
    (success : file.conversion.success = true)
    (adds : ∀ new ∈ request.newFile? tree target file, ∃ added,
      middle.addFile new.path new.content = .ok added) :
    (emit request file).Ends middle fun _ after =>
      Writes middle (request.newFile? tree target file) after := by
  unfold ConvertRequest.newFile? at adds ⊢
  unfold emit
  rw [if_pos success] at adds ⊢
  cases out_eq : request.out with
  | some out =>
      rw [out_eq] at adds
      obtain ⟨added, adds⟩ := adds _ rfl
      exact (ends_writeOutcome adds).mono fun _ _ same => same ▸ adds
  | none =>
      rw [out_eq] at adds
      refine gives_tree.bind ?_
      rw [isFile_of_isDirectory isDirectory]
      by_cases changed : file.conversion.changed = true
      · obtain ⟨location, found⟩ := located changed
        simp only [if_pos changed, found, Except.toOption, Option.map_some] at adds ⊢
        obtain ⟨added, adds⟩ := adds _ rfl
        exact (ends_writeOutcome adds).mono fun _ _ same => same ▸ adds
      · rw [if_neg changed]
        dsimp only
        rw [if_neg changed]
        exact ends_pure rfl

/-- A file is handled by writing what is written for it. -/
theorem ends_handle
    {middle : FileTree}
    {target : Location}
    {file : ConvertedFile}
    (isDirectory : middle.isDirectory request.path = true)
    (located : file.conversion.changed = true → ∃ location, tree.locate file.path = .ok location)
    (readable : file.conversion.changed = true → ∃ text, middle.readText file.path = .ok text)
    (adds : ∀ new ∈ request.newFile? tree target file, ∃ added,
      middle.addFile new.path new.content = .ok added) :
    (handle request file).Ends middle fun _ after =>
      Writes middle (request.newFile? tree target file) after := by
  have emits : (if file.conversion.success then emit request file else pure ()).Ends middle
      fun _ after => Writes middle (request.newFile? tree target file) after := by
    split
    · next success => exact ends_emit isDirectory located success adds
    · next failed =>
        unfold ConvertRequest.newFile?
        rw [if_neg failed]
        exact ends_pure rfl
  unfold handle
  dsimp only
  by_cases shown : (request.diff && file.conversion.changed) = true
  · obtain ⟨text, readable⟩ := readable (Bool.and_eq_true_iff.mp shown).2
    rw [if_pos shown]
    exact (gives_showDifference readable).bind emits
  · rw [if_neg shown]
    exact emits

/-! ## Writing many files -/

/-- The files that are written for converted ones. -/
def ConvertRequest.newFiles
    (request : ConvertRequest)
    (tree : FileTree)
    (target : Location)
    (files : List ConvertedFile) : List FileTree.NewFile :=
  files.filterMap (request.newFile? tree target)

theorem newFiles_append
    (request : ConvertRequest)
    (target : Location)
    (files others : List ConvertedFile) :
    request.newFiles tree target (files ++ others) =
      request.newFiles tree target files ++ request.newFiles tree target others :=
  List.filterMap_append

theorem newFiles_concat
    (request : ConvertRequest)
    (target : Location)
    (files : List ConvertedFile)
    (file : ConvertedFile) :
    request.newFiles tree target (files ++ [file]) =
      request.newFiles tree target files ++ (request.newFile? tree target file).toList := by
  rw [newFiles_append]
  unfold ConvertRequest.newFiles
  cases isNew : request.newFile? tree target file <;> simp [isNew]

theorem content_of_newFile?
    {target : Location}
    {file : ConvertedFile}
    {new : FileTree.NewFile}
    (written : request.newFile? tree target file = some new) :
    new.content = Text.encode file.conversion.code := by
  unfold ConvertRequest.newFile? at written
  split at written
  · split at written
    · cases written
      rfl
    · split at written
      · obtain ⟨location, _, rfl⟩ := Option.map_eq_some_iff.mp written
        rfl
      · cases written
  · cases written

theorem readText_eq_ok_iff
    {path : Path}
    {text : String} :
    tree.readText path = .ok text ↔
      ∃ location content, tree.locate path = .ok location ∧
        tree.find? location = some (.file content) ∧ Text.decode content = .ok text := by
  unfold FileTree.readText FileTree.read
  constructor
  · intro readable
    cases found : tree.locate path with
    | error error =>
        rw [found] at readable
        cases readable
    | ok location =>
        simp only [found, bind, Except.bind] at readable
        split at readable
        · cases readable
        · next content content_eq =>
            split at content_eq
            · next isFile =>
                cases content_eq
                split at readable
                · cases readable
                · next decoded =>
                    cases readable
                    exact ⟨location, content, rfl, isFile, decoded⟩
            · cases content_eq
            · cases content_eq
  · rintro ⟨location, content, found, isFile, decoded⟩
    simp only [found, bind, Except.bind, isFile, pure, Except.pure, decoded]

/-- Where a path leads to a text, it still does after texts have been written. -/
theorem exists_readText_of_written
    {files : List ConvertedFile}
    {target : Location}
    {middle : FileTree}
    {path : Path}
    {text : String}
    (written : tree.Written (request.newFiles tree target files) middle)
    (canAddAll : tree.CanAddAll (request.newFiles tree target files))
    (clear : ∀ location, tree.locate path = .ok location →
      ∀ new ∈ request.newFiles tree target files, location <+: new.location →
        new.location = location)
    (readable : tree.readText path = .ok text) : ∃ text, middle.readText path = .ok text := by
  obtain ⟨location, content, found, isFile, decoded⟩ := readText_eq_ok_iff.mp readable
  have still := FileTree.locate_mono (fun _ => written.keeps_directory fun new inside =>
    (canAddAll.each new inside).noDirectory) found
  by_cases again : ∃ new ∈ request.newFiles tree target files, new.location = location
  · obtain ⟨new, inside, rfl⟩ := again
    obtain ⟨file, _, isNew⟩ := List.mem_filterMap.mp inside
    refine ⟨file.conversion.code,
      readText_eq_ok_iff.mpr ⟨_, _, still, written.added new inside, ?_⟩⟩
    rw [content_of_newFile? isNew, Text.decode_encode]
  · have notNew : ∀ new ∈ request.newFiles tree target files, new.location ≠ location :=
      fun new inside same => again ⟨new, inside, same⟩
    rcases written.find?_cases notNew with ⟨⟨new, inside, above⟩, _⟩ | same
    · exact absurd (clear location found new inside above) (notNew new inside)
    · exact ⟨text, readText_eq_ok_iff.mpr ⟨location, content, still, same.trans isFile, decoded⟩⟩

/-- Handling files writes what is written for them. -/
theorem ends_handleAll
    {target : Location}
    {files : List ConvertedFile}
    (isDirectory : tree.isDirectory request.path = true)
    (readable : ∀ file ∈ files, file.conversion.changed = true →
      ∃ text, tree.readText file.path = .ok text)
    (canAddAll : tree.CanAddAll (request.newFiles tree target files))
    (clear : ∀ file ∈ files, ∀ location, tree.locate file.path = .ok location →
      ∀ new ∈ request.newFiles tree target files, location <+: new.location →
        new.location = location) :
    Ends (files.forM (handle request)) tree fun _ after =>
      tree.Written (request.newFiles tree target files) after := by
  refine ends_forM (fun front after => tree.Written (request.newFiles tree target front) after)
    (tree.written_nil) ?_
  intro front file back middle whole written
  have inside : file ∈ files := by simp [whole]
  have among : request.newFiles tree target front ⊆ request.newFiles tree target files := by
    rw [whole, newFiles_append]
    exact List.subset_append_left _ _
  have fewer := canAddAll.mono among
  have keeps (place : Location) (there : tree.find? place = some .directory) :
      middle.find? place = some .directory :=
    written.keeps_directory (fun new member => (fewer.each new member).noDirectory) there
  have located (changed : file.conversion.changed = true) :
      ∃ location, tree.locate file.path = .ok location := by
    obtain ⟨text, reads⟩ := readable file inside changed
    obtain ⟨location, _, found, _⟩ := readText_eq_ok_iff.mp reads
    exact ⟨location, found⟩
  have readsOn (changed : file.conversion.changed = true) :
      ∃ text, middle.readText file.path = .ok text := by
    obtain ⟨text, reads⟩ := readable file inside changed
    exact exists_readText_of_written written fewer
      (fun location found new member => clear file inside location found new (among member)) reads
  have adds (new : FileTree.NewFile) (isNew : request.newFile? tree target file = some new) :
      ∃ added, middle.addFile new.path new.content = .ok added ∧
        tree.Written (request.newFiles tree target (front ++ [file])) added := by
    have grown : request.newFiles tree target (front ++ [file]) =
        request.newFiles tree target front ++ [new] := by
      rw [newFiles_concat, isNew, Option.toList_some]
    rw [grown]
    refine FileTree.written_addFile written (canAddAll.mono ?_)
    have split : files = front ++ [file] ++ back := by simp [whole]
    rw [← grown, split, newFiles_append request target _ back]
    exact List.subset_append_left _ _
  refine (ends_handle (directory_mono keeps isDirectory) located readsOn fun new isNew =>
    (adds new isNew).imp fun _ => And.left).mono fun _ after writes => ?_
  cases isNew : request.newFile? tree target file with
  | none =>
      rw [isNew] at writes
      obtain rfl : after = middle := writes
      rw [newFiles_concat, isNew, Option.toList_none, List.append_nil]
      exact written
  | some new =>
      rw [isNew] at writes
      obtain ⟨added, added_eq, grown⟩ := adds new isNew
      obtain rfl : added = after := Except.ok.inj (added_eq.symm.trans writes)
      exact grown

end JupiterMigration.CommandLine
