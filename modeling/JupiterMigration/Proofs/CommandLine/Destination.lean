import JupiterMigration.Proofs.CommandLine.Convert
import JupiterMigration.Proofs.Placement

/-!
# Where converted files go

The files that are selected in a directory can be written where they are
(`CommandLine.convertsInPlace_of_written`), and also, under the same names, in a directory that
holds nothing yet and is apart from the other one (`CommandLine.convertsApart_of_written`).  For the
latter no name may lead back to the directory above: such names lead out of the new directory, maybe
to the file itself.
-/

namespace JupiterMigration.CommandLine

open Command

variable
  {tree : FileTree}
  {request : ConvertRequest}
  {configuration : Configuration}
  {sources : List (List String)}

/-! ## Selected files -/

/-- A path leads to a file at a location. -/
def FileAt (tree : FileTree) (path : Path) (location : Location) : Prop :=
  tree.locate path = .ok location ∧ ∃ content, tree.find? location = some (.file content)

theorem exists_fileAt
    {path : Path}
    (isFile : tree.isFile path = true) : ∃ location, FileAt tree path location := by
  unfold FileTree.isFile at isFile
  split at isFile
  · next content found =>
      unfold FileTree.findAt? at found
      split at found
      · next location located => exact ⟨location, located, content, found⟩
      · cases found
  · cases isFile

/-- The files that are selected in a directory are there. -/
theorem exists_fileAt_of_selected
    {path : Path}
    {names : List String}
    (isDirectory : tree.isDirectory path = true)
    (selected : tree.sources path configuration = .ok sources)
    (member : names ∈ sources) : ∃ location, FileAt tree (path.below names) location := by
  unfold FileTree.sources at selected
  rw [isFile_of_isDirectory isDirectory] at selected
  cases parsed : FilePattern.parse configuration.filePattern with
  | error error =>
      rw [parsed] at selected
      cases selected
  | ok pattern =>
      rw [parsed] at selected
      obtain rfl := Except.ok.inj selected
      rw [FileTree.filesMatching, List.mem_mergeSort, List.mem_filter] at member
      exact exists_fileAt member.2

theorem FileAt.apart
    {path other : Path}
    {location later : Location}
    (first : FileAt tree path location)
    (second : FileAt tree other later)
    (above : location <+: later) : location = later := by
  obtain ⟨content, isFile⟩ := first.2
  exact (FileTree.isOpen_of_locate second.1).eq_of_above isFile above

/-- A file can be written where it is. -/
theorem FileAt.canAdd
    {path : Path}
    {location : Location}
    (there : FileAt tree path location) : tree.CanAdd path location := by
  obtain ⟨located, content, isFile⟩ := there
  refine ⟨FileTree.leadsTo_of_locate located, fun front other above differs => ?_, ?_⟩
  · rw [FileTree.isOpen_of_locate located front above differs]
    nofun
  · rw [isFile]
    nofun

/-- An outcome with a change is that of a file with another text. -/
theorem outcome_changed_iff
    {path : Path}
    {names : List String} :
    (outcome configuration tree path names).changed = true ↔
      (outcome configuration tree path names).success = true ∧
        ∃ text, tree.readText (path.below names) = .ok text ∧
          (outcome configuration tree path names).code ≠ text := by
  unfold outcome Run.ofFile
  cases tree.readText (path.below names) with
  | error error => simp [Conversion.failure]
  | ok text => simpa using Run.changed_start_iff configuration text _ 0

theorem readText_of_fileAt
    {path : Path}
    {location : Location}
    {content : ByteArray}
    (located : tree.locate path = .ok location)
    (isFile : tree.find? location = some (.file content)) :
    tree.readText path = (Text.decode content).mapError .undecodable := by
  unfold FileTree.readText FileTree.read
  simp only [located, bind, Except.bind, isFile, pure, Except.pure]
  cases Text.decode content <;> rfl

/-- Two ways to a file lead to the same outcome. -/
theorem outcome_alike
    {path : Path}
    {names others : List String}
    {location : Location}
    (first : FileAt tree (path.below names) location)
    (second : FileAt tree (path.below others) location) :
    (outcome configuration tree path names).Alike (outcome configuration tree path others) := by
  obtain ⟨located, content, isFile⟩ := first
  unfold outcome Run.ofFile
  rw [readText_of_fileAt located isFile, readText_of_fileAt second.1 isFile]
  cases Text.decode content with
  | error fault => exact ⟨rfl, rfl, rfl⟩
  | ok text => exact Run.alike_start configuration text _ _ 0

theorem mem_converted
    {path : Path}
    {file : ConvertedFile} :
    file ∈ converted configuration tree path sources ↔
      ∃ names ∈ sources, ⟨names, path.below names, outcome configuration tree path names⟩ =
        file := by
  unfold converted
  exact List.mem_map

/-! ## Converting in place -/

theorem newFile?_inPlace
    {target : Location}
    {file : ConvertedFile}
    {new : FileTree.NewFile}
    (inPlace : request.out = none) :
    request.newFile? tree target file = some new ↔
      (file.conversion.success = true ∧ file.conversion.changed = true) ∧
        ∃ location, tree.locate file.path = .ok location ∧
          new = ⟨file.path, location, Text.encode file.conversion.code⟩ := by
  unfold ConvertRequest.newFile?
  rw [inPlace]
  by_cases success : file.conversion.success = true
  · by_cases changed : file.conversion.changed = true
    · cases tree.locate file.path <;> simp [success, changed, Except.toOption, eq_comm]
    · simp [success, changed]
  · simp [success]

/-- What converting selected files in place does to a tree. -/
structure ConvertsInPlace
    (configuration : Configuration)
    (tree : FileTree)
    (path : Path)
    (sources : List (List String))
    (after : FileTree) : Prop where
  /-- A file holds its new code if its conversion has succeeded and changed it. -/
  rewritten : ∀ names ∈ sources,
    (outcome configuration tree path names).success = true →
    (outcome configuration tree path names).changed = true →
    ∃ location, tree.locate (path.below names) = .ok location ∧
      after.find? location =
        some (.file (Text.encode (outcome configuration tree path names).code))
  /-- Everything else is as it was. -/
  kept : ∀ location,
    (∀ names ∈ sources, tree.locate (path.below names) = .ok location →
      ¬((outcome configuration tree path names).success = true ∧
        (outcome configuration tree path names).changed = true)) →
    after.find? location = tree.find? location

section InPlace

variable
  {path : Path}
  (inPlace : request.out = none)
  (there : ∀ names ∈ sources, ∃ location, FileAt tree (path.below names) location)
include inPlace there

theorem mem_newFiles_inPlace
    {target : Location}
    {new : FileTree.NewFile} :
    new ∈ request.newFiles tree target (converted configuration tree path sources) ↔
      ∃ names ∈ sources, (outcome configuration tree path names).success = true ∧
        (outcome configuration tree path names).changed = true ∧
        new.path = path.below names ∧ FileAt tree (path.below names) new.location ∧
        new.content = Text.encode (outcome configuration tree path names).code := by
  unfold ConvertRequest.newFiles
  rw [List.mem_filterMap]
  constructor
  · rintro ⟨file, inside, isNew⟩
    obtain ⟨names, member, rfl⟩ := mem_converted.mp inside
    obtain ⟨⟨success, changed⟩, location, located, rfl⟩ := (newFile?_inPlace inPlace).mp isNew
    obtain ⟨place, fileAt⟩ := there names member
    obtain rfl : place = location := Except.ok.inj (fileAt.1.symm.trans located)
    exact ⟨names, member, success, changed, rfl, fileAt, rfl⟩
  · rintro ⟨names, member, success, changed, path_eq, fileAt, content_eq⟩
    refine ⟨_, mem_converted.mpr ⟨names, member, rfl⟩, (newFile?_inPlace inPlace).mpr ?_⟩
    refine ⟨⟨success, changed⟩, new.location, fileAt.1, ?_⟩
    rw [← path_eq, ← content_eq]

theorem canAddAll_inPlace (target : Location) :
    tree.CanAddAll (request.newFiles tree target (converted configuration tree path sources)) := by
  refine ⟨fun new member => ?_, fun new member later inside above => ?_,
    fun new member later inside same => ?_⟩
  · obtain ⟨names, _, _, _, path_eq, fileAt, _⟩ := (mem_newFiles_inPlace inPlace there).mp member
    rw [path_eq]
    exact fileAt.canAdd
  · obtain ⟨_, _, _, _, _, fileAt, _⟩ := (mem_newFiles_inPlace inPlace there).mp member
    obtain ⟨_, _, _, _, _, laterAt, _⟩ := (mem_newFiles_inPlace inPlace there).mp inside
    exact fileAt.apart laterAt above
  · obtain ⟨_, _, _, _, _, fileAt, content_eq⟩ := (mem_newFiles_inPlace inPlace there).mp member
    obtain ⟨_, _, _, _, _, laterAt, later_eq⟩ := (mem_newFiles_inPlace inPlace there).mp inside
    rw [content_eq, later_eq, (outcome_alike fileAt (same ▸ laterAt)).code]

theorem convertsInPlace_of_written
    {target : Location}
    {after : FileTree}
    (written : tree.Written
      (request.newFiles tree target (converted configuration tree path sources)) after) :
    ConvertsInPlace configuration tree path sources after := by
  refine ⟨fun names member success changed => ?_, fun location unwritten => ?_⟩
  · obtain ⟨location, fileAt⟩ := there names member
    have inside : ⟨path.below names, location,
        Text.encode (outcome configuration tree path names).code⟩ ∈
          request.newFiles tree target (converted configuration tree path sources) :=
      (mem_newFiles_inPlace inPlace there).mpr
        ⟨names, member, success, changed, rfl, fileAt, rfl⟩
    exact ⟨location, fileAt.1, written.added _ inside⟩
  · have noFile : ∀ new ∈ request.newFiles tree target
        (converted configuration tree path sources), new.location ≠ location := by
      rintro new inside rfl
      obtain ⟨names, member, success, changed, _, fileAt, _⟩ :=
        (mem_newFiles_inPlace inPlace there).mp inside
      exact unwritten names member fileAt.1 ⟨success, changed⟩
    rcases written.find?_cases noFile with ⟨⟨new, inside, above⟩, made⟩ | same
    · -- What stands above a file is a directory already.
      obtain ⟨names, member, _, _, _, fileAt, _⟩ :=
        (mem_newFiles_inPlace inPlace there).mp inside
      rw [made, FileTree.isOpen_of_locate fileAt.1 location above (noFile new inside).symm]
    · exact same

end InPlace

/-! ## Converting into another directory -/

theorem newFile?_apart
    {out : Path}
    {target : Location}
    {file : ConvertedFile}
    {new : FileTree.NewFile}
    (apart : request.out = some out) :
    request.newFile? tree target file = some new ↔
      file.conversion.success = true ∧
        new = ⟨out.below file.names, target ++ file.names, Text.encode file.conversion.code⟩ := by
  unfold ConvertRequest.newFile?
  rw [apart]
  by_cases success : file.conversion.success = true
  · simp [success, eq_comm]
  · simp [success]

/--
A path leads to a location where nothing is but, maybe, an empty directory; it can be reached, and
is not inside the directory at the other location.
-/
structure IsVacant
    (tree : FileTree)
    (start : Location)
    (out : Path)
    (target : Location) : Prop where
  leads : tree.LeadsTo out target
  reachable : ∀ front content, front <+: target → tree.find? front ≠ some (.file content)
  vacant : ∀ location, target <+: location → location ≠ target → tree.find? location = none
  outside : ¬start <+: target

namespace IsVacant

variable
  {out : Path}
  {start target location : Location}
  (isVacant : IsVacant tree start out target)
include isVacant

theorem noFile
    (inside : target <+: location)
    (content : ByteArray) : tree.find? location ≠ some (.file content) := by
  by_cases same : location = target
  · exact isVacant.reachable location content (same ▸ List.prefix_rfl)
  · rw [isVacant.vacant location inside same]
    nofun

theorem find?_append
    {names : List String}
    (nonempty : names ≠ []) : tree.find? (target ++ names) = none :=
  isVacant.vacant _ (List.prefix_append _ _) (by simpa using nonempty)

/-- No location inside the other directory is inside this one or above it. -/
theorem not_above
    {names : List String}
    (isDirectory : tree.find? start = some .directory)
    (inside : start <+: location) : ¬location <+: target ++ names := by
  intro above
  rcases List.prefix_or_prefix_of_prefix (inside.trans above) (List.prefix_append _ _) with
    isAbove | isInside
  · exact isVacant.outside isAbove
  · by_cases same : start = target
    · exact isVacant.outside (same ▸ List.prefix_rfl)
    · rw [isVacant.vacant start isInside same] at isDirectory
      cases isDirectory

end IsVacant

/-- What converting the selected files of a directory into another one does to a tree. -/
structure ConvertsApart
    (configuration : Configuration)
    (tree : FileTree)
    (path : Path)
    (start target : Location)
    (sources : List (List String))
    (after : FileTree) : Prop where
  /-- The files are those that there were, and one for each conversion that has succeeded. -/
  files : ∀ location content, after.find? location = some (.file content) ↔
    tree.find? location = some (.file content) ∨
      ∃ names ∈ sources, (outcome configuration tree path names).success = true ∧
        location = target ++ names ∧
        content = Text.encode (outcome configuration tree path names).code
  /-- Nothing is changed or added in the directory whose files are converted. -/
  kept : ∀ location, start <+: location → after.find? location = tree.find? location

section Apart

variable
  {path out : Path}
  {start target : Location}
  (apart : request.out = some out)
include apart

theorem mem_newFiles_apart
    {new : FileTree.NewFile} :
    new ∈ request.newFiles tree target (converted configuration tree path sources) ↔
      ∃ names ∈ sources, (outcome configuration tree path names).success = true ∧
        new.path = out.below names ∧ new.location = target ++ names ∧
        new.content = Text.encode (outcome configuration tree path names).code := by
  unfold ConvertRequest.newFiles
  rw [List.mem_filterMap]
  constructor
  · rintro ⟨file, inside, isNew⟩
    obtain ⟨names, member, rfl⟩ := mem_converted.mp inside
    obtain ⟨success, rfl⟩ := (newFile?_apart apart).mp isNew
    exact ⟨names, member, success, rfl, rfl, rfl⟩
  · rintro ⟨names, member, success, path_eq, location_eq, content_eq⟩
    refine ⟨_, mem_converted.mpr ⟨names, member, rfl⟩, (newFile?_apart apart).mpr ⟨success, ?_⟩⟩
    dsimp only
    rw [← path_eq, ← location_eq, ← content_eq]

variable
  (found : tree.locate path = .ok start)
  (isDirectory : tree.find? start = some .directory)
  (there : ∀ names ∈ sources, ∃ location, FileAt tree (path.below names) location)
  (onwards : ∀ names ∈ sources, ".." ∉ names)
  (isVacant : IsVacant tree start out target)
include found isDirectory there onwards isVacant

omit apart isDirectory isVacant in
theorem fileAt_append
    {names : List String}
    (member : names ∈ sources) : FileAt tree (path.below names) (start ++ names) := by
  obtain ⟨location, fileAt⟩ := there names member
  rw [← FileTree.eq_append_of_locate (onwards names member) found fileAt.1]
  exact fileAt

omit apart isVacant in
theorem ne_nil_of_mem_sources
    {names : List String}
    (member : names ∈ sources) : names ≠ [] := by
  rintro rfl
  obtain ⟨_, content, isFile⟩ := fileAt_append found there onwards member
  rw [List.append_nil, isDirectory] at isFile
  cases isFile

omit apart isDirectory isVacant in
/-- The selected files are not above each other. -/
theorem eq_of_append_above
    {names others : List String}
    (member : names ∈ sources)
    (otherMember : others ∈ sources)
    (above : target ++ names <+: target ++ others) : names = others := by
  have further := (List.prefix_append_right_inj start).mpr
    ((List.prefix_append_right_inj target).mp above)
  exact List.append_cancel_left ((fileAt_append found there onwards member).apart
    (fileAt_append found there onwards otherMember) further)

theorem canAddAll_apart :
    tree.CanAddAll (request.newFiles tree target (converted configuration tree path sources)) := by
  refine ⟨fun new member => ?_, fun new member later inside above => ?_,
    fun new member later inside same => ?_⟩
  · obtain ⟨names, selected, _, path_eq, location_eq, _⟩ := (mem_newFiles_apart apart).mp member
    rw [path_eq, location_eq]
    refine ⟨isVacant.leads.below (onwards names selected), fun front content above _ => ?_, ?_⟩
    · rcases List.prefix_or_prefix_of_prefix above (List.prefix_append target names) with
        isAbove | inside
      · exact isVacant.reachable front content isAbove
      · exact isVacant.noFile inside content
    · rw [isVacant.find?_append (ne_nil_of_mem_sources found isDirectory there onwards selected)]
      nofun
  · obtain ⟨names, selected, _, _, location_eq, _⟩ := (mem_newFiles_apart apart).mp member
    obtain ⟨others, alsoSelected, _, _, later_eq, _⟩ := (mem_newFiles_apart apart).mp inside
    rw [location_eq, later_eq] at above ⊢
    rw [eq_of_append_above found there onwards selected alsoSelected above]
  · obtain ⟨names, selected, _, _, location_eq, content_eq⟩ := (mem_newFiles_apart apart).mp member
    obtain ⟨others, _, _, _, later_eq, laterContent_eq⟩ := (mem_newFiles_apart apart).mp inside
    rw [location_eq, later_eq] at same
    rw [content_eq, laterContent_eq, List.append_cancel_left same]

theorem convertsApart_of_written
    {after : FileTree}
    (written : tree.Written
      (request.newFiles tree target (converted configuration tree path sources)) after) :
    ConvertsApart configuration tree path start target sources after := by
  refine ⟨fun location content => ⟨fun isFile => ?_, ?_⟩, fun location inside => ?_⟩
  · by_cases added : ∃ new ∈ request.newFiles tree target
        (converted configuration tree path sources), new.location = location
    · obtain ⟨new, member, rfl⟩ := added
      obtain ⟨names, selected, success, _, location_eq, content_eq⟩ :=
        (mem_newFiles_apart apart).mp member
      rw [written.added new member, content_eq] at isFile
      cases isFile
      exact .inr ⟨names, selected, success, location_eq, rfl⟩
    · have noFile : ∀ new ∈ request.newFiles tree target
          (converted configuration tree path sources), new.location ≠ location :=
        fun new member same => added ⟨new, member, same⟩
      rcases written.find?_cases noFile with ⟨_, made⟩ | same
      · rw [made] at isFile
        cases isFile
      · exact .inl (same ▸ isFile)
  · rintro (isFile | ⟨names, selected, success, rfl, rfl⟩)
    · have noFile : ∀ new ∈ request.newFiles tree target
          (converted configuration tree path sources), new.location ≠ location := by
        rintro new member rfl
        obtain ⟨names, selected, _, _, location_eq, _⟩ := (mem_newFiles_apart apart).mp member
        rw [location_eq, isVacant.find?_append
          (ne_nil_of_mem_sources found isDirectory there onwards selected)] at isFile
        cases isFile
      rcases written.find?_cases noFile with ⟨⟨new, member, above⟩, _⟩ | same
      · have canAdd :=
          (canAddAll_apart apart found isDirectory there onwards isVacant).each new member
        exact absurd isFile (canAdd.noFile location content above (noFile new member).symm)
      · rw [same, isFile]
    · exact written.added ⟨out.below names, target ++ names, _⟩
        ((mem_newFiles_apart apart).mpr ⟨names, selected, success, rfl, rfl, rfl⟩)
  · refine written.kept location fun new member => ?_
    obtain ⟨names, _, _, _, location_eq, _⟩ := (mem_newFiles_apart apart).mp member
    rw [location_eq]
    exact isVacant.not_above isDirectory inside

end Apart

end JupiterMigration.CommandLine
