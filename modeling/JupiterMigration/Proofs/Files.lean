import JupiterMigration.Files.Pattern
import JupiterMigration.Files.Tree
import Mathlib.Data.List.Basic

/-!
# Writing and selecting files

`FileTree.LeadsTo` says which location a path leads to once all directories on the way are there.
Adding a file makes these directories and puts the file at its location, and changes nothing else
(`FileTree.holds_addFile`).  Files that do not stand in each other's way can be added one after the
other, and the order does not matter (`FileTree.Written`, `FileTree.written_addFile`).

In a pattern, a star before letters stands for every name that ends in them
(`WildcardPiece.match?_endings`), and selects these names in a directory
(`FileTree.select_endings`).
-/

namespace JupiterMigration.FileTree

variable {tree other : FileTree} {location : Location}

/-! ## Following names -/

theorem follow_append (tree : FileTree) (location : Location) (front back : List String) :
    tree.follow location (front ++ back) =
      (tree.follow location front).bind fun start => tree.follow start back := by
  induction front generalizing location with
  | nil => rfl
  | cons name rest inductionHypothesis =>
      rw [List.cons_append, follow, follow]
      split
      · rfl
      · rfl
      · split
        · split
          · rfl
          · exact inductionHypothesis _
        · exact inductionHypothesis _

/-- Everything above a location is a directory. -/
def IsOpen (tree : FileTree) (location : Location) : Prop :=
  ∀ front, front <+: location → front ≠ location → tree.find? front = some .directory

theorem isOpen_nil (tree : FileTree) : tree.IsOpen [] :=
  fun _ above differs => absurd (List.prefix_nil.mp above) differs

theorem isOpen_concat {name : String} :
    tree.IsOpen (location ++ [name]) ↔
      tree.IsOpen location ∧ tree.find? location = some .directory := by
  constructor
  · intro isOpen
    have differs : location ≠ location ++ [name] := by simp
    refine ⟨fun front above _ => isOpen front (above.trans (List.prefix_append _ _)) ?_,
      isOpen location (List.prefix_append _ _) differs⟩
    rintro rfl
    have longer := above.length_le
    rw [List.length_append, List.length_singleton] at longer
    omega
  · rintro ⟨isOpen, isDirectory⟩ front above differs
    rcases List.prefix_concat_iff.mp above with same | above
    · exact absurd same differs
    · by_cases same : front = location
      · rw [same, isDirectory]
      · exact isOpen front above same

/-- No file stands above a location that is below directories. -/
theorem IsOpen.eq_of_above
    {place : Location}
    {content : ByteArray}
    (isOpen : tree.IsOpen location)
    (isFile : tree.find? place = some (.file content))
    (above : place <+: location) : place = location := by
  by_contra differs
  rw [isOpen place above differs] at isFile
  cases isFile

/-- Names are followed through directories only. -/
theorem isOpen_of_follow
    {names : List String}
    {result : Location}
    (isOpen : tree.IsOpen location)
    (found : tree.follow location names = .ok result) : tree.IsOpen result := by
  induction names generalizing location with
  | nil =>
      cases found
      exact isOpen
  | cons name rest inductionHypothesis =>
      rw [follow] at found
      split at found
      · cases found
      · cases found
      · next isDirectory =>
          split at found
          · split at found
            · cases found
            · refine inductionHypothesis (fun front above differs => ?_) found
              refine isOpen front (above.trans (List.dropLast_prefix _)) ?_
              rintro rfl
              exact differs (above.eq_of_length_le (by simp))
          · exact inductionHypothesis (isOpen_concat.mpr ⟨isOpen, isDirectory⟩) found

/-- Without a way back, names lead on, unless something on the way is missing or a file. -/
theorem follow_of_not_mem
    {names : List String}
    (onwards : ".." ∉ names)
    (noFile : ∀ front content, front <+: location ++ names → front ≠ location ++ names →
      tree.find? front ≠ some (.file content)) :
    tree.follow location names = .ok (location ++ names) ∨
      names ≠ [] ∧ tree.follow location names = .error .missing := by
  induction names generalizing location with
  | nil => exact .inl (by rw [follow, List.append_nil])
  | cons name rest inductionHypothesis =>
      obtain ⟨isName, onwards⟩ := not_or.mp (mt List.mem_cons.mpr onwards)
      have above : location <+: location ++ name :: rest := List.prefix_append _ _
      rw [follow]
      split
      · exact .inr ⟨List.cons_ne_nil _ _, rfl⟩
      · next content isFile => exact absurd isFile (noFile _ content above (by simp))
      · rw [if_neg (Ne.symm isName)]
        have whole : location ++ [name] ++ rest = location ++ name :: rest := by simp
        have later : tree.follow (location ++ [name]) rest = .ok (location ++ [name] ++ rest) ∨
            rest ≠ [] ∧ tree.follow (location ++ [name]) rest = .error .missing :=
          inductionHypothesis onwards (whole ▸ noFile)
        rw [whole] at later
        exact later.imp_right fun missing => ⟨List.cons_ne_nil _ _, missing.2⟩

/-- Names without a way back lead on through directories. -/
theorem follow_of_isOpen
    {names : List String}
    (onwards : ".." ∉ names)
    (isOpen : tree.IsOpen (location ++ names)) :
    tree.follow location names = .ok (location ++ names) := by
  induction names generalizing location with
  | nil => rw [follow, List.append_nil]
  | cons name rest inductionHypothesis =>
      obtain ⟨isName, onwards⟩ := not_or.mp (mt List.mem_cons.mpr onwards)
      have whole : location ++ [name] ++ rest = location ++ name :: rest := by simp
      have isDirectory := isOpen location (List.prefix_append _ _) (by simp)
      have later := inductionHypothesis onwards (whole ▸ isOpen)
      rw [follow, isDirectory]
      dsimp only
      rw [if_neg (Ne.symm isName), later, whole]

/-- Names without a way back lead straight on. -/
theorem eq_append_of_follow
    {names : List String}
    {result : Location}
    (onwards : ".." ∉ names)
    (found : tree.follow location names = .ok result) : result = location ++ names := by
  induction names generalizing location with
  | nil =>
      cases found
      exact (List.append_nil _).symm
  | cons name rest inductionHypothesis =>
      obtain ⟨isName, onwards⟩ := not_or.mp (mt List.mem_cons.mpr onwards)
      rw [follow] at found
      split at found
      · cases found
      · cases found
      · rw [if_neg (Ne.symm isName)] at found
        rw [inductionHypothesis onwards found, List.append_assoc, List.singleton_append]

/-- Names lead to the same location if directories stay where they are. -/
theorem follow_mono
    {names : List String}
    {result : Location}
    (keeps : ∀ place, tree.find? place = some .directory → other.find? place = some .directory)
    (found : tree.follow location names = .ok result) :
    other.follow location names = .ok result := by
  induction names generalizing location with
  | nil => exact found
  | cons name rest inductionHypothesis =>
      rw [follow] at found
      split at found
      · cases found
      · cases found
      · next isDirectory =>
          rw [follow, keeps location isDirectory]
          dsimp only
          split at found
          · split at found
            · cases found
            · next isBack notTop =>
                rw [if_pos isBack, if_neg notTop]
                exact inductionHypothesis found
          · next isName =>
              rw [if_neg isName]
              exact inductionHypothesis found

/-! ## Where paths lead to -/

/--
A path leads to a location if its names do, except that the last ones of them, without a way back,
need not lead to anything yet.
-/
structure LeadsTo (tree : FileTree) (path : Path) (location : Location) : Prop where
  relative : path.anchor = ""
  way : ∃ front back start, path.names = front ++ back ∧ ".." ∉ back ∧
    tree.follow [] front = .ok start ∧ location = start ++ back

theorem locate_of_relative
    {path : Path}
    (relative : path.anchor = "") :
    tree.locate path = (tree.follow [] path.names).mapError fun problem => ⟨problem, path⟩ := by
  unfold locate
  rw [relative]
  cases tree.follow [] path.names <;> rfl

/-- Going on from a path without a way back leads straight on from its location. -/
theorem eq_append_of_locate
    {path : Path}
    {names : List String}
    {result : Location}
    (onwards : ".." ∉ names)
    (start : tree.locate path = .ok location)
    (found : tree.locate (path.below names) = .ok result) : result = location ++ names := by
  have relative : path.anchor = "" := by
    unfold locate at start
    split at start
    · next relative => exact String.isEmpty_iff.mp relative
    · cases start
  have below : (path.below names).anchor = "" := relative
  rw [locate_of_relative relative] at start
  rw [locate_of_relative below, Path.below, follow_append] at found
  cases followed : tree.follow [] path.names with
  | error problem =>
      rw [followed] at start
      cases start
  | ok place =>
      rw [followed] at start found
      obtain rfl : place = location := Except.ok.inj start
      cases reached : tree.follow place names with
      | error problem =>
          simp [Except.bind, reached, Except.mapError] at found
      | ok last =>
          simp only [Except.bind, reached, Except.mapError, Except.ok.injEq] at found
          rw [← found, eq_append_of_follow onwards reached]

theorem leadsTo_of_locate
    {path : Path}
    (found : tree.locate path = .ok location) : tree.LeadsTo path location := by
  unfold locate at found
  split at found
  · next relative =>
      split at found
      · next followed =>
          cases found
          exact ⟨String.isEmpty_iff.mp relative, path.names, [], location,
            (List.append_nil _).symm, List.not_mem_nil, followed, (List.append_nil _).symm⟩
      · cases found
  · cases found

/-- Paths lead to the same location if directories stay where they are. -/
theorem locate_mono
    {path : Path}
    (keeps : ∀ place, tree.find? place = some .directory → other.find? place = some .directory)
    (found : tree.locate path = .ok location) : other.locate path = .ok location := by
  unfold locate at found ⊢
  split at found
  · next relative =>
      rw [if_pos relative]
      split at found
      · next followed =>
          cases found
          rw [follow_mono keeps followed]
      · cases found
  · cases found

theorem isOpen_of_locate
    {path : Path}
    (found : tree.locate path = .ok location) : tree.IsOpen location := by
  unfold locate at found
  split at found
  · split at found
    · next followed =>
        cases found
        exact isOpen_of_follow (isOpen_nil tree) followed
    · cases found
  · cases found

namespace LeadsTo

variable {path : Path}

theorem below
    {names : List String}
    (leads : tree.LeadsTo path location)
    (onwards : ".." ∉ names) : tree.LeadsTo (path.below names) (location ++ names) := by
  obtain ⟨relative, front, back, start, names_eq, backOnwards, followed, rfl⟩ := leads
  refine ⟨relative, front, back ++ names, start, ?_, ?_, followed, List.append_assoc _ _ _⟩
  · rw [Path.below, names_eq, List.append_assoc]
  · rw [List.mem_append, not_or]
    exact ⟨backOnwards, onwards⟩

/-- A path still leads to its location if directories stay where they are. -/
theorem mono
    (keeps : ∀ place, tree.find? place = some .directory → other.find? place = some .directory)
    (leads : tree.LeadsTo path location) : other.LeadsTo path location := by
  obtain ⟨relative, front, back, start, names_eq, onwards, followed, location_eq⟩ := leads
  exact ⟨relative, front, back, start, names_eq, onwards, follow_mono keeps followed, location_eq⟩

/-- A path leads to a location below directories. -/
theorem locate_eq (leads : tree.LeadsTo path location) (isOpen : tree.IsOpen location) :
    tree.locate path = .ok location := by
  obtain ⟨relative, front, back, start, names_eq, onwards, followed, rfl⟩ := leads
  rw [locate_of_relative relative, names_eq, follow_append, followed]
  simp [Except.bind, follow_of_isOpen onwards isOpen, Except.mapError]

/-- Unless it leads to a directory, a path without its last name leads to the location above. -/
theorem parent
    (leads : tree.LeadsTo path location)
    (noDirectory : tree.find? location ≠ some .directory) :
    ∃ above name, location = above ++ [name] ∧ tree.LeadsTo path.parent above := by
  obtain ⟨relative, front, back, start, names_eq, onwards, followed, rfl⟩ := leads
  rcases List.eq_nil_or_concat' back with rfl | ⟨init, name, rfl⟩
  · rcases List.eq_nil_or_concat' front with rfl | ⟨init, name, rfl⟩
    · cases followed
      exact absurd rfl noDirectory
    · rw [List.append_nil] at noDirectory ⊢
      rw [follow_append] at followed
      cases reached : tree.follow [] init with
      | error problem =>
          rw [reached] at followed
          cases followed
      | ok above =>
          -- The last name is no way back, which would lead to a directory.
          have isOpen := isOpen_of_follow (isOpen_nil tree) reached
          rw [reached] at followed
          simp only [Except.bind, follow] at followed
          split at followed
          · cases followed
          · cases followed
          · split at followed
            · split at followed
              · cases followed
              · next notTop =>
                  cases followed
                  refine absurd (isOpen _ (List.dropLast_prefix _) fun same => notTop ?_)
                    noDirectory
                  have length_eq := congrArg List.length same
                  rw [List.length_dropLast] at length_eq
                  exact List.eq_nil_of_length_eq_zero (by omega)
            · cases followed
              refine ⟨above, name, rfl, relative, init, [], above, ?_, List.not_mem_nil, reached,
                (List.append_nil _).symm⟩
              simp [Path.parent, names_eq]
  · refine ⟨start ++ init, name, (List.append_assoc _ _ _).symm, relative, front, init, start, ?_,
      fun inside => onwards (List.mem_append_left _ inside), followed, rfl⟩
    rw [Path.parent, names_eq, ← List.append_assoc, List.dropLast_concat]

end LeadsTo

/-! ## Making directories -/

/-- What a tree holds once there are directories down to a location. -/
def Reaches (tree : FileTree) (location : Location) (other : FileTree) : Prop :=
  ∀ place, other.find? place =
    if place <+: location then some .directory else tree.find? place

theorem Reaches.keeps
    (reaches : tree.Reaches location other)
    {place : Location}
    (isDirectory : tree.find? place = some .directory) :
    other.find? place = some .directory := by
  rw [reaches place]
  split
  · rfl
  · exact isDirectory

theorem Reaches.isOpen
    {name : String}
    (reaches : tree.Reaches location other) : other.IsOpen (location ++ [name]) := by
  have above (front : Location) (isAbove : front <+: location) :
      other.find? front = some .directory := by
    rw [reaches front, if_pos isAbove]
  exact isOpen_concat.mpr ⟨fun front isAbove _ => above front isAbove,
    above location (List.prefix_refl location)⟩

/-- If there are directories down to a location, nothing needs to be made. -/
theorem reaches_self
    (isOpen : tree.IsOpen location)
    (isDirectory : tree.find? location = some .directory) : tree.Reaches location tree := by
  intro place
  split
  · next above =>
      by_cases same : place = location
      · rw [same, isDirectory]
      · exact isOpen place above same
  · rfl

/-- Making the directory at a location is all that is needed below directories. -/
theorem reaches_put
    (isOpen : tree.IsOpen location)
    (inside : location ≠ []) : tree.Reaches location (tree.put location .directory) := by
  intro place
  rw [find?_put tree location place .directory inside]
  by_cases same : place = location
  · rw [if_pos same, if_pos (same ▸ List.prefix_refl place)]
  · rw [if_neg same]
    split
    · next above => exact isOpen place above same
    · rfl

/-- Directories down to a location, one step further. -/
theorem Reaches.concat
    {name : String}
    {last : FileTree}
    (reaches : tree.Reaches location other)
    (further : other.Reaches (location ++ [name]) last) :
    tree.Reaches (location ++ [name]) last := by
  intro place
  rw [further place]
  split
  · rfl
  · next notAbove =>
      rw [reaches place, if_neg fun above => notAbove (above.trans (List.prefix_append _ _))]

/-- Making the directory that a path leads to, below directories. -/
theorem makeDirectory_of_isOpen
    {path : Path}
    (leads : tree.LeadsTo path location)
    (isOpen : tree.IsOpen location)
    (noFile : ∀ content, tree.find? location ≠ some (.file content)) :
    (∃ made, tree.makeDirectory path = .ok made ∧ tree.Reaches location made) ∨
      tree.makeDirectory path = .error ⟨.alreadyThere, path⟩ ∧ tree.isDirectory path = true ∧
        tree.Reaches location tree := by
  have found := leads.locate_eq isOpen
  cases entry_eq : tree.find? location with
  | none =>
      refine .inl ⟨_, ?_, reaches_put isOpen ?_⟩
      · simp [makeDirectory, found, entry_eq, bind, Except.bind, pure, Except.pure]
      · rintro rfl
        cases entry_eq
  | some entry =>
      cases entry with
      | file content => exact absurd entry_eq (noFile content)
      | directory =>
          refine .inr ⟨?_, ?_, reaches_self isOpen entry_eq⟩
          · simp [makeDirectory, found, entry_eq, bind, Except.bind, throw, throwThe,
              MonadExceptOf.throw]
          · simp [isDirectory, findAt?, found, entry_eq]

theorem ensureDirectory_of_isOpen
    {path : Path}
    (leads : tree.LeadsTo path location)
    (isOpen : tree.IsOpen location)
    (noFile : ∀ content, tree.find? location ≠ some (.file content)) :
    ∃ made, tree.ensureDirectory path = .ok made ∧ tree.Reaches location made := by
  unfold ensureDirectory
  rcases makeDirectory_of_isOpen leads isOpen noFile with
    ⟨made, made_eq, reaches⟩ | ⟨error_eq, isDirectory, reaches⟩
  · exact ⟨made, by rw [made_eq], reaches⟩
  · exact ⟨tree, by rw [error_eq]; simp [isDirectory], reaches⟩

/-- A path leads through directories, or something on its way is missing. -/
theorem LeadsTo.locate_cases
    {path : Path}
    (leads : tree.LeadsTo path location)
    (noFile : ∀ front content, front <+: location → front ≠ location →
      tree.find? front ≠ some (.file content)) :
    tree.locate path = .ok location ∨
      tree.locate path = .error ⟨.missing, path⟩ ∧
        ∃ above name, location = above ++ [name] ∧ tree.LeadsTo path.parent above := by
  obtain ⟨relative, front, back, start, names_eq, onwards, followed, rfl⟩ := leads
  rw [locate_of_relative relative, names_eq, follow_append, followed]
  rcases follow_of_not_mem onwards noFile with found | ⟨nonempty, missing⟩
  · exact .inl (by simp [Except.bind, found, Except.mapError])
  · refine .inr ⟨by simp [Except.bind, missing, Except.mapError], ?_⟩
    rcases List.eq_nil_or_concat' back with rfl | ⟨init, name, rfl⟩
    · exact absurd rfl nonempty
    · refine ⟨start ++ init, name, (List.append_assoc _ _ _).symm, relative, front, init, start, ?_,
        fun inside => onwards (List.mem_append_left _ inside), followed, rfl⟩
      rw [Path.parent, names_eq, ← List.append_assoc, List.dropLast_concat]

/-- Where no file is in the way, the directories down to a location are made. -/
theorem ensureDirectories_of_leadsTo
    {tree : FileTree}
    {location : Location}
    {path : Path}
    (leads : tree.LeadsTo path location)
    (noFile : ∀ front content, front <+: location → tree.find? front ≠ some (.file content)) :
    ∃ made, tree.ensureDirectories path = .ok made ∧ tree.Reaches location made := by
  rcases leads.locate_cases fun front content above _ => noFile front content above with
    found | ⟨missing, above, name, rfl, leadsAbove⟩
  · have isOpen := isOpen_of_locate found
    unfold ensureDirectories
    rcases makeDirectory_of_isOpen leads isOpen fun content => noFile _ content List.prefix_rfl with
      ⟨made, made_eq, reaches⟩ | ⟨error_eq, isDirectory, reaches⟩
    · exact ⟨made, by rw [made_eq], reaches⟩
    · exact ⟨tree, by rw [error_eq]; simp [isDirectory], reaches⟩
  · have isAbove : above <+: above ++ [name] := List.prefix_append _ _
    have error_eq : tree.makeDirectory path = .error ⟨.missing, path⟩ := by
      simp [makeDirectory, missing, bind, Except.bind]
    have noDirectory : tree.isDirectory path = false := by
      simp [isDirectory, findAt?, missing]
    have nonempty : path.names ≠ [] := by
      intro nothing
      rw [locate_of_relative leads.relative, nothing] at missing
      cases missing
    obtain ⟨made, made_eq, reaches⟩ := ensureDirectories_of_leadsTo leadsAbove
      fun front content isFront => noFile front content (isFront.trans isAbove)
    have noFileBelow : ∀ content, made.find? (above ++ [name]) ≠ some (.file content) := by
      intro content
      rw [reaches]
      split
      · simp
      · exact noFile _ content List.prefix_rfl
    obtain ⟨last, last_eq, further⟩ :=
      ensureDirectory_of_isOpen (leads.mono fun _ => reaches.keeps) reaches.isOpen noFileBelow
    refine ⟨last, ?_, reaches.concat further⟩
    rw [ensureDirectories, error_eq]
    simp [noDirectory, nonempty, made_eq, last_eq, bind, Except.bind]
  termination_by path.names.length
  decreasing_by
    have := List.length_pos_iff.mpr nonempty
    simp only [Path.parent, List.length_dropLast]
    omega

/-! ## Adding files -/

/-- What a tree holds once a file has been put at a location, and directories above it. -/
def Holds (tree : FileTree) (location : Location) (content : ByteArray) (other : FileTree) : Prop :=
  ∀ place, other.find? place =
    if place = location then some (.file content)
    else if place <+: location then some .directory
    else tree.find? place

/-- A file can be added for a path: no file is in the way, and no directory is where it goes. -/
structure CanAdd (tree : FileTree) (path : Path) (location : Location) : Prop where
  leads : tree.LeadsTo path location
  noFile : ∀ front content, front <+: location → front ≠ location →
    tree.find? front ≠ some (.file content)
  noDirectory : tree.find? location ≠ some .directory

/-- A file is added where it can be. -/
theorem holds_addFile
    {path : Path}
    (canAdd : tree.CanAdd path location)
    (content : ByteArray) :
    ∃ added, tree.addFile path content = .ok added ∧ tree.Holds location content added := by
  obtain ⟨above, name, rfl, leadsAbove⟩ := canAdd.leads.parent canAdd.noDirectory
  have isAbove : above <+: above ++ [name] := List.prefix_append _ _
  have notAbove : ¬above ++ [name] <+: above := by
    intro isLonger
    have longer := isLonger.length_le
    rw [List.length_append, List.length_singleton] at longer
    omega
  obtain ⟨made, made_eq, reaches⟩ := ensureDirectories_of_leadsTo leadsAbove
    fun front other isFront => canAdd.noFile front other (isFront.trans isAbove) fun same =>
      notAbove (same ▸ isFront)
  have found := (canAdd.leads.mono fun _ => reaches.keeps).locate_eq reaches.isOpen
  have there : made.find? (above ++ [name]) = tree.find? (above ++ [name]) := by
    rw [reaches, if_neg notAbove]
  refine ⟨made.put (above ++ [name]) (.file content), ?_, fun place => ?_⟩
  · have written : made.write path content = .ok (made.put (above ++ [name]) (.file content)) := by
      have noDirectory := canAdd.noDirectory
      unfold write
      rw [found]
      simp only [bind, Except.bind, there]
      rfl
    simp [addFile, made_eq, written, bind, Except.bind]
  · rw [find?_put _ _ _ _ (by simp), reaches]
    by_cases same : place = above ++ [name]
    · rw [if_pos same, if_pos same]
    · rw [if_neg same, if_neg same]
      simp only [List.prefix_concat_iff, same, false_or]

/-! ## Adding many files -/

/-- A file to be added: where it goes, and what it holds. -/
structure NewFile where
  path : Path
  location : Location
  content : ByteArray

/-- Files that can be added to a tree without standing in each other's way. -/
structure CanAddAll (tree : FileTree) (files : List NewFile) : Prop where
  each : ∀ file ∈ files, tree.CanAdd file.path file.location
  apart : ∀ file ∈ files, ∀ later ∈ files, file.location <+: later.location →
    file.location = later.location
  agree : ∀ file ∈ files, ∀ later ∈ files, file.location = later.location →
    file.content = later.content

theorem CanAddAll.mono
    {files fewer : List NewFile}
    (canAddAll : tree.CanAddAll files)
    (among : fewer ⊆ files) : tree.CanAddAll fewer where
  each file member := canAddAll.each file (among member)
  apart file member later inside := canAddAll.apart file (among member) later (among inside)
  agree file member later inside := canAddAll.agree file (among member) later (among inside)

/-- What a tree holds once files have been added, and the directories above them. -/
structure Written (tree : FileTree) (files : List NewFile) (other : FileTree) : Prop where
  added : ∀ file ∈ files, other.find? file.location = some (.file file.content)
  directories : ∀ place, (∀ file ∈ files, file.location ≠ place) →
    ∀ file ∈ files, place <+: file.location → other.find? place = some .directory
  kept : ∀ place, (∀ file ∈ files, ¬place <+: file.location) →
    other.find? place = tree.find? place

theorem written_nil (tree : FileTree) : tree.Written [] tree :=
  ⟨nofun, nofun, fun _ _ => rfl⟩

section Written

variable {files : List NewFile} {file : NewFile}

/-- A place at which no file has been added holds a directory or what it held before. -/
theorem Written.find?_cases
    (written : tree.Written files other)
    {place : Location}
    (noFile : ∀ file ∈ files, file.location ≠ place) :
    (∃ file ∈ files, place <+: file.location) ∧ other.find? place = some .directory ∨
      other.find? place = tree.find? place := by
  by_cases above : ∃ file ∈ files, place <+: file.location
  · obtain ⟨file, member, isAbove⟩ := above
    exact .inl ⟨⟨file, member, isAbove⟩, written.directories place noFile file member isAbove⟩
  · exact .inr (written.kept place fun file member isAbove => above ⟨file, member, isAbove⟩)

/-- Directories stay where they are when files are added. -/
theorem Written.keeps_directory
    (written : tree.Written files other)
    (canAdd : ∀ file ∈ files, tree.find? file.location ≠ some .directory)
    {place : Location}
    (isDirectory : tree.find? place = some .directory) :
    other.find? place = some .directory := by
  have noFile : ∀ file ∈ files, file.location ≠ place := by
    rintro file member rfl
    exact canAdd file member isDirectory
  rcases written.find?_cases noFile with ⟨_, made⟩ | same
  · exact made
  · rw [same, isDirectory]

/-- After some files have been added, the next one can be. -/
theorem Written.canAdd
    (written : tree.Written files other)
    (canAddAll : tree.CanAddAll (files ++ [file])) : other.CanAdd file.path file.location := by
  have last : file ∈ files ++ [file] := List.mem_append_right _ List.mem_cons_self
  have earlier {added : NewFile} (member : added ∈ files) : added ∈ files ++ [file] :=
    List.mem_append_left _ member
  have canAdd := canAddAll.each file last
  refine ⟨canAdd.leads.mono fun _ => written.keeps_directory fun added member =>
    (canAddAll.each added (earlier member)).noDirectory, ?_, ?_⟩
  · intro front content isFront differs
    have noFile : ∀ added ∈ files, added.location ≠ front := by
      rintro added member rfl
      exact differs (canAddAll.apart added (earlier member) file last isFront)
    rcases written.find?_cases noFile with ⟨_, made⟩ | same
    · rw [made]
      nofun
    · rw [same]
      exact canAdd.noFile front content isFront differs
  · by_cases again : ∃ added ∈ files, added.location = file.location
    · obtain ⟨added, member, location_eq⟩ := again
      rw [← location_eq, written.added added member]
      nofun
    · have noFile : ∀ added ∈ files, added.location ≠ file.location :=
        fun added member same => again ⟨added, member, same⟩
      rcases written.find?_cases noFile with ⟨⟨added, member, above⟩, _⟩ | same
      · exact absurd (canAddAll.apart file last added (earlier member) above).symm
          (noFile added member)
      · rw [same]
        exact canAdd.noDirectory

/-- Files that can be added one by one are added in a row. -/
theorem Written.concat
    {last : FileTree}
    (written : tree.Written files other)
    (canAddAll : tree.CanAddAll (files ++ [file]))
    (holds : other.Holds file.location file.content last) :
    tree.Written (files ++ [file]) last := by
  have member : file ∈ files ++ [file] := List.mem_append_right _ List.mem_cons_self
  have earlier {added : NewFile} (member : added ∈ files) : added ∈ files ++ [file] :=
    List.mem_append_left _ member
  refine ⟨fun added inside => ?_, fun place noFile added inside above => ?_, fun place noFile => ?_⟩
  · by_cases same : added.location = file.location
    · rw [holds, if_pos same, canAddAll.agree added inside file member same]
    · have notAbove : ¬added.location <+: file.location := fun above =>
        same (canAddAll.apart added inside file member above)
      rcases List.mem_append.mp inside with isEarlier | isLast
      · rw [holds, if_neg same, if_neg notAbove, written.added added isEarlier]
      · exact absurd (congrArg NewFile.location (List.mem_singleton.mp isLast)) same
  · rw [holds, if_neg fun same => noFile file member same.symm]
    split
    · rfl
    · next notAbove =>
        rcases List.mem_append.mp inside with isEarlier | isLast
        · exact written.directories place (fun other inside => noFile other (earlier inside)) added
            isEarlier above
        · rw [List.mem_singleton.mp isLast] at above
          exact absurd above notAbove
  · have notAbove := noFile file member
    have elsewhere : place ≠ file.location := fun same => notAbove (same ▸ List.prefix_rfl)
    rw [holds, if_neg elsewhere, if_neg notAbove]
    exact written.kept place fun added inside => noFile added (earlier inside)

/-- One more file is added. -/
theorem written_addFile
    (written : tree.Written files other)
    (canAddAll : tree.CanAddAll (files ++ [file])) :
    ∃ added, other.addFile file.path file.content = .ok added ∧
      tree.Written (files ++ [file]) added := by
  obtain ⟨added, added_eq, holds⟩ := holds_addFile (written.canAdd canAddAll) file.content
  exact ⟨added, added_eq, written.concat canAddAll holds⟩

end Written

end JupiterMigration.FileTree

namespace JupiterMigration.WildcardPiece

theorem match?_literals
    (letters text : List Char) :
    match? (letters.map literal) text = (letters == text) := by
  induction letters generalizing text with
  | nil => cases text <;> simp [match?]
  | cons letter rest inductionHypothesis =>
      cases text with
      | nil => simp [match?]
      | cons c text =>
          have swapped : decide (c = letter) = (letter == c) := by
            rw [Bool.beq_comm]
            rfl
          rw [List.map_cons, match?, inductionHypothesis, accepts, List.cons_beq_cons, swapped]
          intro isAnyText
          cases isAnyText

/-- A star before letters stands for what ends in them. -/
theorem match?_endings
    (letters text : List Char) :
    match? (anyText :: letters.map literal) text = letters.isSuffixOf text := by
  rw [Bool.eq_iff_iff, List.isSuffixOf_iff_suffix]
  induction text with
  | nil => rw [match?, match?_literals, beq_iff_eq, List.suffix_nil]
  | cons c rest inductionHypothesis =>
      rw [match?, match?_literals, Bool.or_eq_true, beq_iff_eq, inductionHypothesis,
        List.suffix_cons_iff]

end JupiterMigration.WildcardPiece

namespace JupiterMigration.FileTree

variable
  {tree : FileTree}
  {root : Path}
  {names : List String}

/-- A name that is there leads on to what the other parts select. -/
theorem select_name
    {directory : Bool}
    {name : String}
    {rest : List PatternPart}
    (there : tree.containsFor (directory || !rest.isEmpty) (root.below (names ++ [name])) = true) :
    tree.select root directory (.name name :: rest) names =
      tree.select root directory rest (names ++ [name]) :=
  if_pos there

/-- In a directory, a star before letters selects the names that end in them. -/
theorem select_endings
    {location : Location}
    (located : tree.locate (root.below names) = .ok location)
    (letters : List Char) :
    tree.select root false [.wildcard (.anyText :: letters.map .literal)] names =
      (((tree.children location).map Prod.fst).filter fun name =>
        letters.isSuffixOf name.toList).map fun name => names ++ [name] := by
  simp only [select, located, WildcardPiece.match?_endings]
  induction tree.children location with
  | nil => rfl
  | cons child rest inductionHypothesis =>
      rw [List.flatMap_cons, inductionHypothesis]
      by_cases fits : letters.isSuffixOf child.1.toList
      · simp [fits]
      · simp [fits]

end JupiterMigration.FileTree
