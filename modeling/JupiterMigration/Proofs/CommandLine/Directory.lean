import JupiterMigration.CommandLine
import JupiterMigration.Proofs.CommandLine.Destination

/-!
# Converting and checking directories

The main result is what a conversion of the files of a directory does to all files, in place or into
another directory, and when it gives the exit code zero; a check foretells a conversion in place
(`CommandLine.convert_and_check_directory`).  Names that lead back defeat the other directory: files
can be overwritten in the first one instead (`CommandLine.input_overwritten`).
-/

namespace JupiterMigration.CommandLine

open Command

variable
  {tree : FileTree}
  {request : ConvertRequest}
  {configuration : Configuration}
  {sources : List (List String)}

theorem exitCode_converted_eq_zero_iff
    (configuration : Configuration)
    (tree : FileTree)
    (path : Path)
    (sources : List (List String)) :
    exitCode (converted configuration tree path sources) = 0 ↔
      ∀ names ∈ sources, (outcome configuration tree path names).success = true := by
  simp [exitCode, converted]

/-- The handling of selected files only needs to be told that they can be written. -/
theorem ends_handleSelected
    {target : Location}
    (isDirectory : tree.isDirectory request.path = true)
    (canAddAll : tree.CanAddAll
      (request.newFiles tree target (converted configuration tree request.path sources)))
    (clear : ∀ names ∈ sources, ∀ location, tree.locate (request.path.below names) = .ok location →
      ∀ new ∈ request.newFiles tree target (converted configuration tree request.path sources),
        location <+: new.location → new.location = location) :
    Ends ((converted configuration tree request.path sources).forM (handle request)) tree
      fun _ after => tree.Written
        (request.newFiles tree target (converted configuration tree request.path sources))
          after := by
  refine ends_handleAll isDirectory (fun file inside changed => ?_) canAddAll
    fun file inside location found => ?_
  · obtain ⟨names, _, rfl⟩ := mem_converted.mp inside
    obtain ⟨_, text, readable, _⟩ := outcome_changed_iff.mp changed
    exact ⟨text, readable⟩
  · obtain ⟨names, member, rfl⟩ := mem_converted.mp inside
    exact clear names member location found

/-- Unless a file holds its new code already, it is another file after it has been rewritten. -/
theorem ConvertsInPlace.unchanged_iff
    {path : Path}
    {after : FileTree}
    (converts : ConvertsInPlace configuration tree path sources after) :
    (∀ location, after.find? location = tree.find? location) ↔
      ∀ names ∈ sources, (outcome configuration tree path names).changed = false := by
  constructor
  · intro same names member
    by_contra changed
    rw [Bool.not_eq_false] at changed
    obtain ⟨success, text, readable, differs⟩ := outcome_changed_iff.mp changed
    obtain ⟨location, located, isFile⟩ := converts.rewritten names member success changed
    obtain ⟨place, content, found, wasFile, decoded⟩ := readText_eq_ok_iff.mp readable
    obtain rfl : location = place := Except.ok.inj (located.symm.trans found)
    rw [same, wasFile, Option.some.injEq, Entry.file.injEq] at isFile
    rw [isFile, Text.decode_encode] at decoded
    exact differs (Except.ok.inj decoded)
  · intro unchanged location
    refine converts.kept location fun names member _ both => ?_
    rw [unchanged names member] at both
    exact absurd both.2 Bool.false_ne_true

section Ends

variable
  {root : String}
  (isDirectory : tree.isDirectory request.path = true)
  (accepted : (Configuration.load root tree request.path request.settings).result =
    .ok configuration)
  (selected : tree.sources request.path configuration = .ok sources)
  (untraced : request.jsonTrace = none)
include isDirectory accepted selected untraced

theorem ends_convert_inPlace (inPlace : request.out = none) :
    (convert request).Ends tree fun code after =>
      (code = 0 ↔ ∀ names ∈ sources,
        (outcome configuration tree request.path names).success = true) ∧
      ConvertsInPlace configuration tree request.path sources after := by
  have there (names : List String) (member : names ∈ sources) :
      ∃ location, FileAt tree (request.path.below names) location :=
    exists_fileAt_of_selected isDirectory selected member
  have canAddAll : tree.CanAddAll
      (request.newFiles tree [] (converted configuration tree request.path sources)) :=
    canAddAll_inPlace inPlace there []
  have handles := ends_handleSelected isDirectory canAddAll
    fun names member location located new inside above => by
      obtain ⟨place, fileAt⟩ := there names member
      obtain rfl : place = location := Except.ok.inj (fileAt.1.symm.trans located)
      obtain ⟨_, _, _, _, _, newAt, _⟩ := (mem_newFiles_inPlace inPlace there).mp inside
      exact (fileAt.apart newAt above).symm
  refine (ends_convert isDirectory accepted selected untraced handles).mono ?_
  rintro _ after ⟨rfl, written⟩
  exact ⟨exitCode_converted_eq_zero_iff configuration tree request.path sources,
    convertsInPlace_of_written inPlace there written⟩

theorem ends_convert_apart
    {out : Path}
    {start target : Location}
    (apart : request.out = some out)
    (found : tree.locate request.path = .ok start)
    (onwards : ∀ names ∈ sources, ".." ∉ names)
    (isVacant : IsVacant tree start out target) :
    (convert request).Ends tree fun code after =>
      (code = 0 ↔ ∀ names ∈ sources,
        (outcome configuration tree request.path names).success = true) ∧
      ConvertsApart configuration tree request.path start target sources after := by
  have there (names : List String) (member : names ∈ sources) :
      ∃ location, FileAt tree (request.path.below names) location :=
    exists_fileAt_of_selected isDirectory selected member
  have isStart : tree.find? start = some .directory := by
    have entry_eq := findAt?_of_isDirectory isDirectory
    rw [FileTree.findAt?, found] at entry_eq
    exact entry_eq
  have canAddAll : tree.CanAddAll
      (request.newFiles tree target (converted configuration tree request.path sources)) :=
    canAddAll_apart apart found isStart there onwards isVacant
  have handles := ends_handleSelected isDirectory canAddAll
    fun names member location located new inside above => by
      obtain rfl := FileTree.eq_append_of_locate (onwards names member) found located
      obtain ⟨others, _, _, _, location_eq, _⟩ := (mem_newFiles_apart apart).mp inside
      rw [location_eq] at above
      exact absurd above (isVacant.not_above isStart (List.prefix_append _ _))
  refine (ends_convert isDirectory accepted selected untraced handles).mono ?_
  rintro _ after ⟨rfl, written⟩
  exact ⟨exitCode_converted_eq_zero_iff configuration tree request.path sources,
    convertsApart_of_written apart found isStart there onwards isVacant written⟩

end Ends

/--
A check gives zero if every conversion succeeds without changing anything, and leaves the files.
-/
theorem ends_check
    {root : String}
    {path : Path}
    {recipes : Option (List String)}
    (isDirectory : tree.isDirectory path = true)
    (accepted : (Configuration.load root tree path (recipeSetting recipes)).result =
      .ok configuration)
    (selected : tree.sources path configuration = .ok sources) :
    (check path recipes).Ends tree fun verdict after =>
      (verdict = 0 ↔ ∀ names ∈ sources, (outcome configuration tree path names).success = true ∧
        (outcome configuration tree path names).changed = false) ∧ after = tree := by
  unfold check
  refine gives_tree.bind ?_
  rw [contains_of_isDirectory isDirectory]
  refine (gives_loadConfiguration isDirectory accepted).bind ?_
  refine gives_tree.bind ?_
  rw [selected]
  refine gives_orFail.bind ?_
  refine (gives_convertFiles configuration _).bind ?_
  generalize conversions_eq : ((sources.map path.below).map fun path =>
    (Run.ofFile configuration tree path 0).conversion) = conversions
  refine (isQuiet_forM (fun _ => isQuiet_say _) _).bind fun _ => ?_
  refine (isQuiet_forM (fun _ => isQuiet_say _) _).bind fun _ => ?_
  have clean_iff : ((conversions.filter (·.changed)).isEmpty &&
      (conversions.filter fun conversion => !conversion.success).isEmpty) = true ↔
        ∀ names ∈ sources, (outcome configuration tree path names).success = true ∧
          (outcome configuration tree path names).changed = false := by
    simp [← conversions_eq, outcome, List.isEmpty_iff, List.filter_eq_nil_iff, forall_and, and_comm]
  rw [← Bool.not_and]
  cases clean : (conversions.filter (·.changed)).isEmpty &&
      (conversions.filter fun conversion => !conversion.success).isEmpty with
  | true =>
      rw [clean] at clean_iff
      exact (isQuiet_say _).bind fun _ => ends_pure ⟨iff_of_true rfl (clean_iff.mp rfl), rfl⟩
  | false =>
      rw [clean] at clean_iff
      refine ends_pure ⟨iff_of_false Nat.one_ne_zero fun all => ?_, rfl⟩
      exact absurd (clean_iff.mpr all) Bool.false_ne_true

/-- A check gives zero if converting in place would and leaves all files as they are. -/
theorem ends_check_of_accepted
    {root : String}
    {other : Configuration}
    (isDirectory : tree.isDirectory request.path = true)
    (accepted : (Configuration.load root tree request.path request.settings).result =
      .ok configuration)
    (selected : tree.sources request.path configuration = .ok sources)
    (lenient : request.strict = false)
    (alsoAccepted : (Configuration.load root tree request.path
      (recipeSetting request.recipes)).result = .ok other) :
    (check request.path request.recipes).Ends tree fun verdict after =>
      (verdict = 0 ↔ ∀ names ∈ sources,
        (outcome configuration tree request.path names).success = true ∧
        (outcome configuration tree request.path names).changed = false) ∧ after = tree := by
  have settings_eq : request.settings = recipeSetting request.recipes ++
      request.workers.toList.map fun workers => ("workers", .integer workers) := by
    simp [ConvertRequest.settings, lenient]
  rw [settings_eq] at accepted
  have same : configuration = { other with workers := configuration.workers } := by
    refine Configuration.eq_of_load (fun entry member => ?_) accepted alsoAccepted
    obtain ⟨workers, _, rfl⟩ := List.mem_map.mp member
    rfl
  have alsoSelected : tree.sources request.path other = .ok sources := by
    rw [same] at selected
    exact selected
  have ends := ends_check isDirectory alsoAccepted alsoSelected
  rw [same]
  exact ends

/--
What converting and checking the files of a directory comes to.

Without another directory to write to, a file is rewritten exactly if its conversion has succeeded
and changed it, and everything else stays as it was.  If files go to a place where nothing is yet,
each successful conversion gives one file there, under the same names, and nothing else happens to
the files; this takes for granted that no way back is among the names.  In either case the exit code
is zero exactly if every conversion has succeeded.

A check, for which strictness cannot be asked for, changes no file.  Its exit code is zero exactly
if converting in place gives zero and leaves all files as they are.
-/
theorem convert_and_check_directory
    {shell : Shell}
    {request : ConvertRequest}
    {configuration : Configuration}
    {sources : List (List String)}
    (isDirectory : shell.workspace.tree.isDirectory request.path = true)
    (accepted : (Configuration.load shell.workspace.root shell.workspace.tree request.path
      request.settings).result = .ok configuration)
    (selected : shell.workspace.tree.sources request.path configuration = .ok sources)
    (untraced : request.jsonTrace = none) :
    (request.out = none →
      ∃ code after, (convert request).Returns shell code after ∧
        (code = 0 ↔ ∀ names ∈ sources,
          (outcome configuration shell.workspace.tree request.path names).success = true) ∧
        ConvertsInPlace configuration shell.workspace.tree request.path sources after ∧
        ∀ other, request.strict = false →
          (Configuration.load shell.workspace.root shell.workspace.tree request.path
            (recipeSetting request.recipes)).result = .ok other →
          ∃ verdict,
            (check request.path request.recipes).Returns shell verdict shell.workspace.tree ∧
            (verdict = 0 ↔ code = 0 ∧
              ∀ location, after.find? location = shell.workspace.tree.find? location)) ∧
    ∀ out start target, request.out = some out →
      shell.workspace.tree.locate request.path = .ok start →
      IsVacant shell.workspace.tree start out target →
      (∀ names ∈ sources, ".." ∉ names) →
      ∃ code after, (convert request).Returns shell code after ∧
        (code = 0 ↔ ∀ names ∈ sources,
          (outcome configuration shell.workspace.tree request.path names).success = true) ∧
        ConvertsApart configuration shell.workspace.tree request.path start target sources
          after := by
  refine ⟨fun inPlace => ?_, fun out start target apart found isVacant onwards => ?_⟩
  · obtain ⟨code, after, returns, exit_iff, converts⟩ :=
      ends_convert_inPlace isDirectory accepted selected untraced inPlace shell rfl
    refine ⟨code, after, returns, exit_iff, converts, fun other lenient alsoAccepted => ?_⟩
    obtain ⟨verdict, _, checks, verdict_iff, rfl⟩ :=
      ends_check_of_accepted isDirectory accepted selected lenient alsoAccepted shell rfl
    refine ⟨verdict, checks, verdict_iff.trans ?_⟩
    rw [exit_iff, converts.unchanged_iff]
    exact ⟨fun all => ⟨fun names member => (all names member).1,
      fun names member => (all names member).2⟩,
      fun both names member => ⟨both.1 names member, both.2 names member⟩⟩
  · exact ends_convert_apart isDirectory accepted selected untraced apart found onwards isVacant
      shell rfl

/-! ## Directories at hand -/

/-- What the files are that a pattern selects, once they are in order. -/
theorem sources_eq
    {path : Path}
    {pattern : FilePattern}
    {found : List (List String)}
    (isDirectory : tree.isDirectory path = true)
    (parsed : FilePattern.parse configuration.filePattern = .ok pattern)
    (selected : (tree.select path pattern.onlyDirectories pattern.parts []).filter
      (fun names => tree.isFile (path.below names)) = found)
    (ordered : found.mergeSort FileTree.notAfter = sources) :
    tree.sources path configuration = .ok sources := by
  unfold FileTree.sources FileTree.filesMatching
  rw [isFile_of_isDirectory isDirectory, parsed]
  simp [bind, Except.bind, pure, Except.pure, selected, ordered]

/-- Where nothing is stored below a name, a path to it leads to a vacant place. -/
theorem isVacant_of_unused
    {start : Location}
    {name : String}
    (isName : name ≠ "..")
    (unused : ∀ stored ∈ tree.entries, stored.1.head? ≠ some name)
    (outside : ¬start <+: [name]) : IsVacant tree start ⟨"", [name]⟩ [name] := by
  have nothing (location : Location) (inside : [name] <+: location) :
      tree.find? location = none := by
    obtain ⟨rest, rfl⟩ := inside
    have nonempty : [name] ++ rest ≠ [] := by simp
    rw [FileTree.find?, if_neg nonempty, List.lookup_eq_none_iff]
    intro stored member
    have differs := unused stored member
    rw [bne_iff_ne]
    intro same
    rw [← same] at differs
    exact differs rfl
  refine ⟨⟨rfl, [], [name], [], rfl, ?_, rfl, rfl⟩, fun front content above => ?_,
    fun location inside _ => nothing location inside, outside⟩
  · simpa using isName.symm
  · rcases List.prefix_cons_iff.mp above with rfl | ⟨rest, rfl, isRest⟩
    · nofun
    · rw [List.prefix_nil.mp isRest, nothing _ List.prefix_rfl]
      nofun

/-- A directory with a file to migrate and another one that cannot be read. -/
def mixedFiles : Workspace where
  root := ""
  tree := ⟨[(["in"], .directory),
    (["in", "A.java"], .file (Text.encode
      "class A \x7b @org.junit.Rule org.junit.rules.ExpectedException rule; \x7d")),
    (["in", "B.java"], .file (Text.encode "class B \x7b")),
    (["in", "pyproject.toml"], .file (Text.encode
      "[tool.junit_switcheroo]\ninclude = '*.java'"))]⟩
  nextId := 0

/-- What the conversion of a directory is asked for. -/
def directoryRequest (out : Option Path) : ConvertRequest where
  path := ⟨"", ["in"]⟩
  out := out
  recipes := none
  workers := none
  strict := false
  diff := false
  jsonTrace := none

/-- The configuration in which other files are selected than usual. -/
def selecting (pattern : String) : Configuration :=
  { Configuration.standard with filePattern := pattern }

theorem accepted_mixedFiles : (Configuration.load "" mixedFiles.tree ⟨"", ["in"]⟩ []).result =
    .ok (selecting "*.java") :=
  Except.eq_ok_of_mem_toOption (by decide +kernel)

theorem sources_mixedFiles : mixedFiles.tree.sources ⟨"", ["in"]⟩ (selecting "*.java") =
    .ok [["A.java"], ["B.java"]] := by
  have parsed : FilePattern.parse (selecting "*.java").filePattern =
      .ok ⟨[.wildcard (.anyText :: ".java".toList.map .literal)], false⟩ := by
    decide
  have located : mixedFiles.tree.locate (Path.below ⟨"", ["in"]⟩ []) = .ok ["in"] := by
    decide
  have selected : (mixedFiles.tree.select ⟨"", ["in"]⟩ false
      [.wildcard (.anyText :: ".java".toList.map .literal)] []).filter
        (fun names => mixedFiles.tree.isFile (Path.below ⟨"", ["in"]⟩ names)) =
      [["A.java"], ["B.java"]] := by
    rw [FileTree.select_endings located]
    decide
  have ordered : [["A.java"], ["B.java"]].Pairwise fun names others =>
      FileTree.notAfter names others = true := by
    decide
  exact sources_eq (by decide) parsed selected (List.mergeSort_of_pairwise ordered)

theorem outcome_mixedFiles :
    let first := outcome (selecting "*.java") mixedFiles.tree ⟨"", ["in"]⟩ ["A.java"]
    (first.success = true ∧ first.changed = true ∧ first.code = "class A \x7b \x7d") ∧
      (outcome (selecting "*.java") mixedFiles.tree ⟨"", ["in"]⟩ ["B.java"]).success = false := by
  decide +kernel

theorem convert_and_check_directory_mixedFiles :
    (∃ code after verdict,
      (convert (directoryRequest none)).Returns (.start mixedFiles .info) code after ∧ code ≠ 0 ∧
      after.find? ["in", "A.java"] = some (.file (Text.encode "class A \x7b \x7d")) ∧
      after.find? ["in", "B.java"] = mixedFiles.tree.find? ["in", "B.java"] ∧
      (check ⟨"", ["in"]⟩ none).Returns (.start mixedFiles .info) verdict mixedFiles.tree ∧
      verdict ≠ 0) ∧
    ∃ code after,
      (convert (directoryRequest (some ⟨"", ["out"]⟩))).Returns (.start mixedFiles .info) code
        after ∧ code ≠ 0 ∧
      after.find? ["out", "A.java"] = some (.file (Text.encode "class A \x7b \x7d")) ∧
      after.find? ["in", "A.java"] = mixedFiles.tree.find? ["in", "A.java"] := by
  obtain ⟨⟨success, changed, code_eq⟩, failed⟩ := outcome_mixedFiles
  have newEntry : some (Entry.file (Text.encode
      (outcome (selecting "*.java") mixedFiles.tree ⟨"", ["in"]⟩ ["A.java"]).code)) =
        some (.file (Text.encode "class A \x7b \x7d")) := by
    rw [code_eq]
  have someFails : ¬∀ names ∈ [["A.java"], ["B.java"]],
      (outcome (selecting "*.java") mixedFiles.tree ⟨"", ["in"]⟩ names).success = true := by
    intro all
    rw [all ["B.java"] (by decide)] at failed
    cases failed
  have isDirectory : mixedFiles.tree.isDirectory ⟨"", ["in"]⟩ = true := by decide
  constructor
  · obtain ⟨code, after, returns, exit_iff, converts, checks⟩ :=
      (@convert_and_check_directory (.start mixedFiles .info) (directoryRequest none)
        (selecting "*.java") [["A.java"], ["B.java"]] isDirectory accepted_mixedFiles
        sources_mixedFiles rfl).1 rfl
    have failing : code ≠ 0 := mt exit_iff.mp someFails
    obtain ⟨location, located, isFile⟩ :=
      converts.rewritten ["A.java"] List.mem_cons_self success changed
    have place : mixedFiles.tree.locate ⟨"", ["in", "A.java"]⟩ = .ok ["in", "A.java"] := by
      decide
    obtain rfl := Except.ok.inj (place.symm.trans located)
    have kept := converts.kept ["in", "B.java"] fun names member located both => by
      rcases List.mem_cons.mp member with rfl | member
      · have same := Except.ok.inj (place.symm.trans located)
        exact absurd same (by decide)
      · obtain rfl := List.mem_singleton.mp member
        exact absurd (failed.symm.trans both.1) Bool.false_ne_true
    obtain ⟨verdict, verdictReturns, verdict_iff⟩ := checks _ rfl accepted_mixedFiles
    exact ⟨code, after, verdict, returns, failing, isFile.trans newEntry, kept, verdictReturns,
      fun zero => failing (verdict_iff.mp zero).1⟩
  · have located : mixedFiles.tree.locate ⟨"", ["in"]⟩ = .ok ["in"] := by decide
    have isVacant : IsVacant mixedFiles.tree ["in"] ⟨"", ["out"]⟩ ["out"] :=
      isVacant_of_unused (by decide) (by decide) (by decide)
    obtain ⟨code, after, returns, exit_iff, converts⟩ :=
      (@convert_and_check_directory (.start mixedFiles .info)
        (directoryRequest (some ⟨"", ["out"]⟩)) (selecting "*.java") [["A.java"], ["B.java"]]
        isDirectory accepted_mixedFiles sources_mixedFiles rfl).2 ⟨"", ["out"]⟩ ["in"] ["out"] rfl
          located isVacant (by decide)
    have written := (converts.files ["out", "A.java"] _).mpr
      (.inr ⟨["A.java"], List.mem_cons_self, success, rfl, rfl⟩)
    exact ⟨code, after, returns, mt exit_iff.mp someFails, written.trans newEntry,
      converts.kept ["in", "A.java"] (by decide)⟩

/-- A directory in which files are selected by a way through the directory above. -/
def detour : Workspace where
  root := ""
  tree := ⟨[(["in"], .directory),
    (["in", "A.java"], .file (Text.encode
      "class A \x7b @org.junit.Rule org.junit.rules.ExpectedException rule; \x7d")),
    (["in", "pyproject.toml"], .file (Text.encode
      "[tool.junit_switcheroo]\ninclude = '../in/*.java'"))]⟩
  nextId := 0

theorem accepted_detour : (Configuration.load "" detour.tree ⟨"", ["in"]⟩ []).result =
    .ok (selecting "../in/*.java") :=
  Except.eq_ok_of_mem_toOption (by decide +kernel)

theorem sources_detour : detour.tree.sources ⟨"", ["in"]⟩ (selecting "../in/*.java") =
    .ok [["..", "in", "A.java"]] := by
  have parsed : FilePattern.parse (selecting "../in/*.java").filePattern =
      .ok ⟨[.name "..", .name "in", .wildcard (.anyText :: ".java".toList.map .literal)],
        false⟩ := by
    decide
  have located : detour.tree.locate (Path.below ⟨"", ["in"]⟩ ["..", "in"]) = .ok ["in"] := by
    decide
  have selected : (detour.tree.select ⟨"", ["in"]⟩ false
      [.name "..", .name "in", .wildcard (.anyText :: ".java".toList.map .literal)] []).filter
        (fun names => detour.tree.isFile (Path.below ⟨"", ["in"]⟩ names)) =
      [["..", "in", "A.java"]] := by
    rw [FileTree.select_name (by decide), FileTree.select_name (by decide)]
    rw [List.nil_append, List.singleton_append, FileTree.select_endings located]
    decide
  exact sources_eq (by decide) parsed selected (List.mergeSort_singleton _)

/--
What has been converted for an empty directory can end up in the directory that it comes from.
-/
theorem input_overwritten :
    IsVacant detour.tree ["in"] ⟨"", ["out"]⟩ ["out"] ∧
    (detour.tree.readText ⟨"", ["in", "A.java"]⟩).toOption =
      some "class A \x7b @org.junit.Rule org.junit.rules.ExpectedException rule; \x7d" ∧
    ∃ after, (convert (directoryRequest (some ⟨"", ["out"]⟩))).Returns (.start detour .info) 0
        after ∧
      (after.readText ⟨"", ["in", "A.java"]⟩).toOption = some "class A \x7b \x7d" := by
  refine ⟨isVacant_of_unused (by decide) (by decide) (by decide), by decide, ?_⟩
  let file : ConvertedFile := ⟨["..", "in", "A.java"], ⟨"", ["in", "..", "in", "A.java"]⟩,
    outcome (selecting "../in/*.java") detour.tree ⟨"", ["in"]⟩ ["..", "in", "A.java"]⟩
  have success : file.conversion.success = true := by decide +kernel
  have written : (detour.tree.addFile ⟨"", ["out", "..", "in", "A.java"]⟩
      (Text.encode file.conversion.code)).toOption.bind
        (fun after => (after.readText ⟨"", ["in", "A.java"]⟩).toOption) =
      some "class A \x7b \x7d" := by
    decide +kernel
  obtain ⟨after, adds, reads⟩ := Option.bind_eq_some_iff.mp written
  have handles : (handle (directoryRequest (some ⟨"", ["out"]⟩)) file).Ends detour.tree
      fun _ later => later = after := by
    unfold handle
    rw [if_pos success]
    exact ends_writeOutcome (Except.eq_ok_of_mem_toOption adds)
  have handlesAll : Ends ([file].forM (handle (directoryRequest (some ⟨"", ["out"]⟩)))) detour.tree
      fun _ later => later = after :=
    handles.bind fun _ _ same => ends_pure same
  have isDirectory : detour.tree.isDirectory ⟨"", ["in"]⟩ = true := by decide
  have ends := @ends_convert detour.tree (directoryRequest (some ⟨"", ["out"]⟩))
    (selecting "../in/*.java") [["..", "in", "A.java"]] "" (fun later => later = after) isDirectory
    accepted_detour sources_detour rfl handlesAll
  obtain ⟨code, _, returns, code_eq, rfl⟩ := ends (.start detour .info) rfl
  have zero : code = 0 := by
    rw [code_eq, exitCode_converted_eq_zero_iff]
    intro names member
    rw [List.mem_singleton.mp member]
    exact success
  exact ⟨_, zero ▸ returns, reads⟩

end JupiterMigration.CommandLine
