import JupiterMigration.Proofs.Imports.Removals
import JupiterMigration.Proofs.Reading.Composition

/-!
# Reading edited imports back

Changes to the imports of an ordinary file put imports of dotted names next to declarations that
end with semicolons, and take imports away.  The file stays one that is made up of its declarations
(`Imports.ReadsBack.insert`, `Imports.ReadsBack.removeAt`), so that the text of the edited tree is
read as the edited tree (`Imports.parse_print_makeAll`).
-/

namespace JupiterMigration.Java

open Phrase

variable {phrase : Phrase}

/-- What stands before a declaration is the gap before its phrase. -/
@[simp]
theorem lead_ofTopLevel (phrase : Phrase) : (Member.ofTopLevel phrase).lead = phrase.gap := by
  unfold Member.ofTopLevel
  split
  · next decl found =>
      unfold Import.ofPhrase? at found
      split at found
      · cases found
        rfl
      · cases found
  · split
    · next parts _ =>
        unfold ClassDecl.ofParts?
        cases parts.getLast?.bind ClassDecl.view? <;> rfl
    · rfl

theorem isFront_iff :
    IsFront phrase ↔ (Member.ofTopLevel phrase).isImport = true ∨
      (Member.ofTopLevel phrase).isPackage = true := by
  rw [IsFront, Member.isImport_ofTopLevel]

end JupiterMigration.Java

namespace JupiterMigration.Imports

open Java

variable {name lead tail : String} {isStatic : Bool} {members : List Member}

/-! ## Where imports are put -/

/--
A new import, not numbered yet, takes the place of the first declaration or of an import, which is
moved behind it, or is put behind an import or a package.
-/
inductive Placed (name : String) (isStatic : Bool) : List Member → List Member → Prop
  | alone : Placed name isStatic [] [newImport 0 name isStatic ""]
  | before {front back : List Member} {next : Member} {lead : String}
      (isLead : lead = "\n" ∨ lead = "\n\n")
      (isFirst : front = [] ∨ next.isImport = true) :
      Placed name isStatic (front ++ next :: back)
        (front ++ newImport 0 name isStatic next.lead :: next.withLead lead :: back)
  | behind {front back : List Member} {last : Member} {lead : String}
      (isLead : lead = "\n" ∨ lead = "\n\n")
      (isFront : last.isImport = true ∨ last.isPackage = true) :
      Placed name isStatic (front ++ last :: back)
        (front ++ last :: newImport 0 name isStatic lead :: back)

theorem placed_of_noImport
    (noImport : ∀ member ∈ members, member.isImport = false)
    (name : String)
    (isStatic : Bool) : Placed name isStatic members (insert 0 name isStatic members) := by
  rw [insert_of_noImport noImport]
  rcases none_or_first Member.isPackage members with
    noPackage | ⟨front, package, back, rfl, isPackage, passed⟩
  · rw [findIdx?_eq_none noPackage]
    cases members with
    | nil => exact .alone
    | cons next back =>
        exact @Placed.before name isStatic [] back next "\n\n" (.inr rfl) (.inl rfl)
  · rw [findIdx?_append_cons passed isPackage, Option.elim_some, insertAfter_append]
    exact .behind (.inr rfl) (.inr isPackage)

/-- Every new import is put into its place. -/
theorem placed_insert (name : String) (isStatic : Bool) (members : List Member) :
    Placed name isStatic members (insert 0 name isStatic members) := by
  rcases none_or_last Member.isImport members with
    noImport | ⟨front, last, back, rfl, isLast, passed⟩
  · exact placed_of_noImport noImport name isStatic
  · rcases none_or_last (Member.isImportOf isStatic) (front ++ last :: back) with
      noneOf | ⟨_, member, _, members_eq, isOf, -⟩
    · cases isStatic with
      | true =>
          rw [insert_static 0 name isLast noneOf passed]
          exact .behind (.inr rfl) (.inl isLast)
      | false =>
          rcases none_or_first Member.isImport (front ++ last :: back) with
            noImport | ⟨_, next, _, members_eq, isFirst, passedFirst⟩
          · rw [noImport last (by simp)] at isLast
            cases isLast
          · rw [members_eq] at noneOf ⊢
            rw [insert_other 0 name isFirst noneOf passedFirst]
            exact .before (.inr rfl) (.inr isFirst)
    · have inside : member ∈ front ++ last :: back := by simp [members_eq]
      obtain ⟨_, anchor, _, written, anchor_eq, insertsAt⟩ := exists_insertsAt 0 name isOf inside
      rw [anchor_eq, insert_of_insertsAt insertsAt]
      cases insertsAt with
      | before isAfter _ =>
          have isImport := isImport_of_isImportOf (isImportOf_of_isImportAfter isAfter)
          exact .before (.inl rfl) (.inr isImport)
      | behind isLastOf _ _ => exact .behind (.inl rfl) (.inl (isImport_of_isImportOf isLastOf))

/-! ## Files that read back -/

/-- Declarations of a file that is made up of their phrases. -/
def ReadsBack (tail : String) (members : List Member) : Prop :=
  ∃ phrases, phrases.map Java.Member.ofTopLevel = members ∧ Composed tail [] phrases ∧
    Spaced phrases

/--
A dotted name of words.  The word `static` is none of them: the grammar takes it for the word that
makes an import static.
-/
def IsDotted (name : String) : Prop :=
  ∃ words ≠ [], (∀ word ∈ words, isWord word = true ∧ word ≠ "static") ∧
    name = ".".intercalate words

/-- The import of a dotted name has a phrase that can be put in front of declarations. -/
theorem IsDotted.exists_phrase
    (dotted : IsDotted name)
    (isStatic : Bool)
    (lead : String) :
    ∃ phrase, Java.Member.ofTopLevel phrase = newImport 0 name isStatic lead ∧
      ∀ before rest, Composed tail before rest → Composed tail before (phrase :: rest) := by
  obtain ⟨words, some, spelled, rfl⟩ := dotted
  obtain ⟨first, rest, rfl⟩ := List.exists_cons_of_ne_nil some
  have words := fun word inside => (spelled word inside).1
  exact ⟨importPhrase lead isStatic first rest, Java.ofTopLevel_importPhrase lead isStatic words,
    fun _ _ composed => composed.insert lead isStatic words (spelled first List.mem_cons_self).2⟩

/-- A new import keeps a file one that reads back. -/
theorem ReadsBack.of_placed
    {result : List Member}
    (readsBack : ReadsBack tail members)
    (dotted : IsDotted name)
    (placed : Placed name isStatic members result) : ReadsBack tail result := by
  obtain ⟨phrases, rfl, composed, spaced⟩ := readsBack
  have isGap {lead : String} (isLead : lead = "\n" ∨ lead = "\n\n") : IsGap lead := by
    rcases isLead with rfl | rfl <;> exact isGap_of_spaces (by decide)
  generalize members_eq : phrases.map Java.Member.ofTopLevel = members at placed
  cases placed with
  | alone =>
      obtain ⟨phrase, phrase_eq, put⟩ := dotted.exists_phrase isStatic ""
      obtain rfl := List.map_eq_nil_iff.mp members_eq
      have gap_eq : phrase.gap = "" := by rw [← lead_ofTopLevel, phrase_eq, lead_newImport]
      refine ⟨[phrase], by simp [phrase_eq], put _ _ composed, ?_, List.forall_mem_nil _⟩
      exact .inl (gap_eq ▸ isGap_of_spaces rfl)
  | before isLead isFirst =>
      obtain ⟨front, _, rfl, rfl, rest_eq⟩ := List.map_eq_append_iff.mp members_eq
      obtain ⟨next, back, rfl, rfl, rfl⟩ := List.map_eq_cons_iff.mp rest_eq
      obtain ⟨after, composedNext, replace⟩ := composed.split
        (isFirst.imp List.map_eq_nil_iff.mp fun isImport => isFront_iff.mpr (.inl isImport))
      rename_i lead
      obtain ⟨phrase, phrase_eq, put⟩ := dotted.exists_phrase isStatic next.gap
      have filled : Filled next := composedNext.filledAll.1
      refine ⟨front ++ phrase :: next.regap lead :: back, ?_,
        replace _ (put _ _ (composedNext.regap lead)), spaced.replace (.inl ?_) ?_⟩
      · simp [phrase_eq, Java.Member.ofTopLevel_regap lead filled]
      · rw [← lead_ofTopLevel, phrase_eq, lead_newImport]
      · refine List.forall_mem_cons.mpr ⟨?_, spaced.behind⟩
        rw [Phrase.gap_regap lead filled]
        exact isGap isLead
  | behind isLead isFront =>
      obtain ⟨front, _, rfl, rfl, rest_eq⟩ := List.map_eq_append_iff.mp members_eq
      obtain ⟨last, back, rfl, rfl, rfl⟩ := List.map_eq_cons_iff.mp rest_eq
      obtain ⟨after, composedBack, replace⟩ := composed.split_behind (isFront_iff.mpr isFront)
      rename_i lead
      obtain ⟨phrase, phrase_eq, put⟩ := dotted.exists_phrase isStatic lead
      have gap_eq : phrase.gap = lead := by rw [← lead_ofTopLevel, phrase_eq, lead_newImport]
      refine ⟨front ++ last :: phrase :: back, by simp [phrase_eq],
        replace _ (put _ _ composedBack), spaced.replace (.inl rfl) ?_⟩
      exact List.forall_mem_cons.mpr ⟨gap_eq ▸ isGap isLead, spaced.behind⟩

/-- A file without one of its imports reads back. -/
theorem ReadsBack.of_removed
    {front back : List Member}
    {removed : Member}
    (readsBack : ReadsBack tail (front ++ removed :: back))
    (isImport : removed.isImport = true) :
    ReadsBack tail (front ++ Member.inherit front.isEmpty removed back) := by
  obtain ⟨phrases, members_eq, composed, spaced⟩ := readsBack
  obtain ⟨front, _, rfl, rfl, rest_eq⟩ := List.map_eq_append_iff.mp members_eq
  obtain ⟨removed, back, rfl, rfl, rfl⟩ := List.map_eq_cons_iff.mp rest_eq
  obtain ⟨after, composedRemoved, replace⟩ :=
    composed.split (.inr (isFront_iff.mpr (.inl isImport)))
  rw [Java.Member.isImport_ofTopLevel] at isImport
  have composedBack := composedRemoved.of_import isImport
  cases back with
  | nil => exact ⟨front ++ [], by simp [Member.inherit], replace _ composedBack,
      by simpa using spaced.of_append⟩
  | cons next back =>
      have gaps := spaced.behind
      rw [List.forall_mem_cons] at gaps
      rw [List.map_cons, Member.inherit, Member.following]
      split
      · have filled : Filled next := composedBack.filledAll.1
        refine ⟨front ++ next.regap removed.gap :: back, ?_,
          replace _ (composedBack.regap removed.gap),
          spaced.replace (.inl (Phrase.gap_regap removed.gap filled)) gaps.2⟩
        simp [Java.Member.ofTopLevel_regap removed.gap filled]
      · exact ⟨front ++ next :: back, by simp, replace _ composedBack,
          spaced.replace (.inr gaps.1) gaps.2⟩

theorem ReadsBack.removeAt
    {position : Nat}
    {decl : Import}
    (readsBack : ReadsBack tail members)
    (found : members[position]? = some (.importDecl decl)) :
    ReadsBack tail (Member.removeAt position members) := by
  obtain ⟨inside, removed_eq⟩ := List.getElem?_eq_some_iff.mp found
  have parts := List.take_append_drop position members
  rw [← List.getElem_cons_drop inside, removed_eq] at parts
  rw [← parts] at readsBack
  have kept := readsBack.of_removed rfl
  rw [← Member.removeAt_append, parts, List.length_take_of_le (Nat.le_of_lt inside)] at kept
  exact kept

/-! ## Files up to their numbers -/

/-- A file whose declarations read back, whatever their numbers are. -/
def FileReadsBack (unit : SourceUnit) : Prop :=
  unit.lead = "" ∧ ∃ members, ReadsBack unit.tail members ∧
    Member.unnumberedAll members = Member.unnumberedAll unit.members

theorem unnumberedAll_removeAt (position : Nat) (members : List Member) :
    Member.unnumberedAll (Member.removeAt position members) =
      Member.removeAt position (Member.unnumberedAll members) := by
  rw [Member.unnumberedAll_eq, Member.unnumberedAll_eq, Member.removeAt_renumbered]

/-- Imports stand at the same positions, whatever their numbers are. -/
theorem exists_import_of_unnumberedAll_eq
    {others : List Member}
    {position : Nat}
    {decl : Import}
    (same : Member.unnumberedAll others = Member.unnumberedAll members)
    (found : members[position]? = some (.importDecl decl)) :
    ∃ other, others[position]? = some (.importDecl other) := by
  have at_eq := congrArg (·[position]?) same
  simp only [Member.unnumberedAll_eq_map, List.getElem?_map, found] at at_eq
  obtain ⟨other, other_eq, unnumbered_eq⟩ := Option.map_eq_some_iff.mp at_eq
  cases other with
  | importDecl decl => exact ⟨decl, other_eq⟩
  | _ => simp [Member.unnumbered] at unnumbered_eq

/-- A change to the imports keeps a file one that reads back. -/
theorem FileReadsBack.of_made
    {unit result : SourceUnit}
    {change : Change}
    {session : Session}
    (dotted : ∀ name isStatic, change = .ensure name isStatic → IsDotted name)
    (readsBack : FileReadsBack unit)
    (made : ((change.make unit).run session).1 = some result) : FileReadsBack result := by
  obtain ⟨lead_eq, members, reads, same⟩ := readsBack
  obtain ⟨name, isStatic, isEnsure, -, rfl⟩ | ⟨position, decl, found, -, rfl⟩ := cases_of_made made
  · refine ⟨lead_eq, insert 0 name isStatic members,
      reads.of_placed (dotted name isStatic isEnsure) (placed_insert name isStatic members), ?_⟩
    rw [unnumberedAll_insert, unnumberedAll_insert, same]
  · obtain ⟨other, foundOther⟩ := exists_import_of_unnumberedAll_eq same found
    refine ⟨lead_eq, Member.removeAt position members, reads.removeAt foundOther, ?_⟩
    rw [unnumberedAll_removeAt, same, ← unnumberedAll_removeAt]

/-- The text of a file that reads back is read as the file. -/
theorem FileReadsBack.exists_parse
    {unit : SourceUnit}
    (readsBack : FileReadsBack unit)
    (next : Nat) :
    ∃ again, SourceUnit.parse unit.print unit.path next = .ok again ∧
      Node.unnumbered (.sourceUnit again.1) = Node.unnumbered (.sourceUnit unit) := by
  obtain ⟨lead_eq, _, ⟨phrases, rfl, composed, spaced⟩, same⟩ := readsBack
  have found := phrases?_of_composed composed spaced
  obtain ⟨shaped, -⟩ := SourceUnit.phrases?_sound found
  have printed := Java.Member.printMembers_map Java.Member.ofTopLevel
    fun part inside => Java.Member.print_ofTopLevel part (shapedAll_iff.mp shaped part inside)
  have print_eq : unit.print = Phrase.sourceOfAll phrases ++ unit.tail := by
    have members_eq := congrArg Member.printMembers same
    rw [Member.unnumberedAll_eq, Member.unnumberedAll_eq, Member.printMembers_renumbered,
      Member.printMembers_renumbered, printed] at members_eq
    rw [SourceUnit.print, lead_eq, String.empty_append, members_eq]
  refine ⟨(SourceUnit.numbered ⟨0, "", phrases.map Java.Member.ofTopLevel, unit.tail,
    unit.path⟩).run next, ?_, ?_⟩
  · rw [SourceUnit.parse, SourceUnit.read?, print_eq, found]
    rfl
  · have members_eq := Member.unnumberedAll_numberedAll (phrases.map Java.Member.ofTopLevel)
      (next + 1)
    rw [same] at members_eq
    obtain ⟨id, lead, members, tail, path⟩ := unit
    cases lead_eq
    exact congrArg (fun members => Node.sourceUnit ⟨0, "", members, tail, path⟩) members_eq

/-! ## Ordinary files -/

/-- A source that is an ordinary file. -/
def IsOrdinaryFile (source : String) : Prop :=
  ∃ phrases tail, SourceUnit.phrases? source = some (phrases, tail) ∧ IsOrdinary phrases

variable {source : String} {path : Option String} {next : Nat} {result : SourceUnit × Nat}

/-- The tree of an ordinary file reads back. -/
theorem fileReadsBack_of_parse
    (parsed : SourceUnit.parse source path next = .ok result)
    (ordinary : IsOrdinaryFile source) : FileReadsBack result.1 := by
  obtain ⟨phrases, tail, found, rfl⟩ := SourceUnit.exists_phrases_of_parse parsed
  obtain ⟨_, _, foundAgain, isOrdinary⟩ := ordinary
  cases found.symm.trans foundAgain
  have readsBack : ReadsBack tail (phrases.map Java.Member.ofTopLevel) :=
    ⟨phrases, rfl, composed_of_phrases? found isOrdinary⟩
  exact ⟨rfl, _, readsBack, (Member.unnumberedAll_numberedAll _ (next + 1)).symm⟩

/--
The text of an ordinary file after any changes to its imports is read, and what is read is the
edited tree: the same declarations with the same leads, and the same text at the end.
-/
theorem parse_print_makeAll
    {changes : List Change}
    (parsed : SourceUnit.parse source path next = .ok result)
    (ordinary : IsOrdinaryFile source)
    (dotted : ∀ name isStatic, .ensure name isStatic ∈ changes → IsDotted name)
    (session : Session)
    (other : Nat) :
    ∃ again, SourceUnit.parse ((makeAll changes result.1).run session).1.print
        ((makeAll changes result.1).run session).1.path other = .ok again ∧
      Node.unnumbered (.sourceUnit again.1) =
        Node.unnumbered (.sourceUnit ((makeAll changes result.1).run session).1) := by
  refine FileReadsBack.exists_parse ?_ other
  refine keeps_makeAll FileReadsBack (fun change inside unit result session made readsBack => ?_)
    (fileReadsBack_of_parse parsed ordinary) session
  exact readsBack.of_made (fun name isStatic isEnsure => dotted name isStatic (isEnsure ▸ inside))
    made

/-- A file with comments between its imports, one of them on the line of the package. -/
def commentedImports : String :=
  "// a\npackage b; /* c */import d.D;// e\nimport static f.F.g;\n\nclass H \x7b I i; \x7d;\n"

/-- Changes that add imports in both groups and take some away, at the head of a group as well. -/
def changesOfBothGroups : List Change :=
  [.removeIfUnused "d.D" false, .ensure "a.A" false, .removeWildcardIfUnused "j" ["J"],
    .ensure "f.F.h" true, .ensure "k.K.k" true, .removeIfUnused "f.F.g" true]

theorem parse_print_makeAll_commentedImports :
    ∃ result, SourceUnit.parse commentedImports none 1 = .ok result ∧
      IsOrdinaryFile commentedImports ∧
      (∀ name isStatic, .ensure name isStatic ∈ changesOfBothGroups → IsDotted name) ∧
      let edited := ((makeAll changesOfBothGroups result.1).run ⟨.empty, result.2⟩).1
      edited.print = "// a\npackage b;// e\nimport a.A;\n\nimport static f.F.h;\n" ++
        "import static k.K.k;\n\nclass H \x7b I i; \x7d;\n" ∧
      ∃ again, SourceUnit.parse edited.print edited.path result.2 = .ok again ∧
        Node.unnumbered (.sourceUnit again.1) = Node.unnumbered (.sourceUnit edited) := by
  have edits : ∃ result ∈ (SourceUnit.parse commentedImports none 1).toOption,
      ((makeAll changesOfBothGroups result.1).run ⟨.empty, result.2⟩).1.print =
        "// a\npackage b;// e\nimport a.A;\n\nimport static f.F.h;\n" ++
          "import static k.K.k;\n\nclass H \x7b I i; \x7d;\n" := by
    decide +kernel
  have reads : ∃ read ∈ SourceUnit.phrases? commentedImports, read.1 ≠ [] ∧
      outcome compilationUnit (Phrase.tokensOfAll read.1) = some (read.1, []) := by
    decide +kernel
  obtain ⟨result, isResult, printed⟩ := edits
  obtain ⟨⟨phrases, tail⟩, found, some, outcome_eq⟩ := reads
  have parsed := Except.eq_ok_of_mem_toOption isResult
  have ordinary : IsOrdinaryFile commentedImports :=
    ⟨phrases, tail, found, some, Rule.derives_of_read outcome_eq⟩
  have dotted : ∀ name isStatic, .ensure name isStatic ∈ changesOfBothGroups → IsDotted name := by
    intro name isStatic inside
    simp only [changesOfBothGroups, List.mem_cons, Change.ensure.injEq, reduceCtorEq,
      List.not_mem_nil,
      false_or, or_false] at inside
    obtain ⟨rfl, -⟩ | ⟨rfl, -⟩ | ⟨rfl, -⟩ := inside
    · exact ⟨["a", "A"], by decide, by decide, rfl⟩
    · exact ⟨["f", "F", "h"], by decide, by decide, rfl⟩
    · exact ⟨["k", "K", "k"], by decide, by decide, rfl⟩
  exact ⟨result, parsed, ordinary, dotted, printed,
    parse_print_makeAll parsed ordinary dotted ⟨.empty, result.2⟩ result.2⟩

end JupiterMigration.Imports
