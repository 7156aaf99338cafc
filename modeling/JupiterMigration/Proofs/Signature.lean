import JupiterMigration.Marker.Pattern
import JupiterMigration.Proofs.Tokens.Apart
import Mathlib.Data.List.TakeWhile

/-!
# Signatures of annotation patterns

A signature is an at sign before a name, and perhaps a class literal between parentheses, with
blanks around it.  `AnnotationPattern.Spells` is this grammar, and a text without blanks at its ends
is read exactly if some pattern is spelled by it (`AnnotationPattern.ofTrimmed?_eq_some_iff`).  The
name of the class is the longest that leaves a suffix `.class`, so it may have such a suffix itself.

A pattern that has been read is written as its signature without blanks, and that is read as the
same pattern again (`AnnotationPattern.signature_of_parse`).
-/

namespace JupiterMigration

namespace Text

/-! ## Blanks -/

/-- A run of characters of one kind ends before a character of another kind. -/
theorem takeWhile_run
    {kind : Char → Bool}
    {run rest : List Char}
    (ofKind : ∀ c ∈ run, kind c = true)
    (stops : ∀ c ∈ rest.head?, kind c = false) :
    (run ++ rest).takeWhile kind = run ∧ (run ++ rest).dropWhile kind = rest := by
  rw [List.takeWhile_append_of_pos ofKind, List.dropWhile_append_of_pos ofKind]
  cases rest with
  | nil => simp
  | cons c others => simp [stops c rfl]

theorem filter_dropWhile_isBlank (text : List Char) :
    (text.dropWhile isBlank).filter (fun c => !isBlank c) = text.filter fun c => !isBlank c := by
  induction text with
  | nil => rfl
  | cons c rest inductionHypothesis =>
      cases blank : isBlank c with
      | false => rw [List.dropWhile_cons_of_neg (by simp [blank])]
      | true =>
          rw [List.dropWhile_cons_of_pos blank, inductionHypothesis,
            List.filter_cons_of_neg (by simp [blank])]

/-- Blanks at the ends of a text are deleted with all others. -/
theorem filter_toList_trim (text : String) :
    (trim text).toList.filter (fun c => !isBlank c) = (deleteBlanks text).toList := by
  rw [trim, deleteBlanks, String.toList_ofList, String.toList_ofList, dropTail,
    List.filter_reverse, filter_dropWhile_isBlank, List.filter_reverse, List.reverse_reverse,
    filter_dropWhile_isBlank]

theorem dropWhile_of_noBlank {text : List Char} (noBlank : ∀ c ∈ text, isBlank c = false) :
    text.dropWhile isBlank = text := by
  cases text with
  | nil => rfl
  | cons c rest =>
      exact List.dropWhile_cons_of_neg (by simp [noBlank c List.mem_cons_self])

theorem trim_of_noBlank {text : String} (noBlank : ∀ c ∈ text.toList, isBlank c = false) :
    trim text = text := by
  have reversed : ∀ c ∈ text.toList.reverse, isBlank c = false :=
    fun c inside => noBlank c (List.mem_reverse.mp inside)
  rw [trim, dropTail, dropWhile_of_noBlank noBlank, dropWhile_of_noBlank reversed,
    List.reverse_reverse, String.ofList_toList]

end Text

namespace AnnotationPattern

/-! ## What spells a pattern -/

/-- A name in a signature: word characters, dollar signs and dots. -/
def IsName (name : List Char) : Prop :=
  name ≠ [] ∧ ∀ c ∈ name, isNameChar c = true

/-- A text that signatures may have around a class literal. -/
def IsBlankText (text : List Char) : Prop :=
  ∀ c ∈ text, Text.isBlank c = true

/-- What stands behind the name of an annotation that has a class literal. -/
def parenthesized (before type after : List Char) : List Char :=
  '(' :: (before ++ (type ++ classSuffix ++ (after ++ [')'])))

/-- A text without blanks at its ends spells a pattern. -/
inductive Spells : AnnotationPattern → List Char → Prop
  | name {name : List Char} :
      IsName name →
      Spells ⟨String.ofList name, none⟩ ('@' :: name)
  | withLiteral {name before type after : List Char} :
      IsName name →
      IsBlankText before →
      IsName type →
      IsBlankText after →
      Spells ⟨String.ofList name, some (String.ofList type)⟩
        ('@' :: (name ++ parenthesized before type after))

/-! ## Reading -/

theorem isBlank_of_isNameChar {c : Char} (inName : isNameChar c = true) :
    Text.isBlank c = false := by
  have disjoint : Text.blankCodes.all (fun code => !isNameChar (Char.ofNat code)) = true := by
    simp only [isNameChar, Text.isWordChar, Text.inRanges, ← Array.any_toList]
    decide +kernel
  exact Text.isBlank_eq_false disjoint inName

theorem isNameChar_of_isBlank {c : Char} (blank : Text.isBlank c = true) :
    isNameChar c = false := by
  cases inName : isNameChar c with
  | false => rfl
  | true =>
      rw [isBlank_of_isNameChar inName] at blank
      cases blank

theorem literalType?_eq_some_iff {literal type : List Char} :
    literalType? literal = some type ↔ type ≠ [] ∧ literal = type ++ classSuffix := by
  unfold literalType?
  constructor
  · intro read
    dsimp only at read
    split at read
    · next whole =>
        cases read
        exact whole
    · cases read
  · rintro ⟨nonempty, rfl⟩
    simp [nonempty]

/-- A class literal is a run of the characters of names. -/
theorem IsName.literal {type : List Char} (isName : IsName type) :
    ∀ c ∈ type ++ classSuffix, isNameChar c = true := by
  have suffix : classSuffix.all isNameChar = true := by decide
  exact List.forall_mem_append.mpr ⟨isName.2, List.all_eq_true.mp suffix⟩

/-- What closes a class literal does not go on with its name. -/
theorem head?_closing {after : List Char} (blank : IsBlankText after) :
    ∀ c ∈ (after ++ [')']).head?, isNameChar c = false := by
  cases after with
  | nil =>
      rintro c ⟨⟩
      decide
  | cons first rest =>
      rintro c ⟨⟩
      exact isNameChar_of_isBlank (blank first List.mem_cons_self)

theorem argumentType?_eq_some_iff {text type : List Char} :
    argumentType? text = some type ↔
      ∃ before after, IsBlankText before ∧ IsName type ∧ IsBlankText after ∧
        text = parenthesized before type after := by
  constructor
  · intro read
    unfold argumentType? at read
    split at read
    · next rest =>
        dsimp only at read
        split at read
        · next closes =>
            obtain ⟨nonempty, literal⟩ := literalType?_eq_some_iff.mp read
            have isName : IsName type := by
              refine ⟨nonempty, fun c inside => ?_⟩
              have inLiteral : c ∈ type ++ classSuffix := List.mem_append_left _ inside
              rw [← literal] at inLiteral
              exact List.mem_takeWhile_imp inLiteral
            refine ⟨rest.takeWhile Text.isBlank,
              ((rest.dropWhile Text.isBlank).dropWhile isNameChar).takeWhile Text.isBlank,
              fun c => List.mem_takeWhile_imp, isName, fun c => List.mem_takeWhile_imp, ?_⟩
            rw [parenthesized, ← literal, ← closes, List.takeWhile_append_dropWhile,
              List.takeWhile_append_dropWhile, List.takeWhile_append_dropWhile]
        · cases read
    · cases read
  · rintro ⟨before, after, blankBefore, isName, blankAfter, rfl⟩
    have notBlank : ∀ c ∈ (type ++ classSuffix ++ (after ++ [')'])).head?,
        Text.isBlank c = false := by
      obtain ⟨first, more, rfl⟩ := List.exists_cons_of_ne_nil isName.1
      rintro c ⟨⟩
      exact isBlank_of_isNameChar (isName.2 first List.mem_cons_self)
    have parenthesis : ∀ c ∈ [')'].head?, Text.isBlank c = false := by
      rintro c ⟨⟩
      decide
    obtain ⟨-, inner⟩ := Text.takeWhile_run blankBefore notBlank
    obtain ⟨literal, behind⟩ := Text.takeWhile_run isName.literal (head?_closing blankAfter)
    obtain ⟨-, closing⟩ := Text.takeWhile_run blankAfter parenthesis
    simp only [argumentType?, parenthesized, inner, literal, behind, closing, if_true]
    exact literalType?_eq_some_iff.mpr ⟨isName.1, rfl⟩

/-- A text without blanks at its ends is read exactly if it spells a pattern. -/
theorem ofTrimmed?_eq_some_iff {text : List Char} {pattern : AnnotationPattern} :
    ofTrimmed? text = some pattern ↔ pattern.Spells text := by
  constructor
  · intro read
    unfold ofTrimmed? at read
    split at read
    · next rest =>
        dsimp only at read
        have split_eq := List.takeWhile_append_dropWhile (p := isNameChar) (l := rest)
        split at read
        · cases read
        · next nonempty =>
            have isName : IsName (rest.takeWhile isNameChar) :=
              ⟨by simpa using nonempty, fun c => List.mem_takeWhile_imp⟩
            split at read
            · next noMore =>
                cases read
                rw [List.isEmpty_iff.mp noMore, List.append_nil] at split_eq
                rw [split_eq] at isName ⊢
                exact .name isName
            · obtain ⟨type, argument, rfl⟩ := Option.map_eq_some_iff.mp read
              obtain ⟨before, after, blankBefore, isType, blankAfter, text_eq⟩ :=
                argumentType?_eq_some_iff.mp argument
              have spelled := Spells.withLiteral isName blankBefore isType blankAfter
              rwa [← text_eq, split_eq] at spelled
    · cases read
  · intro spelled
    cases spelled with
    | name isName =>
        have stops : ∀ c ∈ ([] : List Char).head?, isNameChar c = false := by simp
        obtain ⟨run, rest⟩ := Text.takeWhile_run isName.2 stops
        rw [List.append_nil] at run rest
        simp [ofTrimmed?, run, rest, isName.1]
    | withLiteral isName blankBefore isType blankAfter =>
        next name before type after =>
          have opens : ∀ c ∈ (parenthesized before type after).head?, isNameChar c = false := by
            rintro c ⟨⟩
            decide
          obtain ⟨run, rest⟩ := Text.takeWhile_run isName.2 opens
          have argument : argumentType? (parenthesized before type after) = some type :=
            argumentType?_eq_some_iff.mpr ⟨before, after, blankBefore, isType, blankAfter, rfl⟩
          have more : (parenthesized before type after).isEmpty = false := rfl
          simp [ofTrimmed?, run, rest, isName.1, argument, more]

theorem parse_eq_ok_iff {signature : String} {pattern : AnnotationPattern} :
    parse signature = .ok pattern ↔ pattern.Spells (Text.trim signature).toList := by
  rw [← ofTrimmed?_eq_some_iff, parse]
  cases ofTrimmed? (Text.trim signature).toList <;> simp

/-! ## Writing -/

theorem filter_of_noBlank {text : List Char} (noBlank : ∀ c ∈ text, Text.isBlank c = false) :
    (text.filter fun c => !Text.isBlank c) = text :=
  List.filter_eq_self.mpr fun c inside => by simp [noBlank c inside]

theorem filter_of_isBlankText {text : List Char} (blank : IsBlankText text) :
    (text.filter fun c => !Text.isBlank c) = [] :=
  List.filter_eq_nil_iff.mpr fun c inside => by simp [blank c inside]

/-- A name is not left out. -/
theorem IsName.filter_classArgument {type : List Char} (isName : IsName type) :
    (some (String.ofList type)).filter (!·.isEmpty) = some (String.ofList type) := by
  have named : (String.ofList type).isEmpty = false := by
    simpa [String.isEmpty_iff] using isName.1
  simp [named]

/-- A pattern is written as what spells it, without blanks. -/
theorem Spells.toList_signature
    {pattern : AnnotationPattern}
    {text : List Char}
    (spelled : pattern.Spells text) :
    pattern.signature.toList = text.filter fun c => !Text.isBlank c := by
  cases spelled with
  | name isName =>
      have kept := filter_of_noBlank fun c inside => isBlank_of_isNameChar (isName.2 c inside)
      rw [List.filter_cons_of_pos (by decide), kept]
      simp [signature]
  | withLiteral isName blankBefore isType blankAfter =>
      have keptName := filter_of_noBlank fun c inside => isBlank_of_isNameChar (isName.2 c inside)
      have keptLiteral :=
        filter_of_noBlank fun c inside => isBlank_of_isNameChar (isType.literal c inside)
      have keptParenthesis : ([')'].filter fun c => !Text.isBlank c) = [')'] := by decide
      rw [List.filter_cons_of_pos (by decide), List.filter_append, keptName, parenthesized,
        List.filter_cons_of_pos (by decide), List.filter_append, filter_of_isBlankText blankBefore,
        List.filter_append, keptLiteral, List.filter_append, filter_of_isBlankText blankAfter,
        keptParenthesis]
      rw [signature, isType.filter_classArgument]
      simp [classSuffix]

theorem Spells.signature
    {pattern : AnnotationPattern}
    {text : List Char}
    (spelled : pattern.Spells text) : pattern.Spells pattern.signature.toList := by
  cases spelled with
  | name isName => simpa [AnnotationPattern.signature] using Spells.name isName
  | withLiteral isName _ isType _ =>
      have noBlank : IsBlankText [] := List.forall_mem_nil _
      have spelled := Spells.withLiteral isName noBlank isType noBlank
      rw [AnnotationPattern.signature, isType.filter_classArgument]
      simpa [parenthesized, classSuffix] using spelled

/-- A pattern that has been read is written without blanks, and read again. -/
theorem signature_of_parse
    {signature : String}
    {pattern : AnnotationPattern}
    (read : parse signature = .ok pattern) :
    pattern.signature = Text.deleteBlanks signature ∧ parse pattern.signature = .ok pattern := by
  have spelled := parse_eq_ok_iff.mp read
  have written := spelled.toList_signature
  rw [Text.filter_toList_trim] at written
  refine ⟨String.toList_inj.mp written, parse_eq_ok_iff.mpr ?_⟩
  have noBlank : ∀ c ∈ pattern.signature.toList, Text.isBlank c = false := by
    intro c inside
    rw [written, Text.deleteBlanks, String.toList_ofList, List.mem_filter] at inside
    simpa using inside.2
  rw [Text.trim_of_noBlank noBlank]
  exact spelled.signature

/--
A text is read as the pattern that it spells apart from blanks at its ends, and refused if it spells
none.  The pattern is written as the text without its blanks, which is read as the same pattern.
-/
theorem parse_inverts_signature (signature : String) :
    (∀ pattern, parse signature = .ok pattern ↔
        pattern.Spells (Text.trim signature).toList) ∧
      (parse signature = .error (.malformed signature) ↔
        ∀ pattern : AnnotationPattern, ¬pattern.Spells (Text.trim signature).toList) ∧
      ∀ pattern, parse signature = .ok pattern →
        pattern.signature = Text.deleteBlanks signature ∧
          parse pattern.signature = .ok pattern := by
  refine ⟨fun pattern => parse_eq_ok_iff, ⟨fun refused pattern spelled => ?_, fun none => ?_⟩,
    fun pattern => signature_of_parse⟩
  · cases refused.symm.trans (parse_eq_ok_iff.mpr spelled)
  · cases read : ofTrimmed? (Text.trim signature).toList with
    | none => rw [parse, read]
    | some pattern => exact absurd (ofTrimmed?_eq_some_iff.mp read) (none pattern)

/-- The name of a class may itself end like a class literal. -/
theorem parse_inverts_signature_literalOfLiteral :
    (⟨"a.B", some "c.class"⟩ : AnnotationPattern).Spells "@a.B( c.class.class\t)".toList ∧
      (⟨"a.B", some "c.class"⟩ : AnnotationPattern).signature = "@a.B(c.class.class)" ∧
      parse "@a.B(c.class.class)" = .ok ⟨"a.B", some "c.class"⟩ := by
  have read : parse " @a.B( c.class.class\t)\n" = .ok ⟨"a.B", some "c.class"⟩ := by rfl
  obtain ⟨spelled, -, inverts⟩ := parse_inverts_signature " @a.B( c.class.class\t)\n"
  obtain ⟨written, again⟩ := inverts _ read
  exact ⟨(spelled _).mp read, written, again⟩

end AnnotationPattern

end JupiterMigration
