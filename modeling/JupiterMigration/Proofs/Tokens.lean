import JupiterMigration.Java.Lexer

/-!
# Words

A word is made of name characters (`isWord`), and every token that counts as a word is one
(`spelled_of_scan`).
-/

namespace JupiterMigration.Java

open JupiterMigration.Text

/-- Whether a text is spelled like a name. -/
def isWord (text : String) : Bool :=
  match text.toList with
  | first :: rest => isNameStart first && rest.all isNameContinue
  | [] => false

theorem isWord_iff {text : String} :
    isWord text = true ↔ ∃ first rest, text.toList = first :: rest ∧ isNameStart first = true ∧
      ∀ c ∈ rest, isNameContinue c = true := by
  unfold isWord
  cases text.toList with
  | nil => simp
  | cons first rest =>
      rw [Bool.and_eq_true, List.all_eq_true]
      constructor
      · intro spelled
        exact ⟨first, rest, rfl, spelled⟩
      · rintro ⟨_, _, ⟨⟩, spelled⟩
        exact spelled

/-- Whether a text may stand inside a name. -/
def isNamePart (text : String) : Bool :=
  text.toList.all isNameContinue

theorem isNamePart_of_isWord {text : String} (spelled : isWord text = true) :
    isNamePart text = true := by
  obtain ⟨first, rest, text_eq, starts, continues⟩ := isWord_iff.mp spelled
  rw [isNamePart, text_eq, List.all_eq_true, List.forall_mem_cons]
  exact ⟨isNameContinue_of_isNameStart starts, continues⟩

theorem not_mem_of_isNamePart
    {text : String}
    {c : Char}
    (namePart : isNamePart text = true)
    (other : isNameContinue c = false) : c ∉ text.toList := by
  intro inside
  rw [List.all_eq_true.mp namePart c inside] at other
  cases other

/-- A word goes on with what may stand inside a name. -/
theorem isWord_append
    {front back : String}
    (spelled : isWord front = true)
    (goesOn : isNamePart back = true) : isWord (front ++ back) = true := by
  obtain ⟨first, rest, front_eq, starts, continues⟩ := isWord_iff.mp spelled
  refine isWord_iff.mpr ⟨first, rest ++ back.toList, by simp [front_eq], starts, ?_⟩
  intro c inside
  cases List.mem_append.mp inside with
  | inl isFront => exact continues c isFront
  | inr isBack => exact List.all_eq_true.mp goesOn c isBack

/-! ## Tokens that are words -/

/-- Every token that counts as a word is one. -/
def Spelled (tokens : List Token) : Prop :=
  ∀ token ∈ tokens, token.kind = .word → isWord token.text = true

theorem kind_of_stringLexeme
    {opening : Nat}
    {block : Bool}
    {whole embedded : TokenKind}
    {outer : List Embedding}
    {rest : List Char}
    {found : Lexeme}
    (found_eq : stringLexeme opening block whole embedded outer rest = some found) :
    found.kind = whole ∨ found.kind = embedded := by
  unfold stringLexeme at found_eq
  split at found_eq
  · cases found_eq
    exact .inl rfl
  · cases found_eq
    exact .inr rfl
  · cases found_eq

/-- A number is an integer or a floating point number. -/
theorem Numeral.kind_measure (text : List Char) :
    (∃ radix, (Numeral.measure text).1 = .integer radix) ∨
      (Numeral.measure text).1 = .floating := by
  have longest (forms : List (TokenKind × Nat)) (first : TokenKind × Nat)
      (numerals : ∀ form ∈ first :: forms,
        (∃ radix, form.1 = .integer radix) ∨ form.1 = .floating) :
      (∃ radix, (forms.foldl Numeral.longer first).1 = .integer radix) ∨
        (forms.foldl Numeral.longer first).1 = .floating := by
    induction forms generalizing first with
    | nil => exact numerals first List.mem_cons_self
    | cons second rest inductionHypothesis =>
        refine inductionHypothesis _ fun form inside => ?_
        cases inside with
        | head =>
            unfold Numeral.longer
            split
            · exact numerals second (by simp)
            · exact numerals first (by simp)
        | tail _ later =>
            exact numerals form (List.mem_cons_of_mem _ (List.mem_cons_of_mem _ later))
  exact longest _ _ (by simp)

theorem Numeral.kind_measure_ne_word (text : List Char) : (Numeral.measure text).1 ≠ .word := by
  rcases kind_measure text with ⟨radix, same⟩ | same <;> rw [same] <;> simp

/-- What is cut off as a word is a word. -/
theorem isWord_of_lexeme
    {embeddings : List Embedding}
    {text : List Char}
    {found : Lexeme}
    (found_eq : lexeme embeddings text = some found)
    (kind_eq : found.kind = .word) : isWord (String.ofList (text.take found.length)) = true := by
  have noString {opening block whole embedded outer rest}
      (isString : stringLexeme opening block whole embedded outer rest = some found)
      (whole_ne : whole ≠ .word)
      (embedded_ne : embedded ≠ .word) : False := by
    rcases kind_of_stringLexeme isString with same | same
    · exact whole_ne (same ▸ kind_eq)
    · exact embedded_ne (same ▸ kind_eq)
  unfold lexeme at found_eq
  split at found_eq
  · cases found_eq
  · exact (noString found_eq (by decide) (by decide)).elim
  · exact (noString found_eq (by decide) (by decide)).elim
  · dsimp only at found_eq
    split at found_eq
    · cases found_eq
    · cases found_eq
      cases kind_eq
  · next c rest _ _ _ =>
      split at found_eq
      · exact (noString found_eq (by decide) (by decide)).elim
      · split at found_eq
        · next starts =>
            cases found_eq
            refine isWord_iff.mpr ⟨c, rest.takeWhile isNameContinue, ?_, starts, fun d inside => ?_⟩
            · have spelled := List.prefix_iff_eq_take.mp
                (List.takeWhile_prefix (l := rest) isNameContinue)
              rw [Nat.add_comm, List.take_succ_cons, String.toList_ofList, ← spelled]
            · exact List.all_eq_true.mp List.all_takeWhile d inside
        · dsimp only at found_eq
          split at found_eq
          · cases found_eq
            exact absurd kind_eq (Numeral.kind_measure_ne_word (c :: rest))
          · cases found_eq
            cases kind_eq

theorem spelled_of_scanFrom
    {embeddings : List Embedding}
    {text : List Char}
    {tokens : List Token}
    {tail : String}
    (scanned : scanFrom embeddings text = some (tokens, tail)) : Spelled tokens := by
  fun_induction scanFrom embeddings text generalizing tokens tail with
  | case1 => cases scanned
  | case2 =>
      cases scanned
      simp [Spelled]
  | case3 => cases scanned
  | case4 => cases scanned
  | case5 =>
      rename_i found_eq _ more moreTail scannedMore inductionHypothesis
      cases scanned
      intro token inside kind_eq
      cases inside with
      | head => exact isWord_of_lexeme found_eq kind_eq
      | tail _ later => exact inductionHypothesis scannedMore token later kind_eq
  | case6 => cases scanned

/-- The tokens of a source are spelled. -/
theorem spelled_of_scan
    {source : String}
    {tokens : List Token}
    {tail : String}
    (scanned : Token.scan source = some (tokens, tail)) : Spelled tokens := by
  unfold Token.scan at scanned
  split at scanned
  · next rest _ =>
      obtain ⟨⟨more, moreTail⟩, scannedRest, pushed⟩ := Option.map_eq_some_iff.mp scanned
      have words := spelled_of_scanFrom scannedRest
      cases more with
      | nil =>
          cases pushed
          simp [Spelled]
      | cons first others =>
          cases pushed
          intro token inside kind_eq
          cases inside with
          | head => exact words first List.mem_cons_self kind_eq
          | tail _ later => exact words token (List.mem_cons_of_mem _ later) kind_eq
  · exact spelled_of_scanFrom scanned

end JupiterMigration.Java
