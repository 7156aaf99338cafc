import JupiterMigration.Proofs.Numbering
import JupiterMigration.Proofs.Reading

/-!
# Printing gives the source back

Each kind of declaration cuts the source of its phrase into pieces of its own.  Here the pieces are
put together again: a member prints the source of its phrase (`print_ofPhrase`), and the tree of a
source prints the source (`print_of_parse`).

The pieces before the name of a declaration depend on whether annotations lead it.  If none do, the
gap before its first token is the lead; otherwise the gap before the first annotation is.  Both
cases are settled once, in `Declared.source_pieces`.
-/

namespace JupiterMigration.Java

open JupiterMigration.Text
open Java.Annotation (leading)

/-! ## Tokens and gaps -/

@[simp] theorem sourceOf_nil : sourceOf [] = "" := rfl

@[simp] theorem sourceOf_cons (token : Token) (tokens : List Token) :
    sourceOf (token :: tokens) = token.gap ++ token.text ++ sourceOf tokens := by
  simp [sourceOf, Token.source]

/-- A text is its leading blanks and the rest, whatever follows it. -/
theorem leadingBlanks_trimStart_append (text more : String) :
    leadingBlanks text ++ (trimStart text ++ more) = text ++ more := by
  rw [← String.append_assoc, leadingBlanks_append_trimStart]

theorem gapOf_append {front : List Token} (nonempty : front ≠ []) (back : List Token) :
    gapOf (front ++ back) = gapOf front := by
  cases front with
  | nil => exact absurd rfl nonempty
  | cons first rest => rfl

theorem textOf_append {front : List Token} (nonempty : front ≠ []) (back : List Token) :
    textOf (front ++ back) = textOf front ++ sourceOf back := by
  cases front with
  | nil => exact absurd rfl nonempty
  | cons first rest => simp [textOf, sourceOf_append, String.append_assoc]

namespace Phrase

@[simp] theorem tokensOfAll_nil : tokensOfAll [] = [] := rfl

@[simp] theorem tokensOfAll_cons (first : Phrase) (rest : List Phrase) :
    tokensOfAll (first :: rest) = first.tokens ++ tokensOfAll rest := rfl

@[simp] theorem tokens_leaf (isName : Bool) (token : Token) :
    (leaf isName token).tokens = [token] :=
  rfl

@[simp] theorem tokens_node (label : Label) (parts : List Phrase) :
    (node label parts).tokens = tokensOfAll parts := rfl

@[simp] theorem sourceOfAll_cons (first : Phrase) (rest : List Phrase) :
    sourceOfAll (first :: rest) = first.source ++ sourceOfAll rest := by
  simp [sourceOfAll, source, sourceOf_append]

/-- A phrase is its gap followed by its text. -/
theorem gap_append_text (phrase : Phrase) : phrase.gap ++ phrase.text = phrase.source :=
  (sourceOf_eq_gapOf_append_textOf phrase.tokens).symm

end Phrase

/-! ## The pieces of a declaration -/

theorem printAll_cons {α : Type} (print : α → String) (first : α) (rest : List α) :
    printAll print (first :: rest) = print first ++ printAll print rest := by
  simp [printAll]

theorem printAll_map_ofPhrase (uses : List Phrase) :
    printAll Annotation.print (uses.map fun use => Annotation.ofPhrase use.gap use) =
      sourceOf (Phrase.tokensOfAll uses) := by
  induction uses with
  | nil => rfl
  | cons first rest inductionHypothesis =>
      rw [List.map_cons, printAll_cons, inductionHypothesis, Phrase.tokensOfAll_cons,
        sourceOf_append]
      exact congrArg (· ++ _) first.gap_append_text

/-- Leading annotations print their text: the gap before the first is the declaration's lead. -/
theorem printAll_leading
    {uses : List Phrase}
    (nonempty : ∀ use ∈ uses, use.tokens ≠ []) :
    printAll Annotation.print (leading uses) = textOf (Phrase.tokensOfAll uses) := by
  cases uses with
  | nil => rfl
  | cons first rest =>
      rw [leading, printAll_cons, printAll_map_ofPhrase, Phrase.tokensOfAll_cons,
        textOf_append (nonempty first (by simp))]
      simp [Phrase.text, Annotation.ofPhrase, Annotation.print]

/-- The leading annotations and the rest make up the declaration. -/
theorem tokens_declared (parts : List Phrase) :
    Phrase.tokensOfAll (declared parts).annotations ++ Phrase.tokensOfAll (declared parts).rest =
      Phrase.tokensOfAll parts := by
  unfold declared
  split
  · next modifiers rest =>
      rw [Phrase.tokensOfAll_append, ← List.append_assoc, ← Phrase.tokensOfAll_append,
        List.takeWhile_append_dropWhile]
      rfl
  · rfl

/-- Annotations and types hold tokens. -/
theorem tokens_ne_nil_of_isA
    {phrase : Phrase}
    {label : Label}
    (shaped : Shaped phrase)
    (labelled : phrase.isA label = true)
    (formed : label = .annotationUse ∨ label = .type) : phrase.tokens ≠ [] := by
  cases phrase with
  | leaf isName token => simp [Phrase.isA, Phrase.label?] at labelled
  | node found parts =>
      simp only [Phrase.isA, Phrase.label?, Option.some.injEq, decide_eq_true_eq] at labelled
      subst labelled
      cases formed with
      | inl isUse => exact (isUse ▸ shaped.1 : HasForm .annotationUse parts)
      | inr isType => exact (isType ▸ shaped.1 : HasForm .type parts)

/-- Annotations of shaped declarations hold tokens. -/
theorem annotation_tokens_ne_nil
    {parts : List Phrase}
    (shaped : ShapedAll parts) :
    ∀ use ∈ (declared parts).annotations, use.tokens ≠ [] := by
  intro use member
  unfold declared at member
  split at member
  · next modifiers rest =>
      have isUse : use.isA .annotationUse = true :=
        List.all_eq_true.mp List.all_takeWhile use member
      have among : use ∈ modifiers := (List.takeWhile_prefix _).subset member
      exact tokens_ne_nil_of_isA (shapedAll_iff.mp shaped.1.2 use among) isUse (.inl rfl)
  · simp at member

namespace Declared

/--
The lead, the leading annotations and the text up to some later token of a declaration are the
source up to this token.
-/
theorem source_pieces
    {decl : Declared}
    (nonempty : ∀ use ∈ decl.annotations, use.tokens ≠ [])
    (tokens : List Token) :
    gapOf (Phrase.tokensOfAll decl.annotations ++ tokens) ++
        printAll Annotation.print (leading decl.annotations) ++
        decl.textAfter tokens =
      sourceOf (Phrase.tokensOfAll decl.annotations ++ tokens) := by
  rw [printAll_leading nonempty]
  cases annotations_eq : decl.annotations with
  | nil =>
      simp only [textAfter, annotations_eq, List.isEmpty_nil, if_true, Phrase.tokensOfAll_nil,
        List.nil_append, textOf, String.append_empty]
      exact (sourceOf_eq_gapOf_append_textOf tokens).symm
  | cons first rest =>
      have firstNonempty : first.tokens ≠ [] := nonempty first (by simp [annotations_eq])
      have someToken : Phrase.tokensOfAll (first :: rest) ≠ [] := by simp [firstNonempty]
      simp only [textAfter, annotations_eq, List.isEmpty_cons, Bool.false_eq_true, if_false]
      rw [gapOf_append someToken, sourceOf_append, ← sourceOf_eq_gapOf_append_textOf]

/--
A text that is cut before some later token, in front of whose gap it ends, can be put together.
-/
theorem textAfter_append
    (decl : Declared)
    (front back : List Token) :
    decl.textAfter front ++ decl.gapAfter front (gapOf back) ++ textOf back =
      decl.textAfter (front ++ back) := by
  unfold textAfter gapAfter
  cases decl.annotations.isEmpty with
  | false =>
      simp only [Bool.false_and, Bool.false_eq_true, if_false]
      rw [String.append_assoc, ← sourceOf_eq_gapOf_append_textOf, sourceOf_append]
  | true =>
      cases front with
      | nil => simp [textOf]
      | cons first rest =>
          simp only [List.isEmpty_cons, Bool.and_false, Bool.false_eq_true, if_false, if_true]
          rw [String.append_assoc, ← sourceOf_eq_gapOf_append_textOf,
            textOf_append (List.cons_ne_nil first rest)]

end Declared

/-! ## Fields -/

/-- A field prints the source of its declaration. -/
theorem print_field
    {parts : List Phrase}
    {field : JupiterMigration.Field}
    (found : Field.ofParts? (gapOf (Phrase.tokensOfAll parts)) parts = some field)
    (shaped : ShapedAll parts) : field.print = Phrase.sourceOfAll parts := by
  unfold Field.ofParts? at found
  split at found
  · next inner _ =>
      simp only [Option.some.injEq] at found
      subst found
      have pieces := Declared.source_pieces (annotation_tokens_ne_nil shaped)
        (Phrase.tokensOfAll (declared parts).rest)
      rw [tokens_declared] at pieces
      simp only [Field.print, Field.body, String.append_assoc,
        leadingBlanks_append_trimStart] at pieces ⊢
      exact pieces
  · simp at found

/-! ## Brackets and bodies -/

namespace Bracketed

/-- The tokens of a bracketed phrase. -/
def tokens (list : Bracketed) : List Token :=
  list.opening :: (Phrase.tokensOfAll list.inner ++ [list.closing])

end Bracketed

theorem bracketed?_eq_some
    {opening closing : String}
    {parts : List Phrase}
    {list : Bracketed}
    (found : bracketed? opening closing parts = some list) :
    list.tokens = Phrase.tokensOfAll parts ∧
      list.opening.text = opening ∧ list.closing.text = closing := by
  obtain ⟨⟨firstIsName, lastIsName, rfl⟩, texts⟩ := parts_of_bracketed? found
  refine ⟨?_, texts⟩
  simp [Bracketed.tokens, Phrase.tokensOfAll_append]

/-- The statements of a body print what stands between the braces. -/
theorem printAll_statements (phrases : List Phrase) :
    printAll Statement.print (phrases.map Statement.ofPhrase) = Phrase.sourceOfAll phrases := by
  induction phrases with
  | nil => rfl
  | cons first rest inductionHypothesis =>
      rw [List.map_cons, printAll_cons, inductionHypothesis, Phrase.sourceOfAll_cons]
      exact congrArg (· ++ _) first.gap_append_text

/-- A body prints its text: the gap before its brace belongs to what stands before. -/
theorem print_body
    {parts : List Phrase}
    {body : Bracketed}
    (found : bracketed? "\x7b" "\x7d" parts = some body) :
    (Block.ofBraced body).print = textOf body.tokens := by
  obtain ⟨_, opens, closes⟩ := bracketed?_eq_some found
  simp only [JupiterMigration.Block.print, JupiterMigration.Block.text, Block.ofBraced, inBraces,
    printAll_statements, Bracketed.tokens, textOf, sourceOf_append, sourceOf_cons, sourceOf_nil,
    opens, closes, String.empty_append, String.append_empty, String.append_assoc,
    Phrase.sourceOfAll]

/-! ## Parameters -/

theorem print_parameter (phrase : Phrase) (trail : String) :
    (Parameter.ofPhrase phrase trail).print = phrase.source ++ trail := by
  rw [← phrase.gap_append_text]
  simp [JupiterMigration.Parameter.print, JupiterMigration.Parameter.body, Parameter.ofPhrase,
    String.append_assoc]

/-- Only an empty list has no parameters. -/
theorem eq_nil_of_ofList_eq_nil
    {closing : Token}
    {inner : List Phrase}
    (found : Parameter.ofList closing inner = some []) : inner = [] := by
  unfold Parameter.ofList at found
  split at found
  · rfl
  · simp at found
  · split at found <;> simp at found
  · simp at found

/-- The parameters of a list print what stands between the parentheses. -/
theorem intercalate_parameters
    {closing : Token}
    {inner : List Phrase}
    {parameters : List JupiterMigration.Parameter}
    (found : Parameter.ofList closing inner = some parameters)
    (nonempty : parameters ≠ []) :
    ",".intercalate (parameters.map JupiterMigration.Parameter.print) =
      Phrase.sourceOfAll inner ++ closing.gap := by
  fun_induction Parameter.ofList closing inner generalizing parameters with
  | case1 =>
      simp only [Option.some.injEq] at found
      exact absurd found.symm nonempty
  | case2 last =>
      simp only [Option.some.injEq] at found
      subst found
      simp [print_parameter, Phrase.sourceOfAll, Phrase.source]
  | case3 phrase isName separator rest separates inductionHypothesis =>
      obtain ⟨others, readOthers, rfl⟩ := Option.map_eq_some_iff.mp found
      have othersNonempty : others ≠ [] := by
        rintro rfl
        exact separates.2 (eq_nil_of_ofList_eq_nil readOthers)
      rw [List.map_cons, String.intercalate_cons_of_ne_nil (by simpa using othersNonempty),
        inductionHypothesis readOthers othersNonempty, print_parameter]
      simp [Phrase.source, separates.1, String.append_assoc]
  | case4 => simp at found
  | case5 => simp at found

/-! ## Methods -/

namespace Method

/-- The tokens of a body, if there is one. -/
def bodyTokens (body : Option Bracketed) : List Token :=
  (body.map Bracketed.tokens).getD []

/-- The tokens of a method from its type or name on. -/
def Header.tokens (header : Header) : List Token :=
  (header.returnType.map Phrase.tokens).getD [] ++
    header.name :: (header.parameters.tokens ++
      (Phrase.tokensOfAll header.back ++ bodyTokens header.body))

theorem tokens_splitBody
    {parts back : List Phrase}
    {body : Option Bracketed}
    (split_eq : splitBody parts = (back, body)) :
    Phrase.tokensOfAll parts = Phrase.tokensOfAll back ++ bodyTokens body ∧
      ∀ list, body = some list → ∃ inner, bracketed? "\x7b" "\x7d" inner = some list := by
  unfold splitBody at split_eq
  split at split_eq
  · next label inner last_eq =>
      obtain ⟨front, rfl⟩ := List.getLast?_eq_some_iff.mp last_eq
      split at split_eq
      · next list found =>
          simp only [List.dropLast_concat, Prod.mk.injEq] at split_eq
          obtain ⟨rfl, rfl⟩ := split_eq
          refine ⟨?_, ?_⟩
          · simp [bodyTokens, Phrase.tokensOfAll_append, (bracketed?_eq_some found).1]
          · rintro _ ⟨⟩
            exact ⟨inner, found⟩
      · simp only [Prod.mk.injEq] at split_eq
        obtain ⟨rfl, rfl⟩ := split_eq
        simp [bodyTokens]
  · simp only [Prod.mk.injEq] at split_eq
    obtain ⟨rfl, rfl⟩ := split_eq
    simp [bodyTokens]

/-- What is known of the parts that a header is made of. -/
structure Header.Sound (header : Header) (tokens : List Token) : Prop where
  tokens_eq : tokens = Phrase.tokensOfAll header.front ++ header.tokens
  type_ne_nil : ∀ type, header.returnType = some type → type.tokens ≠ []
  parameters_eq : ∃ inner, bracketed? "(" ")" inner = some header.parameters
  body_eq : ∀ list, header.body = some list →
    ∃ inner, bracketed? "\x7b" "\x7d" inner = some list

theorem headerFrom?_sound
    {front rest : List Phrase}
    {returnType : Option Phrase}
    {header : Header}
    (found : headerFrom? front returnType rest = some header)
    (typeNonempty : ∀ type, returnType = some type → type.tokens ≠ []) :
    header.Sound (Phrase.tokensOfAll front ++
      ((returnType.map Phrase.tokens).getD [] ++ Phrase.tokensOfAll rest)) := by
  unfold headerFrom? at found
  split at found
  · next isName name parameters after =>
      split at found
      · next list listFound =>
          generalize split_eq : splitBody after = split at found
          obtain ⟨back, body⟩ := split
          simp only [Option.some.injEq] at found
          subst found
          obtain ⟨tokens_eq, bodies⟩ := tokens_splitBody split_eq
          refine ⟨?_, typeNonempty, ⟨parameters, listFound⟩, bodies⟩
          simp [Header.tokens, tokens_eq, (bracketed?_eq_some listFound).1]
      · simp at found
  · simp at found

theorem header?_sound
    {phrase : Phrase}
    {header : Header}
    (found : header? phrase = some header)
    (shaped : Shaped phrase) : header.Sound phrase.tokens := by
  unfold header? at found
  split at found
  · next parts =>
      split at found
      · next type rest rest_eq =>
          have whole : parts = parts.takeWhile (!·.isA .type) ++ type :: rest := by
            rw [← rest_eq, List.takeWhile_append_dropWhile]
          have isType : type.isA .type = true := by
            have := List.head?_dropWhile_not (!·.isA .type) parts
            simpa [rest_eq] using this
          have typeNonempty : type.tokens ≠ [] := by
            refine tokens_ne_nil_of_isA (shapedAll_iff.mp shaped.2 type ?_) isType (.inr rfl)
            rw [whole]
            simp
          have sound := headerFrom?_sound found (by rintro _ ⟨⟩; exact typeNonempty)
          have tokens_eq : Phrase.tokensOfAll parts =
              Phrase.tokensOfAll (parts.takeWhile (!·.isA .type)) ++
                (type.tokens ++ Phrase.tokensOfAll rest) := by
            rw [← Phrase.tokensOfAll_cons, ← Phrase.tokensOfAll_append, ← whole]
          rw [Phrase.tokens_node, tokens_eq]
          exact sound
      · simp at found
  · next parts =>
      have sound := headerFrom?_sound found (by simp)
      have tokens_eq : Phrase.tokensOfAll parts =
          Phrase.tokensOfAll (parts.takeWhile (·.label?.isSome)) ++
            Phrase.tokensOfAll (parts.dropWhile (·.label?.isSome)) := by
        rw [← Phrase.tokensOfAll_append, List.takeWhile_append_dropWhile]
      rw [Phrase.tokens_node, tokens_eq]
      exact sound
  · simp at found

/-- The return type and the name of a method. -/
theorem text_type_name
    {returnType : Option Phrase}
    (name : Token)
    (nonempty : ∀ type, returnType = some type → type.tokens ≠ []) :
    (match returnType.map Phrase.text with
      | some type => type ++ (if returnType.isSome then name.gap else " ")
      | none => "") ++ name.text =
      textOf ((returnType.map Phrase.tokens).getD [] ++ [name]) := by
  cases returnType with
  | none => simp [textOf]
  | some type =>
      simp only [Option.map_some, Option.isSome_some, if_true, Option.getD_some]
      rw [textOf_append (nonempty type rfl)]
      simp [Phrase.text, String.append_assoc]

/-- The parameter list of a method in its parentheses. -/
theorem source_parameters
    {inner : List Phrase}
    {list : Bracketed}
    {parameters : List JupiterMigration.Parameter}
    (found : bracketed? "(" ")" inner = some list)
    (listed : Parameter.ofList list.closing list.inner = some parameters) :
    list.opening.gap ++ "(" ++
        (if parameters.isEmpty then (if parameters.isEmpty then list.closing.gap else "")
          else ",".intercalate (parameters.map JupiterMigration.Parameter.print)) ++ ")" =
      sourceOf list.tokens := by
  obtain ⟨_, opens, closes⟩ := bracketed?_eq_some found
  cases parameters with
  | nil =>
      have empty := eq_nil_of_ofList_eq_nil listed
      simp [Bracketed.tokens, empty, opens, closes, String.append_assoc]
  | cons first rest =>
      rw [List.isEmpty_cons, if_neg (by simp), intercalate_parameters listed (by simp)]
      simp [Bracketed.tokens, Phrase.sourceOfAll, sourceOf_append, opens, closes,
        String.append_assoc]

/-- What stands behind the parameters of a method, and its body. -/
theorem source_back
    (back : List Phrase)
    {body : Option Bracketed}
    (found : ∀ list, body = some list → ∃ inner, bracketed? "\x7b" "\x7d" inner = some list) :
    Phrase.sourceOfAll back ++ (body.map (·.opening.gap)).getD "" ++
        (match body.map Block.ofBraced with
          | some block => block.print
          | none => "") =
      sourceOf (Phrase.tokensOfAll back ++ bodyTokens body) := by
  cases body with
  | none => simp [bodyTokens, Phrase.sourceOfAll]
  | some list =>
      obtain ⟨inner, bodyFound⟩ := found list rfl
      simp only [Option.map_some, Option.getD_some, bodyTokens, sourceOf_append,
        print_body bodyFound, String.append_assoc]
      congr 1
      exact (sourceOf_eq_gapOf_append_textOf list.tokens).symm

/-- The gap before a method's type, or before its name if it has no type. -/
theorem gapOf_header
    {header : Header}
    {tokens : List Token}
    (sound : header.Sound tokens) :
    (header.returnType.map Phrase.gap).getD header.name.gap = gapOf header.tokens := by
  unfold Header.tokens
  cases type_eq : header.returnType with
  | none => rfl
  | some type =>
      simp only [Option.map_some, Option.getD_some]
      rw [gapOf_append (sound.type_ne_nil type type_eq)]
      rfl

/-- The parts of a declaration up to the header of its method. -/
theorem tokens_before_header
    {parts : List Phrase}
    {last : Phrase}
    {header : Header}
    (last_eq : parts.getLast? = some last)
    (found : header? last = some header)
    (shaped : ShapedAll parts) :
    header.Sound last.tokens ∧
      Phrase.tokensOfAll parts =
        Phrase.tokensOfAll (declared parts).annotations ++
          (Phrase.tokensOfAll ((declared parts).rest.dropLast ++ header.front) ++
            header.tokens) := by
  have notModifiers : last.isA .modifiers = false := by
    unfold header? at found
    split at found
    · rfl
    · rfl
    · simp at found
  have sound : header.Sound last.tokens := by
    refine header?_sound found (shapedAll_iff.mp shaped last ?_)
    exact List.mem_of_getLast? last_eq
  obtain ⟨front, rest_eq⟩ := getLast?_declared_rest last_eq notModifiers
  refine ⟨sound, ?_⟩
  rw [← tokens_declared parts, rest_eq, List.dropLast_concat]
  simp [Phrase.tokensOfAll_append, sound.tokens_eq]

/-- From its type or name on, a method prints the text of its header. -/
theorem text_header
    {header : Header}
    {tokens : List Token}
    {parameters : List JupiterMigration.Parameter}
    (sound : header.Sound tokens)
    (listed : Parameter.ofList header.parameters.closing header.parameters.inner =
      some parameters) :
    (match header.returnType.map Phrase.text with
      | some type => type ++ (if header.returnType.isSome then header.name.gap else " ")
      | none => "") ++ header.name.text ++
        (header.parameters.opening.gap ++ "(" ++
          (if parameters.isEmpty then
            (if parameters.isEmpty then header.parameters.closing.gap else "")
          else ",".intercalate (parameters.map JupiterMigration.Parameter.print)) ++ ")") ++
        (Phrase.sourceOfAll header.back ++ (header.body.map (·.opening.gap)).getD "" ++
          (match header.body.map Block.ofBraced with
            | some block => block.print
            | none => "")) =
      textOf header.tokens := by
  obtain ⟨inner, listFound⟩ := sound.parameters_eq
  rw [text_type_name header.name sound.type_ne_nil, source_parameters listFound listed,
    source_back header.back sound.body_eq, String.append_assoc, ← sourceOf_append,
    ← textOf_append (by simp)]
  simp [Header.tokens]

/-- A method prints the source of its declaration. -/
theorem print_method
    {parts : List Phrase}
    {method : JupiterMigration.Method}
    (found : Method.ofParts? (gapOf (Phrase.tokensOfAll parts)) parts = some method)
    (shaped : ShapedAll parts) : method.print = Phrase.sourceOfAll parts := by
  unfold Method.ofParts? at found
  split at found
  · simp at found
  · next last last_eq =>
      split at found
      · simp at found
      · next header headerFound =>
          split at found
          · simp at found
          · next parameters listed =>
              simp only [Option.some.injEq] at found
              subst found
              obtain ⟨sound, tokens_eq⟩ := tokens_before_header last_eq headerFound shaped
              have fromType := text_header sound listed
              have pieces := Declared.source_pieces (annotation_tokens_ne_nil shaped)
                (Phrase.tokensOfAll ((declared parts).rest.dropLast ++ header.front) ++
                  header.tokens)
              rw [← Declared.textAfter_append, ← fromType, ← tokens_eq] at pieces
              rw [gapOf_header sound]
              simp only [JupiterMigration.Method.print, JupiterMigration.Method.text,
                JupiterMigration.Method.typeText, JupiterMigration.Method.parameterText,
                JupiterMigration.Method.bodyText, String.append_assoc,
                leadingBlanks_trimStart_append] at pieces ⊢
              exact pieces

end Method

/-! ## Classes -/

namespace ClassDecl

/-- The parts of a declaration up to the body of its class. -/
theorem tokens_before_body
    {parts : List Phrase}
    {view : View}
    (found : parts.getLast?.bind view? = some view) :
    Phrase.tokensOfAll parts =
      Phrase.tokensOfAll (declared parts).annotations ++
        (Phrase.tokensOfAll ((declared parts).rest.dropLast ++ view.front) ++
          view.body.tokens) := by
  obtain ⟨last, last_eq, viewFound⟩ := Option.bind_eq_some_iff.mp found
  obtain ⟨inner, rfl, bodyFound⟩ := view?_eq_some viewFound
  obtain ⟨front, rest_eq⟩ := getLast?_declared_rest last_eq rfl
  have body_eq := (bracketed?_eq_some bodyFound).1
  rw [← tokens_declared parts, rest_eq, List.dropLast_concat]
  simp [Phrase.tokensOfAll_append, body_eq]

/-- A class prints the source of its declaration if its members print what its body holds. -/
theorem print_class
    {parts : List Phrase}
    {members : List Member}
    {decl : Member}
    (found : ofParts? (gapOf (Phrase.tokensOfAll parts)) parts members = some decl)
    (printed : ∀ view, parts.getLast?.bind view? = some view →
      Member.printMembers members = Phrase.sourceOfAll view.body.inner)
    (shaped : ShapedAll parts) : decl.print = Phrase.sourceOfAll parts := by
  obtain ⟨view, viewFound, rfl⟩ := Option.map_eq_some_iff.mp found
  have tokens_eq := tokens_before_body viewFound
  obtain ⟨last, _, lastFound⟩ := Option.bind_eq_some_iff.mp viewFound
  obtain ⟨inner, _, bodyFound⟩ := view?_eq_some lastFound
  obtain ⟨_, _, closes⟩ := bracketed?_eq_some bodyFound
  have pieces := Declared.source_pieces (annotation_tokens_ne_nil shaped)
    (Phrase.tokensOfAll ((declared parts).rest.dropLast ++ view.front) ++ [view.body.opening])
  have split_eq : Phrase.tokensOfAll parts =
      (Phrase.tokensOfAll (declared parts).annotations ++
        (Phrase.tokensOfAll ((declared parts).rest.dropLast ++ view.front) ++
          [view.body.opening])) ++ (Phrase.tokensOfAll view.body.inner ++ [view.body.closing]) := by
    rw [tokens_eq]
    simp [Bracketed.tokens]
  have whole : Phrase.sourceOfAll parts =
      sourceOf (Phrase.tokensOfAll (declared parts).annotations ++
        (Phrase.tokensOfAll ((declared parts).rest.dropLast ++ view.front) ++
          [view.body.opening])) ++
        sourceOf (Phrase.tokensOfAll view.body.inner ++ [view.body.closing]) := by
    rw [← sourceOf_append, ← split_eq]
    rfl
  rw [← gapOf_append (by simp) (Phrase.tokensOfAll view.body.inner ++ [view.body.closing]),
    ← split_eq] at pieces
  simp only [Member.print, Member.lead, Member.text, ClassHead.front, inBraces,
    printed view viewFound, String.append_assoc, leadingBlanks_trimStart_append] at pieces ⊢
  rw [whole, ← pieces]
  simp [Phrase.sourceOfAll, sourceOf_append, closes, String.append_assoc]

end ClassDecl

/-! ## Members -/

namespace Member

theorem printMembers_map
    (read : Phrase → JupiterMigration.Member)
    {parts : List Phrase}
    (printed : ∀ part ∈ parts, (read part).print = part.source) :
    JupiterMigration.Member.printMembers (parts.map read) = Phrase.sourceOfAll parts := by
  induction parts with
  | nil => rfl
  | cons first rest inductionHypothesis =>
      have head := printed first (by simp)
      have tail := inductionHypothesis fun part member => printed part (by simp [member])
      rw [List.map_cons, JupiterMigration.Member.printMembers, tail, Phrase.sourceOfAll_cons,
        ← head]
      rfl

theorem print_verbatim (phrase : Phrase) :
    (JupiterMigration.Member.verbatim (Verbatim.ofPhrase phrase)).print = phrase.source :=
  phrase.gap_append_text

/-- The class of a declaration prints its source if the members in its body print theirs. -/
theorem print_class_or_verbatim
    {parts : List Phrase}
    (shaped : Shaped (.node .declaration parts))
    (printed : ∀ view, parts.getLast?.bind ClassDecl.view? = some view →
      ∀ part ∈ view.body.inner, (ofPhrase part).print = part.source) :
    ((ClassDecl.ofParts? (Phrase.node .declaration parts).gap parts (declaredIn parts)).getD
      (.verbatim (Verbatim.ofPhrase (.node .declaration parts)))).print =
      (Phrase.node .declaration parts).source := by
  cases found : ClassDecl.ofParts? (Phrase.node .declaration parts).gap parts
      (declaredIn parts) with
  | none => exact print_verbatim _
  | some decl =>
      refine ClassDecl.print_class found ?_ shaped.2
      intro view viewFound
      rw [declaredIn_of_view viewFound shaped]
      exact printMembers_map ofPhrase (printed view viewFound)

/-- A member of a class prints the source of its phrase. -/
theorem print_ofPhrase :
    (phrase : Phrase) → Shaped phrase → (ofPhrase phrase).print = phrase.source
  | .leaf _ _, _ => print_verbatim _
  | .node label parts, shaped => by
      rw [ofPhrase]
      unfold ofClassPart
      split
      · next declarationParts node_eq =>
          obtain ⟨rfl, rfl⟩ := Phrase.node.inj node_eq
          split
          · next field fieldFound => exact print_field fieldFound shaped.2
          · split
            · next method methodFound => exact Method.print_method methodFound shaped.2
            · refine print_class_or_verbatim shaped ?_
              intro view viewFound part inside
              have smaller := sizeOf_lt_of_view viewFound inside
              exact print_ofPhrase part (shaped_of_view viewFound shaped.2 inside)
      · exact print_verbatim _
  termination_by phrase => sizeOf phrase
  decreasing_by
    simp only [Phrase.node.sizeOf_spec]
    omega

/-- A top level declaration prints the source of its phrase. -/
theorem print_ofTopLevel
    (phrase : Phrase)
    (shaped : Shaped phrase) : (ofTopLevel phrase).print = phrase.source := by
  unfold ofTopLevel
  split
  · next decl found =>
      unfold Import.ofPhrase? at found
      split at found
      · simp only [Option.some.injEq] at found
        subst found
        exact Phrase.gap_append_text _
      · simp at found
  · split
    · refine print_class_or_verbatim shaped ?_
      intro view viewFound part inside
      exact print_ofPhrase part (shaped_of_view viewFound shaped.2 inside)
    · exact print_verbatim _

end Member

end JupiterMigration.Java

namespace JupiterMigration.SourceUnit

open Java

theorem exists_of_accepted
    {source : String}
    {path : Option String}
    {next : Nat}
    (accepted : (parse source path next).toBool = true) :
    ∃ result, parse source path next = .ok result := by
  cases parsed : parse source path next with
  | error _ => simp [parsed, Except.toBool] at accepted
  | ok result => exact ⟨result, rfl⟩

/-- The tree of a source prints the source, character by character. -/
theorem print_of_parse
    {source : String}
    {path : Option String}
    {next : Nat}
    {result : SourceUnit × Nat}
    (parsed : parse source path next = .ok result) : result.1.print = source := by
  obtain ⟨phrases, tail, found, rfl⟩ := exists_phrases_of_parse parsed
  obtain ⟨shaped, source_eq⟩ := phrases?_sound found
  have members := Member.printMembers_map Member.ofTopLevel
    fun part member => Member.print_ofTopLevel part (shapedAll_iff.mp shaped part member)
  rw [print_numbered, print, members, String.empty_append]
  exact source_eq

/--
A source with a byte order mark, both kinds of line ends, comments in lists and behind statements,
annotations on both sides of a modifier, a receiver, a variable number of arguments, brackets behind
a parameter list, nested classes, semicolons that stand alone and a comment at the end.
-/
def unusualLayout : String :=
  "\uFEFF// lead\r\npackage a;\r\n@B /* x */ final class C<T extends D> \x7b\r\n" ++
    "\t@E public @F int[] x = \x7b1\x7d, y; ;\n" ++
    "  <U> void f(/* none */) throws G \x7b h(\"caf\u00e9\"); // i\n\x7d\n" ++
    "  abstract int g(C<T> this, @H String... s)[];\n" ++
    "  class I \x7b I() \x7b super(); \x7d \x7d\n\x7d\n;/* end */ "

theorem print_of_parse_unusualLayout :
    ∃ result, parse unusualLayout none 1 = .ok result ∧ result.1.print = unusualLayout := by
  have accepted : (parse unusualLayout none 1).toBool = true := by decide +kernel
  obtain ⟨result, parsed⟩ := exists_of_accepted accepted
  exact ⟨result, parsed, print_of_parse parsed⟩

end JupiterMigration.SourceUnit
