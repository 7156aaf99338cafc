import JupiterMigration.Java.Lexer

/-!
# How tokens nest

Braces and the strings around embedded expressions open and close.  Running through some tokens
keeps track of what is open (`nestAll`), and tokens are nested if they close all that they open and
nothing else (`Nested`).  The brace that closes what stands around nested tokens is the first one
that they leave open (`eq_of_nested`).

What is open settles how embedded expressions are counted.  Two countings are alike if they agree on
all that has been opened since they parted (`OpenAlike`).
-/

namespace JupiterMigration.Java

/-- What can be open: a brace, or a string with embedded expressions. -/
inductive Bracket where
  | brace
  | string
  deriving DecidableEq

namespace Bracket

/-- What is left open when a bracket is closed; none if another one has to be closed first. -/
def close (bracket : Bracket) : List Bracket → Option (List Bracket)
  | first :: rest => if first = bracket then some rest else none
  | [] => none

theorem close_eq_some_iff {bracket : Bracket} {stack rest : List Bracket} :
    bracket.close stack = some rest ↔ stack = bracket :: rest := by
  cases stack with
  | nil => simp [close]
  | cons first others => simp [close]

end Bracket

/-- What is open behind a token, if that much is open before it. -/
def Token.nest (stack : List Bracket) (token : Token) : Option (List Bracket) :=
  match token.kind with
  | .stringHead => some (.string :: stack)
  | .stringMiddle => (Bracket.string.close stack).map (.string :: ·)
  | .stringTail => Bracket.string.close stack
  | .symbol =>
    if token.text = "\x7b" then some (.brace :: stack)
    else if token.text = "\x7d" then Bracket.brace.close stack
    else some stack
  | _ => some stack

/-- What is open behind some tokens. -/
def nestAll (stack : List Bracket) (tokens : List Token) : Option (List Bracket) :=
  tokens.foldlM Token.nest stack

/-- Tokens that close all they open and nothing else. -/
def Nested (tokens : List Token) : Prop :=
  nestAll [] tokens = some []

variable {stack after base : List Bracket} {token : Token} {tokens front back : List Token}

theorem nestAll_cons :
    nestAll stack (token :: tokens) = (token.nest stack).bind (nestAll · tokens) :=
  List.foldlM_cons

theorem nestAll_append :
    nestAll stack (front ++ back) = (nestAll stack front).bind (nestAll · back) :=
  List.foldlM_append

/-- Only symbols nest by what they are spelled like. -/
theorem Token.nest_congr
    {kind : TokenKind}
    (noSymbol : kind ≠ .symbol)
    (stack : List Bracket)
    (gap gap' text text' : String) :
    Token.nest stack ⟨gap, text, kind⟩ = Token.nest stack ⟨gap', text', kind⟩ := by
  cases kind <;> first | rfl | exact absurd rfl noSymbol

/-- What is open around a token does not matter. -/
theorem Token.nest_append (nests : token.nest stack = some after) (base : List Bracket) :
    token.nest (stack ++ base) = some (after ++ base) := by
  have closes {bracket : Bracket} {rest : List Bracket} (closed : bracket.close stack = some rest) :
      bracket.close (stack ++ base) = some (rest ++ base) := by
    rw [Bracket.close_eq_some_iff] at closed ⊢
    rw [closed, List.cons_append]
  unfold nest at nests ⊢
  split at nests
  · cases nests
    rfl
  · obtain ⟨rest, closed, rfl⟩ := Option.map_eq_some_iff.mp nests
    rw [closes closed]
    rfl
  · exact closes nests
  · split at nests
    · next opens =>
        cases nests
        rw [if_pos opens]
        rfl
    · next noOpening =>
        rw [if_neg noOpening]
        split at nests
        · next isClosing =>
            rw [if_pos isClosing]
            exact closes nests
        · next noClosing =>
            cases nests
            rw [if_neg noClosing]
  · cases nests
    rfl

theorem nestAll_append_base (nests : nestAll stack tokens = some after) (base : List Bracket) :
    nestAll (stack ++ base) tokens = some (after ++ base) := by
  induction tokens generalizing stack with
  | nil =>
      cases nests
      rfl
  | cons first rest inductionHypothesis =>
      rw [nestAll_cons] at nests ⊢
      obtain ⟨middle, nestsFirst, nestsRest⟩ := Option.bind_eq_some_iff.mp nests
      rw [Token.nest_append nestsFirst]
      exact inductionHypothesis nestsRest

/-- Nested tokens leave open what is open before them. -/
theorem Nested.nestAll_eq (nested : Nested tokens) (stack : List Bracket) :
    nestAll stack tokens = some stack :=
  nestAll_append_base nested stack

/-- A closing brace. -/
def Token.IsClosing (token : Token) : Prop :=
  token.kind = .symbol ∧ token.text = "\x7d"

theorem Token.IsClosing.nest_eq (closes : token.IsClosing) (stack : List Bracket) :
    token.nest stack = Bracket.brace.close stack := by
  unfold nest
  rw [closes.1]
  simp [closes.2]

/-- A closing brace that nothing opens does not stand among nested tokens. -/
theorem not_nested_of_closing
    (nestedFront : Nested front)
    (closes : token.IsClosing)
    (back : List Token) : ¬Nested (front ++ token :: back) := by
  intro nested
  rw [Nested, nestAll_append, nestedFront] at nested
  change nestAll [] (token :: back) = some [] at nested
  rw [nestAll_cons, closes.nest_eq] at nested
  cases nested

/-- Nested tokens go up to the first closing brace that nothing opens among them. -/
theorem eq_of_nested
    {others rest : List Token}
    {last : Token}
    (nestedFront : Nested front)
    (nestedBack : Nested back)
    (closes : token.IsClosing)
    (closesLast : last.IsClosing)
    (same : front ++ token :: others = back ++ last :: rest) :
    front = back ∧ others = rest := by
  rcases List.append_eq_append_iff.mp same with
    ⟨middle, rfl, rest_eq⟩ | ⟨middle, rfl, rest_eq⟩
  · cases middle with
    | nil => exact ⟨(List.append_nil front).symm, (List.cons.inj rest_eq).2⟩
    | cons next more =>
        obtain ⟨rfl, -⟩ := List.cons.inj rest_eq
        exact absurd nestedBack (not_nested_of_closing nestedFront closes more)
  · cases middle with
    | nil => exact ⟨List.append_nil back, (List.cons.inj rest_eq).2.symm⟩
    | cons next more =>
        obtain ⟨rfl, -⟩ := List.cons.inj rest_eq
        exact absurd nestedFront (not_nested_of_closing nestedBack closesLast more)

/-! ## Embedded expressions -/

/-- Two ways to be within embedded expressions, which part below all that is open. -/
inductive OpenAlike (base other : List Embedding) :
    List Bracket → List Embedding → List Embedding → Prop
  | nil : OpenAlike base other [] base other
  | brace {stack : List Bracket} {before after : List Embedding}
      (alike : OpenAlike base other stack before after) :
      OpenAlike base other (.brace :: stack) (countBrace '\x7b' before) (countBrace '\x7b' after)
  | string {stack : List Bracket} {before after : List Embedding}
      (alike : OpenAlike base other stack before after)
      (block : Bool) :
      OpenAlike base other (.string :: stack) (⟨block, 0⟩ :: before) (⟨block, 0⟩ :: after)

/-- The brace that is closed has been counted. -/
theorem countBrace_closing (embeddings : List Embedding) :
    countBrace '\x7d' (countBrace '\x7b' embeddings) = embeddings := by
  cases embeddings <;> simp [countBrace]

/-- Within a brace, a closing brace ends no embedded expression. -/
theorem countBrace_opening_ne
    (embeddings outer : List Embedding)
    (block : Bool) : countBrace '\x7b' embeddings ≠ ⟨block, 0⟩ :: outer := by
  cases embeddings <;> simp [countBrace]

end JupiterMigration.Java
