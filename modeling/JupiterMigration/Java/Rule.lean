import JupiterMigration.Java.Phrase

/-!
# Grammar rules and how they are read

A grammar is a table from categories to rules.  `Rule.read` reads a rule at the beginning of a list
of tokens and returns the phrases found and the tokens left over.

Choices are ordered: the second alternative counts only where the first cannot be read, and
`guarded` decides by what lies ahead.  Reading loses no token (`read_lossless`).  Recursion is
bounded by a number of steps; `Rule.steps` is enough for every rule in which repeating and recurring
consume tokens.
-/

namespace JupiterMigration.Java

/-- A rule over the categories `C` of a grammar. -/
inductive Rule (C : Type) where
  /-- Nothing at all. -/
  | done
  /-- A given word, used as a keyword. -/
  | word (text : String)
  /-- A given word directly after the previous token, used as a keyword. -/
  | gluedWord (text : String)
  /-- Any word but the given ones, used as a name. -/
  | name (except : List String)
  | symbol (text : String)
  /-- A symbol directly after the previous token. -/
  | glued (text : String)
  /-- A token of a given kind. -/
  | kind (accepts : TokenKind → Bool)
  /-- Whatever the grammar says about a category. -/
  | call (category : C)
  /-- A rule whose phrases become one labelled phrase. -/
  | node (label : Label) (rule : Rule C)
  | seq (first second : Rule C)
  /-- The first alternative that can be read. -/
  | either (first second : Rule C)
  /-- If the guard can be read here, the one rule, else the other. -/
  | guarded (guard yes no : Rule C)
  /-- A rule as often as possible. -/
  | many (rule : Rule C)

namespace Rule

variable {C : Type}

/-- A rule that can never be read. -/
def never : Rule C := .kind fun _ => false

/-- A rule or nothing. -/
def optional (rule : Rule C) : Rule C := .either rule .done

/-- Rules in a row. -/
def all : List (Rule C) → Rule C
  | [] => .done
  | [rule] => rule
  | rule :: rest => .seq rule (all rest)

/-- The first of some rules that can be read. -/
def oneOf : List (Rule C) → Rule C
  | [] => never
  | [rule] => rule
  | rule :: rest => .either rule (oneOf rest)

/-- The rule of the first guard that can be read, else the last rule. -/
def branch (cases : List (Rule C × Rule C)) (otherwise : Rule C) : Rule C :=
  cases.foldr (fun choice rest => .guarded choice.1 choice.2 rest) otherwise

/-- A rule once or more often. -/
def many1 (rule : Rule C) : Rule C := .seq rule (.many rule)

/-- A rule once or more often with a separator between. -/
def separated (rule separator : Rule C) : Rule C :=
  .seq rule (.many (.seq separator rule))

/-- One token that satisfies a test, used as a name or not. -/
def take (isName : Bool) (accepts : Token → Bool) :
    List Token → Option (List Phrase × List Token)
  | token :: rest => if accepts token then some ([.leaf isName token], rest) else none
  | [] => none

/-- Reads a rule at the beginning of the tokens, in at most the given number of nested steps. -/
def read (table : C → Rule C) : Nat → Rule C → List Token → Option (List Phrase × List Token)
  | 0, _, _ => none
  | steps + 1, rule, tokens =>
    match rule with
    | .done => some ([], tokens)
    | .word text => take false (fun token => token.kind == .word && token.text == text) tokens
    | .gluedWord text =>
      take false (fun token => token.kind == .word && token.isGlued && token.text == text) tokens
    | .name except =>
      take true (fun token => token.kind == .word && !except.contains token.text) tokens
    | .symbol text => take false (fun token => token.kind == .symbol && token.text == text) tokens
    | .glued text =>
      take false (fun token => token.kind == .symbol && token.isGlued && token.text == text) tokens
    | .kind accepts => take false (fun token => accepts token.kind) tokens
    | .call category => read table steps (table category) tokens
    | .node label inner =>
      match read table steps inner tokens with
      | some (phrases, rest) => some ([.node label phrases], rest)
      | none => none
    | .seq first second =>
      match read table steps first tokens with
      | some (front, middle) =>
        match read table steps second middle with
        | some (back, rest) => some (front ++ back, rest)
        | none => none
      | none => none
    | .either first second =>
      match read table steps first tokens with
      | some found => some found
      | none => read table steps second tokens
    | .guarded guard yes no =>
      match read table steps guard tokens with
      | some _ => read table steps yes tokens
      | none => read table steps no tokens
    | .many inner =>
      match read table steps inner tokens with
      | some (front, middle) =>
        match read table steps (.many inner) middle with
        | some (back, rest) => some (front ++ back, rest)
        | none => none
      | none => some ([], tokens)

/-- The number of nested steps allowed for a list of tokens. -/
def steps (tokens : List Token) : Nat :=
  2000 * (tokens.length + 1)

/-- Taking one token loses none. -/
theorem take_lossless {isName : Bool} {accepts : Token → Bool} {tokens rest : List Token}
    {phrases : List Phrase} (taken : take isName accepts tokens = some (phrases, rest)) :
    Phrase.tokensOfAll phrases ++ rest = tokens := by
  cases tokens with
  | nil => simp [take] at taken
  | cons first more =>
    simp only [take] at taken
    split at taken
    · simp only [Option.some.injEq, Prod.mk.injEq] at taken
      obtain ⟨rfl, rfl⟩ := taken
      simp [Phrase.tokensOfAll, Phrase.tokens]
    · simp at taken

/-- The phrases read and the tokens left over are the tokens given. -/
theorem read_lossless {table : C → Rule C} {steps : Nat} {rule : Rule C}
    {tokens rest : List Token} {phrases : List Phrase}
    (found : read table steps rule tokens = some (phrases, rest)) :
    Phrase.tokensOfAll phrases ++ rest = tokens := by
  induction steps generalizing rule tokens rest phrases with
  | zero => simp [read] at found
  | succ steps ih =>
    cases rule with
    | done =>
      simp only [read, Option.some.injEq, Prod.mk.injEq] at found
      obtain ⟨rfl, rfl⟩ := found
      simp [Phrase.tokensOfAll]
    | word | gluedWord | name | symbol | glued | kind => exact take_lossless found
    | call category => exact ih found
    | node label inner =>
      simp only [read] at found
      split at found
      · next inside left readInner =>
        simp only [Option.some.injEq, Prod.mk.injEq] at found
        obtain ⟨rfl, rfl⟩ := found
        simpa [Phrase.tokensOfAll, Phrase.tokens] using ih readInner
      · simp at found
    | seq first second =>
      simp only [read] at found
      split at found
      · next front middle readFirst =>
        split at found
        · next back left readSecond =>
          simp only [Option.some.injEq, Prod.mk.injEq] at found
          obtain ⟨rfl, rfl⟩ := found
          rw [Phrase.tokensOfAll_append, List.append_assoc, ih readSecond, ih readFirst]
        · simp at found
      · simp at found
    | either first second =>
      simp only [read] at found
      split at found
      · next result readFirst =>
        simp only [Option.some.injEq] at found
        subst found
        exact ih readFirst
      · exact ih found
    | guarded guard yes no =>
      simp only [read] at found
      split at found
      · exact ih found
      · exact ih found
    | many inner =>
      simp only [read] at found
      split at found
      · next front middle readFirst =>
        split at found
        · next back left readMore =>
          simp only [Option.some.injEq, Prod.mk.injEq] at found
          obtain ⟨rfl, rfl⟩ := found
          rw [Phrase.tokensOfAll_append, List.append_assoc, ih readMore, ih readFirst]
        · simp at found
      · simp only [Option.some.injEq, Prod.mk.injEq] at found
        obtain ⟨rfl, rfl⟩ := found
        simp [Phrase.tokensOfAll]

end Rule

end JupiterMigration.Java
