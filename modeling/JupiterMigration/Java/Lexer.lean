import JupiterMigration.Java.Numeral
import JupiterMigration.Text.Blank

/-!
# From text to tokens

`Token.scan` cuts a source into tokens, each with the gap before it, and the gap at the end.  The
cut loses nothing: `sourceOf tokens ++ tail` is the source (`scan_lossless`).

Symbols are cut as long as possible, with one exception: `>` is always a token of its own, because
only the grammar knows whether `>>` is a shift or closes two lists of type arguments.
-/

namespace JupiterMigration.Java

open JupiterMigration.Text

/-- Where the reading of a gap stands. -/
inductive GapState where
  | outside
  | lineComment
  | blockComment

/-- The length of the gap a text begins with; none if a comment is left open. -/
def gapLength : GapState → List Char → Option Nat
  | .outside, '/' :: '/' :: rest => (gapLength .lineComment rest).map (2 + ·)
  | .outside, '/' :: '*' :: rest => (gapLength .blockComment rest).map (2 + ·)
  | .outside, c :: rest => if isSpace c then (gapLength .outside rest).map (1 + ·) else some 0
  | .lineComment, '\n' :: rest => (gapLength .outside rest).map (1 + ·)
  | .lineComment, _ :: rest => (gapLength .lineComment rest).map (1 + ·)
  | .blockComment, '*' :: '/' :: rest => (gapLength .outside rest).map (2 + ·)
  | .blockComment, _ :: rest => (gapLength .blockComment rest).map (1 + ·)
  | .blockComment, [] => none
  | _, [] => some 0

/-- The symbols of more than one character, those that extend another one first. -/
def longSymbols : List String :=
  ["...", "<<=", "->", "::", "==", "!=", "<=", "<<", "&&", "||", "++", "--", "+=", "-=", "*=",
    "/=", "%=", "&=", "|=", "^="]

/-- The characters that are symbols by themselves. -/
def shortSymbols : String := "()\x7b\x7d[];,.@:?=+-*/%&|^!~<>"

/-- The length of the symbol a text begins with, zero if there is none. -/
def symbolLength (text : List Char) : Nat :=
  match longSymbols.find? fun symbol => symbol.toList.isPrefixOf text with
  | some symbol => symbol.length
  | none =>
    match text with
    | c :: _ => if shortSymbols.toList.contains c then 1 else 0
    | [] => 0

/-- How a string goes on: its length up to the end, or up to and with an opening `\x7b`. -/
inductive StringEnd where
  | closed (length : Nat)
  | embedded (length : Nat)

/-- The string end with `n` more characters in front. -/
def StringEnd.shift (n : Nat) : StringEnd → StringEnd
  | .closed length => .closed (n + length)
  | .embedded length => .embedded (n + length)

/-- Reads on in a string, a text block if `block`; none if it is left open. -/
def stringEnd (block : Bool) : List Char → Option StringEnd
  | [] => none
  | '\\' :: '\x7b' :: _ => some (.embedded 2)
  | '\\' :: _ :: rest => (stringEnd block rest).map (.shift 2)
  | '"' :: rest =>
    if block then
      match rest with
      | '"' :: '"' :: _ => some (.closed 3)
      | _ => (stringEnd block rest).map (.shift 1)
    else some (.closed 1)
  | _ :: rest => (stringEnd block rest).map (.shift 1)

/-- The length of a character literal after its opening quote, zero if it is left open. -/
def characterEnd : List Char → Nat
  | '\\' :: _ :: rest => let more := characterEnd rest; if more = 0 then 0 else 2 + more
  | '\'' :: _ => 1
  | '\n' :: _ => 0
  | '\\' :: [] => 0
  | _ :: rest => let more := characterEnd rest; if more = 0 then 0 else 1 + more
  | [] => 0

/-- An open embedded expression: whether its string is a text block, and its open braces. -/
structure Embedding where
  block : Bool
  braces : Nat

/-- What is cut off next: a kind, a length, and the embedded expressions that are then open. -/
structure Lexeme where
  kind : TokenKind
  length : Nat
  opened : List Embedding

/-- The lexeme of a string that goes on after `opening` characters. -/
def stringLexeme (opening : Nat) (block : Bool) (whole embedded : TokenKind)
    (outer : List Embedding) (rest : List Char) : Option Lexeme :=
  match stringEnd block rest with
  | some (.closed length) => some ⟨whole, opening + length, outer⟩
  | some (.embedded length) => some ⟨embedded, opening + length, ⟨block, 0⟩ :: outer⟩
  | none => none

/-- The embedded expressions that are open after a symbol: braces inside one are counted. -/
def countBrace (symbol : Char) : List Embedding → List Embedding
  | inner :: outer =>
    if symbol == '\x7b' then { inner with braces := inner.braces + 1 } :: outer
    else if symbol == '\x7d' then { inner with braces := inner.braces - 1 } :: outer
    else inner :: outer
  | [] => []

/-- The lexeme that a text without a gap begins with. -/
def lexeme (embeddings : List Embedding) : List Char → Option Lexeme
  | [] => none
  | '"' :: '"' :: '"' :: rest => stringLexeme 3 true .string .stringHead embeddings rest
  | '"' :: rest => stringLexeme 1 false .string .stringHead embeddings rest
  | '\'' :: rest =>
    let length := characterEnd rest
    if length < 2 then none else some ⟨.character, 1 + length, embeddings⟩
  | c :: rest =>
    match c, embeddings with
    | '\x7d', ⟨block, 0⟩ :: outer => stringLexeme 1 block .stringTail .stringMiddle outer rest
    | _, _ =>
      if isNameStart c then
        some ⟨.word, 1 + (rest.takeWhile isNameContinue).length, embeddings⟩
      else
        let (kind, length) := Numeral.measure (c :: rest)
        if 0 < length then some ⟨kind, length, embeddings⟩
        else some ⟨.symbol, symbolLength (c :: rest), countBrace c embeddings⟩

/-- Cuts a text into tokens and the gap after the last one; none if some text is no token. -/
def scanFrom (embeddings : List Embedding) (text : List Char) : Option (List Token × String) :=
  match gapLength .outside text with
  | none => none
  | some gap =>
    let rest := text.drop gap
    if _ended : rest = [] then
      some ([], String.ofList text)
    else
      match lexeme embeddings rest with
      | none => none
      | some found =>
        if _nonempty : 0 < found.length then
          match scanFrom found.opened (rest.drop found.length) with
          | none => none
          | some (tokens, tail) =>
            some (⟨String.ofList (text.take gap), String.ofList (rest.take found.length),
              found.kind⟩ :: tokens, tail)
        else none
  termination_by text.length
  decreasing_by
    have : 0 < rest.length := List.length_pos_iff.2 _ended
    simp only [rest, List.length_drop] at *
    omega

/-- Puts a text in front of the first gap. -/
def pushGap (text : String) : List Token × String → List Token × String
  | ([], tail) => ([], text ++ tail)
  | (first :: rest, tail) => ({ first with gap := text ++ first.gap } :: rest, tail)

/--
Cuts a source into tokens and the gap after the last one.  A byte order mark at the very beginning
counts as a gap.
-/
def Token.scan (source : String) : Option (List Token × String) :=
  match source.toList with
  | '\ufeff' :: rest => (scanFrom [] rest).map (pushGap "\ufeff")
  | text => scanFrom [] text

/-- No text is lost or added by cutting. -/
theorem scanFrom_lossless {embeddings : List Embedding} {text : List Char} {tokens : List Token}
    {tail : String} (scanned : scanFrom embeddings text = some (tokens, tail)) :
    sourceOf tokens ++ tail = String.ofList text := by
  fun_induction scanFrom embeddings text generalizing tokens tail with
  | case1 => simp at scanned
  | case2 =>
    simp only [Option.some.injEq, Prod.mk.injEq] at scanned
    obtain ⟨rfl, rfl⟩ := scanned
    simp [sourceOf]
  | case3 => simp at scanned
  | case4 => simp at scanned
  | case5 =>
    rename_i more moreTail scannedMore ih
    simp only [Option.some.injEq, Prod.mk.injEq] at scanned
    obtain ⟨rfl, rfl⟩ := scanned
    have remaining := ih scannedMore
    simp only [sourceOf, List.map_cons, String.join_cons, Token.source] at remaining ⊢
    rw [String.append_assoc, remaining, String.append_assoc, ← String.ofList_append,
      List.take_append_drop, ← String.ofList_append, List.take_append_drop]
  | case6 => simp at scanned

/-- The tokens and the gap at the end make up the source. -/
theorem Token.scan_lossless {source : String} {tokens : List Token} {tail : String}
    (scanned : Token.scan source = some (tokens, tail)) : sourceOf tokens ++ tail = source := by
  unfold Token.scan at scanned
  split at scanned
  · next rest begins =>
    cases scannedRest : scanFrom [] rest with
    | none => simp [scannedRest] at scanned
    | some result =>
      obtain ⟨more, moreTail⟩ := result
      have remaining := scanFrom_lossless scannedRest
      have whole : source = "\ufeff" ++ String.ofList rest := by
        rw [← String.ofList_toList (s := source), begins, ← String.ofList_toList (s := "\ufeff"),
          ← String.ofList_append]
        rfl
      cases more with
      | nil =>
        simp [scannedRest, pushGap] at scanned
        obtain ⟨rfl, rfl⟩ := scanned
        simp_all [sourceOf]
      | cons first others =>
        simp [scannedRest, pushGap] at scanned
        obtain ⟨rfl, rfl⟩ := scanned
        rw [whole, ← remaining]
        simp [sourceOf, Token.source, String.append_assoc]
  · have remaining := scanFrom_lossless scanned
    simpa using remaining

end JupiterMigration.Java
