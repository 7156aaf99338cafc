import JupiterMigration.Proofs.Grammar.Outcome
import Mathlib.Data.List.Lattice

/-!
# Reading up to a semicolon

A rule takes a closing bracket only for an opening one that it has taken itself.  So a rule that is
read where the tokens up to a semicolon leave no bracket open looks at most as far as this
semicolon, unless it takes a semicolon outside of brackets.  What it reads does not depend on what
follows the semicolon (`exists_read_of_balance`), even if it ends with the semicolon
(`read_of_ends`).
-/

namespace JupiterMigration.Java

/-! ## Brackets -/

/-- The symbols that open what others close. -/
def isOpening (text : String) : Bool := text == "(" || text == "\x7b"

/-- The symbols that close what others open. -/
def isClosing (text : String) : Bool := text == ")" || text == "\x7d"

namespace Token

/-- How many brackets are open around a token and what follows it, if that many are after it. -/
def around (token : Token) (after : Nat) : Option Nat :=
  if token.kind = .symbol then
    if isOpening token.text then if after = 0 then none else some (after - 1)
    else if isClosing token.text then some (after + 1)
    else some after
  else some after

end Token

/-- How many brackets some tokens close; none if they leave one open. -/
def enclosing : List Token → Option Nat
  | [] => some 0
  | token :: rest => (enclosing rest).bind token.around

theorem enclosing_concat
    {token : Token}
    (front : List Token)
    (plain : token.around 0 = some 0) : enclosing (front ++ [token]) = enclosing front := by
  induction front with
  | nil => exact plain
  | cons first rest inductionHypothesis =>
      rw [List.cons_append, enclosing, enclosing, inductionHypothesis]

/-! ## Rules that close what they open -/

namespace Rule

variable {C : Type}

/-- How many brackets are open after a symbol, of which a rule may have taken some. -/
def depthAfter (outside : Bool) (text : String) (depth : Nat) : Option Nat :=
  if isOpening text then some (depth + 1)
  else if isClosing text then if depth = 0 then none else some (depth - 1)
  else if text = ";" ∧ outside ∧ depth = 0 then none
  else some depth

/-- All of some depths; none if one of them is not certain. -/
def gather : List (Option (List Nat)) → Option (List Nat)
  | [] => some []
  | none :: _ => none
  | some depths :: rest => (gather rest).map (depths ∪ ·)

/--
How many brackets may be open after a rule of those that have been opened since reading began; none
if the rule takes a closing bracket that has not been opened.  Where reading began outside of any
bracket, semicolons may only be taken within brackets, and only the categories that are known to
keep to this may be called outside.
-/
def balance (keeps : C → Bool) (outside : Bool) (depth : Nat) : Rule C → Option (List Nat)
  | .done | .word _ | .gluedWord _ | .name _ => some [depth]
  | .symbol text | .glued text => (depthAfter outside text depth).map ([·])
  | .kind accepts => if accepts .symbol then none else some [depth]
  | .call category => if outside && depth == 0 && !keeps category then none else some [depth]
  | .node _ inner => balance keeps outside depth inner
  | .seq first second =>
    (balance keeps outside depth first).bind fun middles =>
      gather (middles.map fun middle => balance keeps outside middle second)
  | .either first second =>
    gather [balance keeps outside depth first, balance keeps outside depth second]
  | .guarded guard yes no =>
    (balance keeps outside depth guard).bind fun _ =>
      gather [balance keeps outside depth yes, balance keeps outside depth no]
  | .many inner =>
    if balance keeps outside depth inner = some [depth] then some [depth] else none

/-- A table whose rules close what they open, and take no semicolon outside if they are known to. -/
structure Balanced (table : C → Rule C) (keeps : C → Bool) : Prop where
  within : ∀ category, balance keeps false 0 (table category) = some [0]
  outside : ∀ category, keeps category = true → balance keeps true 0 (table category) = some [0]

theorem exists_of_gather
    {options : List (Option (List Nat))}
    {all : List Nat}
    (gathered : gather options = some all) :
    ∀ option ∈ options, ∃ depths, option = some depths ∧ depths ⊆ all := by
  induction options generalizing all with
  | nil => exact fun _ absurd => by cases absurd
  | cons first rest inductionHypothesis =>
      cases first with
      | none => cases gathered
      | some depths =>
          obtain ⟨others, gatheredRest, rfl⟩ := Option.map_eq_some_iff.mp gathered
          intro option among
          cases among with
          | head => exact ⟨depths, rfl, fun _ inside => List.mem_union_left inside others⟩
          | tail _ later =>
              obtain ⟨found, same, inside⟩ := inductionHypothesis gatheredRest option later
              exact ⟨found, same, fun _ isFound => List.mem_union_right depths (inside isFound)⟩

variable {table : C → Rule C} {keeps : C → Bool}

/-! ## Reading before a semicolon -/

/--
What is read before a token, whatever follows it: it is among the tokens left over, and after the
tokens taken, one of some numbers of brackets is open.
-/
def StopsBefore
    (stop : Token)
    (arounds : List Nat)
    (read : List Token → Option (List Phrase × List Token)) : Prop :=
  ∃ found : Option (List Phrase × List Token),
    (∀ rest, read rest = found.map fun result => (result.1, result.2 ++ stop :: rest)) ∧
      ∀ result ∈ found, ∃ around ∈ arounds, enclosing result.2 = some around

/-- The semicolon that ends a declaration. -/
def IsEnd (token : Token) : Prop := token.kind = .symbol ∧ token.text = ";"

variable {stop : Token} {front : List Token} {arounds : List Nat}

namespace StopsBefore

variable {read other : List Token → Option (List Phrase × List Token)}

theorem of_none (arounds : List Nat) : StopsBefore stop arounds fun _ => none :=
  ⟨none, fun _ => rfl, fun _ absurd => by cases absurd⟩

theorem of_some
    {around : Nat}
    (phrases : List Phrase)
    (allowed : around ∈ arounds)
    (inside : enclosing front = some around) :
    StopsBefore stop arounds fun rest => some (phrases, front ++ stop :: rest) :=
  ⟨some (phrases, front), fun _ => rfl, fun _ same => by cases same; exact ⟨_, allowed, inside⟩⟩

theorem mono
    {more : List Nat}
    (stops : StopsBefore stop arounds read)
    (fewer : arounds ⊆ more) : StopsBefore stop more read := by
  obtain ⟨found, read_eq, inside⟩ := stops
  refine ⟨found, read_eq, fun result isFound => ?_⟩
  obtain ⟨around, allowed, around_eq⟩ := inside result isFound
  exact ⟨around, fewer allowed, around_eq⟩

theorem map
    (view : List Phrase → List Phrase)
    (stops : StopsBefore stop arounds read) :
    StopsBefore stop arounds fun rest =>
      match read rest with
      | some (phrases, left) => some (view phrases, left)
      | none => none := by
  obtain ⟨found, read_eq, inside⟩ := stops
  cases found with
  | none =>
      simp only [read_eq, Option.map_none]
      exact .of_none arounds
  | some result =>
      obtain ⟨around, allowed, around_eq⟩ := inside result rfl
      simp only [read_eq, Option.map_some]
      exact .of_some _ allowed around_eq

/-- One rule after another. -/
theorem andThen
    {afters : List Nat}
    {resume : List Token → Option (List Phrase × List Token)}
    (stops : StopsBefore stop arounds read)
    (later : ∀ around ∈ arounds, ∀ left, enclosing left = some around →
      StopsBefore stop afters fun rest => resume (left ++ stop :: rest))
    (otherwise : StopsBefore stop afters other) :
    StopsBefore stop afters fun rest =>
      match read rest with
      | some (phrases, left) =>
        match resume left with
        | some (more, beyond) => some (phrases ++ more, beyond)
        | none => none
      | none => other rest := by
  obtain ⟨found, read_eq, inside⟩ := stops
  cases found with
  | none =>
      simp only [read_eq, Option.map_none]
      exact otherwise
  | some result =>
      obtain ⟨around, allowed, around_eq⟩ := inside result rfl
      have stopsLater := later around allowed result.2 around_eq
      simpa only [read_eq, Option.map_some] using stopsLater.map (result.1 ++ ·)

/-- The first of two rules that is read. -/
theorem orElse
    (stops : StopsBefore stop arounds read)
    (otherStops : StopsBefore stop arounds other) :
    StopsBefore stop arounds fun rest =>
      match read rest with
      | some found => some found
      | none => other rest := by
  obtain ⟨found, read_eq, inside⟩ := stops
  cases found with
  | none =>
      simp only [read_eq, Option.map_none]
      exact otherStops
  | some result =>
      obtain ⟨around, allowed, around_eq⟩ := inside result rfl
      simp only [read_eq, Option.map_some]
      exact .of_some _ allowed around_eq

/-- A rule that depends on what is ahead. -/
theorem guarded
    {guardArounds : List Nat}
    {guard : List Token → Option (List Phrase × List Token)}
    (guardStops : StopsBefore stop guardArounds guard)
    (stops : StopsBefore stop arounds read)
    (otherStops : StopsBefore stop arounds other) :
    StopsBefore stop arounds fun rest =>
      match guard rest with
      | some _ => read rest
      | none => other rest := by
  obtain ⟨found, guard_eq, -⟩ := guardStops
  cases found with
  | none =>
      simp only [guard_eq, Option.map_none]
      exact otherStops
  | some result =>
      simp only [guard_eq, Option.map_some]
      exact stops

theorem take
    {around after : Nat}
    {accepts : Token → Bool}
    (isName : Bool)
    (inside : enclosing front = some around)
    (refuses : around = 0 → accepts stop = false)
    (moves : ∀ token next, accepts token = true → token.around next = some around → next = after) :
    StopsBefore stop [after] fun rest => Rule.take isName accepts (front ++ stop :: rest) := by
  cases front with
  | nil =>
      have refused := refuses (Option.some.inj inside).symm
      simpa [Rule.take, refused] using StopsBefore.of_none [after]
  | cons token rest =>
      obtain ⟨next, inside_rest, moved⟩ := Option.bind_eq_some_iff.mp inside
      cases accepted : accepts token with
      | false => simpa [Rule.take, accepted] using StopsBefore.of_none [after]
      | true =>
          rw [moves token next accepted moved] at inside_rest
          simpa [Rule.take, accepted] using
            StopsBefore.of_some [.leaf isName token] (List.mem_singleton_self after) inside_rest

/-- A word is taken before the token that stops, and no bracket with it. -/
theorem takeWord
    {around : Nat}
    {accepts : Token → Bool}
    (isName : Bool)
    (isEnd : IsEnd stop)
    (inside : enclosing front = some around)
    (noSymbol : ∀ token, accepts token = true → token.kind ≠ .symbol) :
    StopsBefore stop [around] fun rest => Rule.take isName accepts (front ++ stop :: rest) := by
  refine .take isName inside (fun _ => ?_) fun token next accepted moved => ?_
  · cases accepted : accepts stop with
    | false => rfl
    | true => exact absurd isEnd.1 (noSymbol stop accepted)
  · simpa [Token.around, noSymbol token accepted] using moved

/-- A symbol is taken before the token that stops, with the bracket that it opens or closes. -/
theorem takeSymbol
    {outside : Bool}
    {base depth after : Nat}
    {text : String}
    {accepts : Token → Bool}
    (isEnd : IsEnd stop)
    (within : outside = false → 0 < base)
    (balanced : depthAfter outside text depth = some after)
    (inside : enclosing front = some (base + depth))
    (isSymbol : ∀ token, accepts token = true → token.kind = .symbol ∧ token.text = text) :
    StopsBefore stop [base + after] fun rest =>
      Rule.take false accepts (front ++ stop :: rest) := by
  refine .take false inside (fun none => ?_) fun token next accepted moved => ?_
  · cases accepted : accepts stop with
    | false => rfl
    | true =>
        have text_eq : text = ";" := (isSymbol stop accepted).2.symm.trans isEnd.2
        have isOutside : outside = true := by
          cases outside with
          | true => rfl
          | false =>
              have some := within rfl
              omega
        have depth_eq : depth = 0 := by omega
        rw [text_eq, isOutside, depth_eq] at balanced
        cases balanced
  · obtain ⟨kind_eq, text_eq⟩ := isSymbol token accepted
    rw [Token.around, if_pos kind_eq, text_eq] at moved
    unfold depthAfter at balanced
    grind

end StopsBefore

/-- Before a token that stops it, reading does not depend on what follows this token. -/
theorem stopsBefore_of_balance
    (balanced_table : Balanced table keeps)
    (isEnd : IsEnd stop)
    (steps : Nat)
    {rule : Rule C}
    {outside : Bool}
    {base depth : Nat}
    {afters : List Nat}
    (within : outside = false → 0 < base)
    (balanced : balance keeps outside depth rule = some afters)
    (inside : enclosing front = some (base + depth)) :
    StopsBefore stop (afters.map (base + ·)) fun rest =>
      read table steps rule (front ++ stop :: rest) := by
  induction steps generalizing rule outside base depth afters front with
  | zero => exact .of_none _
  | succ steps inductionHypothesis =>
      cases rule with
      | done =>
          cases balanced
          exact .of_some [] (List.mem_singleton_self _) inside
      | word | gluedWord =>
          cases balanced
          exact .takeWord false isEnd inside fun token accepted => by simp_all
      | name =>
          cases balanced
          exact .takeWord true isEnd inside fun token accepted => by simp_all
      | symbol text =>
          obtain ⟨after, moved, rfl⟩ := Option.map_eq_some_iff.mp balanced
          exact .takeSymbol isEnd within moved inside fun token accepted => by simpa using accepted
      | glued text =>
          obtain ⟨after, moved, rfl⟩ := Option.map_eq_some_iff.mp balanced
          refine .takeSymbol isEnd within moved inside fun token accepted => ?_
          simp only [Bool.and_eq_true, beq_iff_eq] at accepted
          exact ⟨accepted.1.1, accepted.2⟩
      | kind accepts =>
          rw [balance] at balanced
          split at balanced
          · cases balanced
          · next noSymbol =>
              cases balanced
              exact .takeWord false isEnd inside fun token accepted same =>
                noSymbol (same ▸ accepted)
      | call category =>
          rw [balance] at balanced
          split at balanced
          · cases balanced
          · next allowed =>
              cases balanced
              have called (outside : Bool) (within : outside = false → 0 < base + depth)
                  (closes : balance keeps outside 0 (table category) = some [0]) :=
                inductionHypothesis within closes inside
              by_cases strict : outside = true ∧ depth = 0
              · obtain ⟨rfl, rfl⟩ := strict
                have kept : keeps category = true := by simpa using allowed
                exact called true (fun absurd => by cases absurd)
                  (balanced_table.outside category kept)
              · refine called false (fun _ => ?_) (balanced_table.within category)
                cases outside with
                | false => exact Nat.add_pos_left (within rfl) depth
                | true =>
                    have opened : depth ≠ 0 := fun none => strict ⟨rfl, none⟩
                    exact Nat.add_pos_right base (Nat.pos_of_ne_zero opened)
      | node label inner =>
          have innerBalanced : balance keeps outside depth inner = some afters := balanced
          exact (inductionHypothesis within innerBalanced inside).map fun parts =>
            [.node label parts]
      | seq first second =>
          obtain ⟨middles, firstBalanced, gathered⟩ := Option.bind_eq_some_iff.mp balanced
          refine (inductionHypothesis within firstBalanced inside).andThen
            (fun around among left leftInside => ?_) (.of_none _)
          obtain ⟨middle, isMiddle, rfl⟩ := List.mem_map.mp among
          obtain ⟨depths, secondBalanced, fewer⟩ :=
            exists_of_gather gathered _ (List.mem_map_of_mem isMiddle)
          exact (inductionHypothesis within secondBalanced leftInside).mono
            (List.map_subset _ fewer)
      | either first second =>
          obtain ⟨firstDepths, firstBalanced, firstFewer⟩ :=
            exists_of_gather balanced _ List.mem_cons_self
          obtain ⟨secondDepths, secondBalanced, secondFewer⟩ :=
            exists_of_gather balanced _ (List.mem_cons_of_mem _ List.mem_cons_self)
          exact ((inductionHypothesis within firstBalanced inside).mono
              (List.map_subset _ firstFewer)).orElse
            ((inductionHypothesis within secondBalanced inside).mono
              (List.map_subset _ secondFewer))
      | guarded guard yes no =>
          obtain ⟨guardDepths, guardBalanced, gathered⟩ := Option.bind_eq_some_iff.mp balanced
          obtain ⟨yesDepths, yesBalanced, yesFewer⟩ :=
            exists_of_gather gathered _ List.mem_cons_self
          obtain ⟨noDepths, noBalanced, noFewer⟩ :=
            exists_of_gather gathered _ (List.mem_cons_of_mem _ List.mem_cons_self)
          exact (inductionHypothesis within guardBalanced inside).guarded
            ((inductionHypothesis within yesBalanced inside).mono (List.map_subset _ yesFewer))
            ((inductionHypothesis within noBalanced inside).mono (List.map_subset _ noFewer))
      | many inner =>
          rw [balance] at balanced
          split at balanced
          · next same =>
              cases balanced
              refine (inductionHypothesis within same inside).andThen
                (fun around among left leftInside => ?_)
                (.of_some [] (List.mem_singleton_self _) inside)
              obtain rfl : around = base + depth := by simpa using among
              refine inductionHypothesis within ?_ leftInside
              rw [balance, if_pos same]
          · cases balanced

/-! ## Rules that end with a semicolon -/

/-- Whether a rule takes a semicolon outside of brackets at its end, if at all, and only there. -/
def ends (table : C → Rule C) (keeps : C → Bool) : Nat → Rule C → Bool
  | 0, _ => false
  | depth + 1, rule =>
    balance keeps true 0 rule = some [0] ||
      match rule with
      | .symbol text => text == ";"
      | .call category => ends table keeps depth (table category)
      | .node _ inner => ends table keeps depth inner
      | .seq first second => balance keeps true 0 first = some [0] && ends table keeps depth second
      | .either first second => ends table keeps depth first && ends table keeps depth second
      | .guarded guard yes no =>
        ((balance keeps true 0 guard).isSome || ends table keeps depth guard) &&
          ends table keeps depth yes && ends table keeps depth no
      | _ => false

/-- What is read up to and with a token, or before it, whatever follows it. -/
def StopsAt
    (stop : Token)
    (read : List Token → Option (List Phrase × List Token)) : Prop :=
  StopsBefore stop [0] read ∨ ∃ phrases, ∀ rest, read rest = some (phrases, rest)

/-- Whether something is read at all, whatever follows a token. -/
def IsCertain (read : List Token → Option (List Phrase × List Token)) : Prop :=
  (∀ rest, read rest = none) ∨ ∀ rest, ∃ found, read rest = some found

theorem StopsBefore.isCertain
    {read : List Token → Option (List Phrase × List Token)}
    (stops : StopsBefore stop arounds read) : IsCertain read := by
  obtain ⟨found, read_eq, -⟩ := stops
  cases found with
  | none => exact .inl read_eq
  | some result => exact .inr fun rest => ⟨_, read_eq rest⟩

namespace StopsAt

variable {read other : List Token → Option (List Phrase × List Token)}

theorem isCertain (stops : StopsAt stop read) : IsCertain read := by
  cases stops with
  | inl before => exact before.isCertain
  | inr whole =>
      obtain ⟨phrases, read_eq⟩ := whole
      exact .inr fun rest => ⟨_, read_eq rest⟩

theorem map
    (view : List Phrase → List Phrase)
    (stops : StopsAt stop read) :
    StopsAt stop fun rest =>
      match read rest with
      | some (phrases, left) => some (view phrases, left)
      | none => none := by
  cases stops with
  | inl before => exact .inl (before.map view)
  | inr whole =>
      obtain ⟨phrases, read_eq⟩ := whole
      exact .inr ⟨view phrases, fun rest => by simp only [read_eq]⟩

theorem orElse
    (stops : StopsAt stop read)
    (otherStops : StopsAt stop other) :
    StopsAt stop fun rest =>
      match read rest with
      | some found => some found
      | none => other rest := by
  cases stops with
  | inr whole =>
      obtain ⟨phrases, read_eq⟩ := whole
      exact .inr ⟨phrases, fun rest => by simp only [read_eq]⟩
  | inl before =>
      obtain ⟨found, read_eq, inside⟩ := before
      cases found with
      | none =>
          simp only [read_eq, Option.map_none]
          exact otherStops
      | some result =>
          obtain ⟨around, allowed, around_eq⟩ := inside result rfl
          simp only [read_eq, Option.map_some]
          exact .inl (.of_some _ allowed around_eq)

theorem guarded
    {guard : List Token → Option (List Phrase × List Token)}
    (certain : IsCertain guard)
    (stops : StopsAt stop read)
    (otherStops : StopsAt stop other) :
    StopsAt stop fun rest =>
      match guard rest with
      | some _ => read rest
      | none => other rest := by
  cases certain with
  | inl never =>
      simp only [never]
      exact otherStops
  | inr always =>
      convert stops using 2 with rest
      obtain ⟨found, guard_eq⟩ := always rest
      rw [guard_eq]

/-- A semicolon, where the brackets before the one that stops are closed. -/
theorem takeSemicolon
    (isEnd : IsEnd stop)
    {accepts : Token → Bool}
    (isSemicolon : ∀ token, accepts token = (token.kind == .symbol && token.text == ";"))
    (inside : enclosing front = some 0) :
    StopsAt stop fun rest => Rule.take false accepts (front ++ stop :: rest) := by
  cases front with
  | nil =>
      refine .inr ⟨[.leaf false stop], fun rest => ?_⟩
      simp [Rule.take, isSemicolon, isEnd.1, isEnd.2]
  | cons token others =>
      obtain ⟨next, insideOthers, moved⟩ := Option.bind_eq_some_iff.mp inside
      refine .inl ?_
      cases accepted : accepts token with
      | false => simpa [Rule.take, accepted] using StopsBefore.of_none [0]
      | true =>
          have token_eq : token.kind = .symbol ∧ token.text = ";" := by
            simpa [isSemicolon] using accepted
          have next_eq : next = 0 := by
            simpa [Token.around, token_eq, isOpening, isClosing] using moved
          rw [next_eq] at insideOthers
          simpa [Rule.take, accepted] using
            StopsBefore.of_some [.leaf false token] (List.mem_singleton_self 0) insideOthers

end StopsAt

section Ends

variable (balanced_table : Balanced table keeps) (isEnd : IsEnd stop)

include balanced_table isEnd

/-- Outside of brackets, what takes no semicolon is read before the one that stops it. -/
theorem stopsBefore_outside
    (steps : Nat)
    {rule : Rule C}
    {afters : List Nat}
    (balanced : balance keeps true 0 rule = some afters)
    (inside : enclosing front = some 0) :
    StopsBefore stop afters fun rest => read table steps rule (front ++ stop :: rest) := by
  have closed : enclosing front = some (0 + 0) := inside
  have stops := stopsBefore_of_balance balanced_table isEnd steps (fun absurd => by cases absurd)
    balanced closed
  simpa using stops

theorem stopsAt_of_ends
    (steps depth : Nat)
    {rule : Rule C}
    (endsThere : ends table keeps depth rule = true)
    (inside : enclosing front = some 0) :
    StopsAt stop fun rest => read table steps rule (front ++ stop :: rest) := by
  induction steps generalizing rule depth front with
  | zero => exact .inl (.of_none _)
  | succ steps inductionHypothesis =>
      cases depth with
      | zero => cases endsThere
      | succ depth =>
          by_cases balanced : balance keeps true 0 rule = some [0]
          · exact .inl (stopsBefore_outside balanced_table isEnd _ balanced inside)
          · cases rule with
            | symbol text =>
                obtain rfl : text = ";" := by simpa [ends, balanced] using endsThere
                exact .takeSemicolon isEnd (fun _ => rfl) inside
            | call category =>
                simp only [ends, balanced, decide_false, Bool.false_or] at endsThere
                exact inductionHypothesis depth endsThere inside
            | node label inner =>
                simp only [ends, balanced, decide_false, Bool.false_or] at endsThere
                exact (inductionHypothesis depth endsThere inside).map fun parts =>
                  [.node label parts]
            | seq first second =>
                simp only [ends, balanced, decide_false, Bool.false_or, Bool.and_eq_true,
                  decide_eq_true_eq] at endsThere
                obtain ⟨found, read_eq, insideMiddle⟩ :=
                  stopsBefore_outside balanced_table isEnd steps endsThere.1 inside
                cases found with
                | none =>
                    refine .inl ?_
                    simp only [read, read_eq, Option.map_none]
                    exact .of_none _
                | some result =>
                    obtain ⟨around, among, around_eq⟩ := insideMiddle result rfl
                    obtain rfl : around = 0 := by simpa using among
                    simp only [read, read_eq, Option.map_some]
                    exact (inductionHypothesis depth endsThere.2 around_eq).map (result.1 ++ ·)
            | either first second =>
                simp only [ends, balanced, decide_false, Bool.false_or, Bool.and_eq_true]
                  at endsThere
                exact (inductionHypothesis depth endsThere.1 inside).orElse
                  (inductionHypothesis depth endsThere.2 inside)
            | guarded guard yes no =>
                simp only [ends, balanced, decide_false, Bool.false_or, Bool.and_eq_true,
                  Bool.or_eq_true] at endsThere
                refine .guarded ?_ (inductionHypothesis depth endsThere.1.2 inside)
                  (inductionHypothesis depth endsThere.2 inside)
                cases endsThere.1.1 with
                | inl certain =>
                    obtain ⟨afters, guardBalanced⟩ := Option.isSome_iff_exists.mp certain
                    exact (stopsBefore_outside balanced_table isEnd steps guardBalanced
                      inside).isCertain
                | inr guardEnds => exact (inductionHypothesis depth guardEnds inside).isCertain
            | _ => simp [ends, balanced] at endsThere

/-- What is read up to and with a semicolon is read there whatever follows it. -/
theorem read_of_ends
    {steps depth : Nat}
    {rule : Rule C}
    {phrases : List Phrase}
    {rest : List Token}
    (endsThere : ends table keeps depth rule = true)
    (inside : enclosing front = some 0)
    (found : read table steps rule (front ++ stop :: rest) = some (phrases, rest))
    (other : List Token) :
    read table steps rule (front ++ stop :: other) = some (phrases, other) := by
  cases stopsAt_of_ends balanced_table isEnd steps depth endsThere inside with
  | inl before =>
      obtain ⟨result, read_eq, -⟩ := before
      obtain ⟨original, -, same⟩ := Option.map_eq_some_iff.mp ((read_eq rest).symm.trans found)
      have length_eq := congrArg (·.2.length) same
      simp only [List.length_append, List.length_cons] at length_eq
      omega
  | inr whole =>
      obtain ⟨wholePhrases, read_eq⟩ := whole
      cases (read_eq rest).symm.trans found
      exact read_eq other

end Ends

/--
Whether a choice by what is ahead comes to rules that end with a semicolon, wherever it comes to
phrases with some labels.
-/
def endsFor (table : C → Rule C) (keeps : C → Bool) (labels : List Label) : Rule C → Bool
  | .guarded guard yes no =>
    ((balance keeps true 0 guard).isSome || ends table keeps callDepth guard) &&
      (ends table keeps callDepth yes || givesNone table labels yes) &&
        endsFor table keeps labels no
  | rule => ends table keeps callDepth rule || givesNone table labels rule

/-- A labelled phrase that ends with a semicolon is read there whatever follows it. -/
theorem read_of_endsFor
    (balanced_table : Balanced table keeps)
    (isEnd : IsEnd stop)
    {steps : Nat}
    {rule : Rule C}
    {labels : List Label}
    {phrase : Phrase}
    {rest : List Token}
    (endsThere : endsFor table keeps labels rule = true)
    (labelled : ∃ label ∈ labels, phrase.isA label = true)
    (inside : enclosing front = some 0)
    (found : read table steps rule (front ++ stop :: rest) = some ([phrase], rest))
    (other : List Token) :
    read table steps rule (front ++ stop :: other) = some ([phrase], other) := by
  have readEnd {steps : Nat} {rule : Rule C}
      (settled : (ends table keeps callDepth rule || givesNone table labels rule) = true)
      (found : read table steps rule (front ++ stop :: rest) = some ([phrase], rest)) :
      read table steps rule (front ++ stop :: other) = some ([phrase], other) := by
    rw [Bool.or_eq_true] at settled
    cases settled with
    | inl isEnding => exact read_of_ends balanced_table isEnd isEnding inside found other
    | inr none =>
        obtain ⟨label, among, isLabelled⟩ := labelled
        have avoids := (derives_of_read found).avoids none phrase (List.mem_singleton_self _)
        rw [avoids label among] at isLabelled
        cases isLabelled
  induction rule generalizing steps with
  | guarded guard yes no _ _ noHypothesis =>
      simp only [endsFor, Bool.and_eq_true] at endsThere
      cases steps with
      | zero => cases found
      | succ steps =>
          have certain : IsCertain fun rest => read table steps guard (front ++ stop :: rest) := by
            have guardEnds := endsThere.1.1
            rw [Bool.or_eq_true] at guardEnds
            cases guardEnds with
            | inl certain =>
                obtain ⟨afters, balanced⟩ := Option.isSome_iff_exists.mp certain
                exact (stopsBefore_outside balanced_table isEnd steps balanced inside).isCertain
            | inr guardEnds =>
                exact (stopsAt_of_ends balanced_table isEnd steps callDepth guardEnds
                  inside).isCertain
          rw [read] at found ⊢
          cases certain with
          | inl never =>
              simp only [never] at found ⊢
              exact noHypothesis endsThere.2 found
          | inr always =>
              obtain ⟨here, here_eq⟩ := always rest
              obtain ⟨there, there_eq⟩ := always other
              simp only [here_eq, there_eq] at found ⊢
              exact readEnd endsThere.1.2 found
  | _ => exact readEnd endsThere found

/-! ## What is derived closes what it opens -/

theorem enclosing_symbol
    {outside : Bool}
    {token : Token}
    {base depth after : Nat}
    {back : List Token}
    (kind_eq : token.kind = .symbol)
    (moved : depthAfter outside token.text depth = some after)
    (inside : enclosing back = some (base + after)) :
    enclosing (token :: back) = some (base + depth) := by
  rw [enclosing, inside, Option.bind_some, Token.around, if_pos kind_eq]
  unfold depthAfter at moved
  grind

theorem enclosing_word
    {token : Token}
    {around : Nat}
    {back : List Token}
    (kind_ne : token.kind ≠ .symbol)
    (inside : enclosing back = some around) : enclosing (token :: back) = some around := by
  rw [enclosing, inside, Option.bind_some, Token.around, if_neg kind_ne]

/-- The tokens of what is derived close the brackets that they open. -/
theorem enclosing_of_derives
    (balanced_table : Balanced table keeps)
    {rule : Rule C}
    {phrases : List Phrase}
    (derived : Derives table rule phrases)
    {depth : Nat}
    {afters : List Nat}
    (balanced : balance keeps false depth rule = some afters) :
    ∃ after ∈ afters, ∀ base back, enclosing back = some (base + after) →
      enclosing (Phrase.tokensOfAll phrases ++ back) = some (base + depth) := by
  induction derived generalizing depth afters with
  | done =>
      cases balanced
      exact ⟨depth, List.mem_singleton_self depth, fun _ _ inside => inside⟩
  | stop =>
      rw [balance] at balanced
      split at balanced
      · cases balanced
        exact ⟨depth, List.mem_singleton_self depth, fun _ _ inside => inside⟩
      · cases balanced
  | word isWord | gluedWord isWord | name isWord =>
      cases balanced
      exact ⟨depth, List.mem_singleton_self depth, fun _ _ =>
        enclosing_word (by rw [isWord]; exact nofun)⟩
  | symbol isSymbol text_eq | glued isSymbol text_eq =>
      subst text_eq
      obtain ⟨after, moved, rfl⟩ := Option.map_eq_some_iff.mp balanced
      exact ⟨after, List.mem_singleton_self after, fun _ _ => enclosing_symbol isSymbol moved⟩
  | kind accepted =>
      rw [balance] at balanced
      split at balanced
      · cases balanced
      · next noSymbol =>
          cases balanced
          exact ⟨depth, List.mem_singleton_self depth, fun _ _ =>
            enclosing_word fun same => noSymbol (same ▸ accepted)⟩
  | call _ inductionHypothesis =>
      cases balanced
      obtain ⟨after, isZero, closes⟩ := inductionHypothesis (balanced_table.within _)
      obtain rfl : after = 0 := by simpa using isZero
      exact ⟨depth, List.mem_singleton_self depth, fun base => closes (base + depth)⟩
  | node _ inductionHypothesis =>
      obtain ⟨after, among, closes⟩ := inductionHypothesis balanced
      refine ⟨after, among, fun base back inside => ?_⟩
      rw [Phrase.tokensOfAll, Phrase.tokens, Phrase.tokensOfAll, List.append_nil]
      exact closes base back inside
  | seq _ _ firstHypothesis secondHypothesis =>
      obtain ⟨middles, firstBalanced, gathered⟩ := Option.bind_eq_some_iff.mp balanced
      obtain ⟨middle, isMiddle, firstCloses⟩ := firstHypothesis firstBalanced
      obtain ⟨depths, secondBalanced, fewer⟩ :=
        exists_of_gather gathered _ (List.mem_map_of_mem isMiddle)
      obtain ⟨after, among, secondCloses⟩ := secondHypothesis secondBalanced
      refine ⟨after, fewer among, fun base back inside => ?_⟩
      rw [Phrase.tokensOfAll_append, List.append_assoc]
      exact firstCloses base _ (secondCloses base back inside)
  | first _ inductionHypothesis =>
      obtain ⟨depths, firstBalanced, fewer⟩ := exists_of_gather balanced _ List.mem_cons_self
      obtain ⟨after, among, closes⟩ := inductionHypothesis firstBalanced
      exact ⟨after, fewer among, closes⟩
  | second _ inductionHypothesis =>
      obtain ⟨depths, secondBalanced, fewer⟩ :=
        exists_of_gather balanced _ (List.mem_cons_of_mem _ List.mem_cons_self)
      obtain ⟨after, among, closes⟩ := inductionHypothesis secondBalanced
      exact ⟨after, fewer among, closes⟩
  | yes _ inductionHypothesis =>
      obtain ⟨_, -, gathered⟩ := Option.bind_eq_some_iff.mp balanced
      obtain ⟨depths, yesBalanced, fewer⟩ := exists_of_gather gathered _ List.mem_cons_self
      obtain ⟨after, among, closes⟩ := inductionHypothesis yesBalanced
      exact ⟨after, fewer among, closes⟩
  | no _ inductionHypothesis =>
      obtain ⟨_, -, gathered⟩ := Option.bind_eq_some_iff.mp balanced
      obtain ⟨depths, noBalanced, fewer⟩ :=
        exists_of_gather gathered _ (List.mem_cons_of_mem _ List.mem_cons_self)
      obtain ⟨after, among, closes⟩ := inductionHypothesis noBalanced
      exact ⟨after, fewer among, closes⟩
  | more _ _ frontHypothesis backHypothesis =>
      have many_balanced := balanced
      rw [balance] at balanced
      split at balanced
      · next same =>
          cases balanced
          obtain ⟨middle, isMiddle, frontCloses⟩ := frontHypothesis same
          obtain ⟨after, isAfter, backCloses⟩ := backHypothesis many_balanced
          obtain rfl : middle = depth := by simpa using isMiddle
          refine ⟨after, isAfter, fun base back inside => ?_⟩
          rw [Phrase.tokensOfAll_append, List.append_assoc]
          exact frontCloses base _ (backCloses base back inside)
      · cases balanced

/-- The tokens of what a rule that closes its brackets derives, without a last plain one. -/
theorem enclosing_eq_zero
    (balanced_table : Balanced table keeps)
    {rule : Rule C}
    {phrases : List Phrase}
    (derived : Derives table rule phrases)
    (balanced : balance keeps false 0 rule = some [0])
    (isEnd : IsEnd stop)
    (tokens_eq : Phrase.tokensOfAll phrases = front ++ [stop]) : enclosing front = some 0 := by
  obtain ⟨after, isZero, closes⟩ := enclosing_of_derives balanced_table derived balanced
  obtain rfl : after = 0 := by simpa using isZero
  have whole := closes 0 [] rfl
  rwa [List.append_nil, tokens_eq, enclosing_concat front
    (by simp [Token.around, isEnd.1, isEnd.2, isOpening, isClosing])] at whole

end Rule

/-! ## The grammar of Java -/

open Rule

/-- The categories that take no semicolon outside of brackets. -/
def keepsSemicolons : Category → Bool
  | .topLevel | .statement | .classMember | .interfaceMember | .annotationMember | .field
  | .method | .localVariable => false
  | _ => true

theorem balanced_rule : Balanced Category.rule keepsSemicolons where
  within category := by
    cases category with
    | expression arrows | operand arrows | primary arrows | selectors arrows
    | assignable arrows => cases arrows <;> decide
    | _ => decide
  outside category kept := by
    cases category with
    | expression arrows | operand arrows | primary arrows | selectors arrows
    | assignable arrows => cases arrows <;> decide
    | topLevel | statement | classMember | interfaceMember | annotationMember | field | method
    | localVariable => cases kept
    | _ => decide

theorem endsFor_topLevel :
    endsFor Category.rule keepsSemicolons [.declaration, .importDeclaration]
      (Category.rule .topLevel) = true := by
  decide

end JupiterMigration.Java
