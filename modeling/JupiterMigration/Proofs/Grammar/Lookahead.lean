import JupiterMigration.Proofs.Grammar.Derivation
import Mathlib.Data.List.Forall2

/-!
# Reading when the first tokens are known

A few tokens at the beginning of a text decide most guards and choices of the rules that are read
there.  `preview` reads a rule as far as the sketch of these tokens settles the result, and
`resolve` leaves only what the sketch leaves open.  The phrases read are then derived from the
resolved rule (`derives_resolve`), in which the order of alternatives has been taken into account.
-/

namespace JupiterMigration.Java
namespace Rule

variable {C : Type}

/-- What is known of a token. -/
inductive Sketch where
  /-- All of it. -/
  | exact (token : Token)
  /-- That it is a word. -/
  | word

/-- A token is what is known of it. -/
def Sketch.Fits : Sketch → Token → Prop
  | exact known, token => token = known
  | word, token => token.kind = .word

/-- What sketched tokens say about the result of reading a rule. -/
inductive Outlook where
  /-- The rule cannot be read. -/
  | refused
  /-- The rule is read, and so many of the sketched tokens with it. -/
  | accepted (count : Nat)
  /-- The tokens that follow decide. -/
  | unsettled

namespace Outlook

/-- The outlook on a rule followed by another one. -/
def andThen : Outlook → (Nat → Outlook) → Outlook
  | accepted front, next =>
    match next front with
    | accepted back => accepted (front + back)
    | other => other
  | other, _ => other

/-- A result of reading is what was to be expected after some known tokens. -/
def Holds (known more : List Token) (found : Option (List Phrase × List Token)) : Outlook → Prop
  | refused => found = none
  | accepted count => ∃ phrases, found = some (phrases, known.drop count ++ more)
  | unsettled => True

end Outlook

/-- The outlook on taking one token, and what it is for a word of which nothing else is known. -/
def foresee (accepts : Token → Bool) (someWord : Outlook) : List Sketch → Outlook
  | .exact token :: _ => if accepts token then .accepted 1 else .refused
  | .word :: _ => someWord
  | [] => .unsettled

/-- The outlook on a rule, in at most the given number of nested steps. -/
def preview (table : C → Rule C) : Nat → Rule C → List Sketch → Outlook
  | 0, _, _ => .unsettled
  | depth + 1, rule, known =>
    match rule with
    | .done => .accepted 0
    | .word text =>
      foresee (fun token => token.kind == .word && token.text == text) .unsettled known
    | .gluedWord text =>
      foresee (fun token => token.kind == .word && token.isGlued && token.text == text) .unsettled
        known
    | .name except =>
      foresee (fun token => token.kind == .word && !except.contains token.text)
        (if except.isEmpty then .accepted 1 else .unsettled) known
    | .symbol text =>
      foresee (fun token => token.kind == .symbol && token.text == text) .refused known
    | .glued text =>
      foresee (fun token => token.kind == .symbol && token.isGlued && token.text == text) .refused
        known
    | .kind accepts =>
      foresee (fun token => accepts token.kind) (if accepts .word then .accepted 1 else .refused)
        known
    | .call category => preview table depth (table category) known
    | .node _ inner => preview table depth inner known
    | .seq first second =>
      (preview table depth first known).andThen fun count =>
        preview table depth second (known.drop count)
    | .either first second =>
      match preview table depth first known with
      | .refused => preview table depth second known
      | other => other
    | .guarded guard yes no =>
      match preview table depth guard known with
      | .accepted _ => preview table depth yes known
      | .refused => preview table depth no known
      | .unsettled => .unsettled
    | .many inner =>
      match preview table depth inner known with
      | .refused => .accepted 0
      | other => other.andThen fun count => preview table depth (.many inner) (known.drop count)

/-- A rule with the guards and choices decided that sketched tokens decide. -/
def resolve (table : C → Rule C) : Nat → Rule C → List Sketch → Rule C
  | 0, rule, _ => rule
  | _, rule, [] => rule
  | depth + 1, rule, known =>
    match rule with
    | .call category => resolve table depth (table category) known
    | .node label inner => .node label (resolve table depth inner known)
    | .seq first second =>
      match preview table depth first known with
      | .accepted count =>
        .seq (resolve table depth first known) (resolve table depth second (known.drop count))
      | _ => .seq (resolve table depth first known) second
    | .either first second =>
      match preview table depth first known with
      | .accepted _ => resolve table depth first known
      | .refused => resolve table depth second known
      | .unsettled => .either (resolve table depth first known) second
    | .guarded guard yes no =>
      match preview table depth guard known with
      | .accepted _ => resolve table depth yes known
      | .refused => resolve table depth no known
      | .unsettled => .guarded guard yes no
    | .many inner =>
      match preview table depth inner known with
      | .accepted count =>
        .seq (resolve table depth inner known)
          (resolve table depth (.many inner) (known.drop count))
      | .refused => .done
      | .unsettled => .either (.seq (resolve table depth inner known) (.many inner)) .done
    | rule => rule

/-! ## Reading as foreseen -/

namespace Outlook

variable {known more : List Token} {found : Option (List Phrase × List Token)} {outlook : Outlook}

theorem Holds.node (label : Label) :
    outlook.Holds known more found →
      outlook.Holds known more
        (match found with
          | some (phrases, rest) => some ([.node label phrases], rest)
          | none => none) := by
  intro holds
  cases outlook with
  | refused =>
      cases holds
      exact rfl
  | accepted count =>
      obtain ⟨phrases, rfl⟩ := holds
      exact ⟨_, rfl⟩
  | unsettled => trivial

theorem Holds.andThen
    {next : Nat → Outlook}
    {resume : List Token → Option (List Phrase × List Token)}
    (later : ∀ count, (next count).Holds (known.drop count) more
      (resume (known.drop count ++ more))) :
    outlook.Holds known more found →
      (outlook.andThen next).Holds known more
        (match found with
          | some (front, middle) =>
            match resume middle with
            | some (back, rest) => some (front ++ back, rest)
            | none => none
          | none => none) := by
  intro holds
  cases outlook with
  | refused =>
      cases holds
      exact rfl
  | unsettled => trivial
  | accepted count =>
      obtain ⟨front, rfl⟩ := holds
      have foreseen := later count
      dsimp only [Outlook.andThen]
      generalize next count = further at foreseen ⊢
      generalize resume (known.drop count ++ more) = result at foreseen ⊢
      cases further with
      | refused =>
          cases foreseen
          exact rfl
      | unsettled => trivial
      | accepted further =>
          obtain ⟨back, rfl⟩ := foreseen
          rw [List.drop_drop]
          exact ⟨_, rfl⟩

theorem Holds.orElse
    {other : Outlook}
    {second : Option (List Phrase × List Token)}
    (later : other.Holds known more second) :
    outlook.Holds known more found →
      (match outlook with
        | refused => other
        | settled => settled).Holds known more
        (match found with
          | some result => some result
          | none => second) := by
  intro holds
  cases outlook with
  | refused =>
      cases holds
      exact later
  | accepted count =>
      obtain ⟨phrases, rfl⟩ := holds
      exact ⟨_, rfl⟩
  | unsettled => trivial

theorem Holds.guarded
    {yes no : Outlook}
    {yesFound noFound : Option (List Phrase × List Token)}
    (yesHolds : yes.Holds known more yesFound)
    (noHolds : no.Holds known more noFound) :
    outlook.Holds known more found →
      (match outlook with
        | accepted _ => yes
        | refused => no
        | unsettled => unsettled).Holds known more
        (match found with
          | some _ => yesFound
          | none => noFound) := by
  intro holds
  cases outlook with
  | refused =>
      cases holds
      exact noHolds
  | accepted count =>
      obtain ⟨phrases, rfl⟩ := holds
      exact yesHolds
  | unsettled => trivial

theorem Holds.many
    {next : Nat → Outlook}
    {resume : List Token → Option (List Phrase × List Token)}
    (later : ∀ count, (next count).Holds (known.drop count) more
      (resume (known.drop count ++ more))) :
    outlook.Holds known more found →
      (match outlook with
        | refused => accepted 0
        | settled => settled.andThen next).Holds known more
        (match found with
          | some (front, middle) =>
            match resume middle with
            | some (back, rest) => some (front ++ back, rest)
            | none => none
          | none => some ([], known ++ more)) := by
  intro holds
  have repeated := Holds.andThen later holds
  cases outlook with
  | refused =>
      cases holds
      exact ⟨[], rfl⟩
  | accepted count =>
      obtain ⟨front, rfl⟩ := holds
      exact repeated
  | unsettled => trivial

end Outlook

variable {table : C → Rule C} {sketch : List Sketch} {known more : List Token}

theorem foresee_holds
    {someWord : Outlook}
    (fits : List.Forall₂ Sketch.Fits sketch known)
    (isName : Bool)
    (accepts : Token → Bool)
    (words : ∀ token rest, token.kind = .word → known = token :: rest →
      someWord.Holds known more (take isName accepts (known ++ more))) :
    (foresee accepts someWord sketch).Holds known more (take isName accepts (known ++ more)) := by
  cases fits with
  | nil => trivial
  | @cons first token later rest fitsFirst _ =>
      cases first with
      | word => exact words token rest fitsFirst rfl
      | exact same =>
          cases fitsFirst
          rw [List.cons_append, foresee, take]
          split
          · exact ⟨_, rfl⟩
          · exact rfl

/-- A rule is read as foreseen. -/
theorem preview_holds
    (table : C → Rule C)
    (steps depth : Nat)
    (rule : Rule C)
    {sketch : List Sketch}
    {known : List Token}
    (fits : List.Forall₂ Sketch.Fits sketch known)
    (more : List Token) :
    (preview table depth rule sketch).Holds known more
      (read table (steps + depth) rule (known ++ more)) := by
  induction depth generalizing rule sketch known with
  | zero => trivial
  | succ depth inductionHypothesis =>
      cases rule with
      | done => exact ⟨[], rfl⟩
      | word | gluedWord => exact foresee_holds fits false _ fun _ _ _ _ => trivial
      | symbol | glued =>
          refine foresee_holds fits false _ fun token rest isWord known_eq => ?_
          subst known_eq
          exact if_neg (by simp [isWord])
      | kind accepts =>
          refine foresee_holds fits false _ fun token rest isWord known_eq => ?_
          subst known_eq
          rw [List.cons_append, take, isWord]
          split
          · exact ⟨_, rfl⟩
          · exact rfl
      | name except =>
          refine foresee_holds fits true _ fun token rest isWord known_eq => ?_
          subst known_eq
          cases except with
          | nil =>
              rw [List.cons_append, take, isWord]
              exact ⟨_, rfl⟩
          | cons => trivial
      | call category => exact inductionHypothesis (table category) fits
      | node label inner => exact Outlook.Holds.node label (inductionHypothesis inner fits)
      | seq first second =>
          refine Outlook.Holds.andThen (fun count => ?_) (inductionHypothesis first fits)
          exact inductionHypothesis second (List.forall₂_drop count fits)
      | either first second =>
          refine Outlook.Holds.orElse ?_ (inductionHypothesis first fits)
          exact inductionHypothesis second fits
      | guarded guard yes no =>
          refine Outlook.Holds.guarded ?_ ?_ (inductionHypothesis guard fits)
          · exact inductionHypothesis yes fits
          · exact inductionHypothesis no fits
      | many inner =>
          refine Outlook.Holds.many (fun count => ?_) (inductionHypothesis inner fits)
          exact inductionHypothesis (.many inner) (List.forall₂_drop count fits)

section Outcomes

variable {depth count : Nat} {rule : Rule C} (fits : List.Forall₂ Sketch.Fits sketch known)

include fits

theorem read_eq_none_of_refused
    (refused : preview table depth rule sketch = .refused)
    (steps : Nat) :
    read table (steps + depth) rule (known ++ more) = none := by
  have foreseen := preview_holds table steps depth rule fits more
  rw [refused] at foreseen
  exact foreseen

theorem exists_read_of_accepted
    (more : List Token)
    (accepted : preview table depth rule sketch = .accepted count)
    (steps : Nat) :
    ∃ phrases, read table (steps + depth) rule (known ++ more) =
      some (phrases, known.drop count ++ more) := by
  have foreseen := preview_holds table steps depth rule fits more
  rw [accepted] at foreseen
  exact foreseen

theorem rest_of_accepted
    {steps : Nat}
    {phrases : List Phrase}
    {rest : List Token}
    (accepted : preview table depth rule sketch = .accepted count)
    (found : read table (steps + depth) rule (known ++ more) = some (phrases, rest)) :
    rest = known.drop count ++ more := by
  obtain ⟨_, foreseen⟩ := exists_read_of_accepted fits more accepted steps
  rw [foreseen] at found
  cases found
  rfl

end Outcomes

/-! ## What is read is derived from the resolved rule -/

section Resolving

variable {steps depth : Nat} {first : Sketch} {later : List Sketch} {phrases : List Phrase}
  {rest : List Token}
  (fits : List.Forall₂ Sketch.Fits (first :: later) known)
  (deeper : ∀ {rule sketch known phrases rest}, List.Forall₂ Sketch.Fits sketch known →
    read table (steps + depth) rule (known ++ more) = some (phrases, rest) →
      Derives table (resolve table depth rule sketch) phrases)

include fits deeper

theorem derives_resolve_seq
    {front back : Rule C}
    (found : read table (steps + depth + 1) (.seq front back) (known ++ more) =
      some (phrases, rest)) :
    Derives table (resolve table (depth + 1) (.seq front back) (first :: later)) phrases := by
  simp only [read] at found
  split at found
  · next frontPhrases middle readFront =>
      split at found
      · next backPhrases left readBack =>
          cases found
          have derivedFront := deeper fits readFront
          simp only [resolve]
          cases preview_eq : preview table depth front (first :: later) with
          | accepted count =>
              rw [rest_of_accepted fits preview_eq readFront] at readBack
              exact .seq derivedFront (deeper (List.forall₂_drop count fits) readBack)
          | refused | unsettled => exact .seq derivedFront (derives_of_read readBack)
      · cases found
  · cases found

theorem derives_resolve_either
    {front back : Rule C}
    (found : read table (steps + depth + 1) (.either front back) (known ++ more) =
      some (phrases, rest)) :
    Derives table (resolve table (depth + 1) (.either front back) (first :: later)) phrases := by
  simp only [read] at found
  simp only [resolve]
  cases preview_eq : preview table depth front (first :: later) with
  | accepted count =>
      obtain ⟨_, readFront⟩ := exists_read_of_accepted fits more preview_eq steps
      rw [readFront] at found
      cases found
      exact deeper fits readFront
  | refused =>
      rw [read_eq_none_of_refused fits preview_eq] at found
      exact deeper fits found
  | unsettled =>
      split at found
      · next readFront =>
          cases found
          exact .first (deeper fits readFront)
      · exact .second (derives_of_read found)

theorem derives_resolve_guarded
    {guard yes no : Rule C}
    (found : read table (steps + depth + 1) (.guarded guard yes no) (known ++ more) =
      some (phrases, rest)) :
    Derives table (resolve table (depth + 1) (.guarded guard yes no) (first :: later))
      phrases := by
  simp only [read] at found
  simp only [resolve]
  cases preview_eq : preview table depth guard (first :: later) with
  | accepted count =>
      obtain ⟨_, readGuard⟩ := exists_read_of_accepted fits more preview_eq steps
      rw [readGuard] at found
      exact deeper fits found
  | refused =>
      rw [read_eq_none_of_refused fits preview_eq] at found
      exact deeper fits found
  | unsettled =>
      split at found
      · exact .yes (derives_of_read found)
      · exact .no (derives_of_read found)

theorem derives_resolve_many
    {inner : Rule C}
    (found : read table (steps + depth + 1) (.many inner) (known ++ more) =
      some (phrases, rest)) :
    Derives table (resolve table (depth + 1) (.many inner) (first :: later)) phrases := by
  simp only [read] at found
  simp only [resolve]
  split at found
  · next front middle readInner =>
      split at found
      · next back left readMore =>
          cases found
          have derivedFront := deeper fits readInner
          cases preview_eq : preview table depth inner (first :: later) with
          | accepted count =>
              rw [rest_of_accepted fits preview_eq readInner] at readMore
              exact .seq derivedFront (deeper (List.forall₂_drop count fits) readMore)
          | refused =>
              rw [read_eq_none_of_refused fits preview_eq] at readInner
              cases readInner
          | unsettled => exact .first (.seq derivedFront (derives_of_read readMore))
      · cases found
  · next readInner =>
      cases found
      cases preview_eq : preview table depth inner (first :: later) with
      | accepted count =>
          obtain ⟨_, isRead⟩ := exists_read_of_accepted fits more preview_eq steps
          rw [readInner] at isRead
          cases isRead
      | refused => exact .done
      | unsettled => exact .second .done

end Resolving

/-- What is read after sketched tokens is derived from the resolved rule. -/
theorem derives_resolve
    {steps depth : Nat}
    {rule : Rule C}
    {phrases : List Phrase}
    {rest : List Token}
    (fits : List.Forall₂ Sketch.Fits sketch known)
    (found : read table (steps + depth) rule (known ++ more) = some (phrases, rest)) :
    Derives table (resolve table depth rule sketch) phrases := by
  induction depth generalizing rule sketch known phrases rest with
  | zero => exact derives_of_read found
  | succ depth inductionHypothesis =>
      cases sketch with
      | nil => exact derives_of_read found
      | cons first later =>
          cases rule with
          | done | word | gluedWord | symbol | glued | kind | name => exact derives_of_read found
          | call category => exact inductionHypothesis fits found
          | node label inner =>
              rw [← Nat.add_assoc] at found
              simp only [read] at found
              split at found
              · next readInner =>
                  cases found
                  exact .node (inductionHypothesis fits readInner)
              · cases found
          | seq front back => exact derives_resolve_seq fits inductionHypothesis found
          | either front back => exact derives_resolve_either fits inductionHypothesis found
          | guarded guard yes no => exact derives_resolve_guarded fits inductionHypothesis found
          | many inner => exact derives_resolve_many fits inductionHypothesis found

end Rule
end JupiterMigration.Java
