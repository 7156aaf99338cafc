import JupiterMigration.Proofs.Grammar.Shape

/-!
# What a rule reads

The number of steps that reading is allowed is no part of what the grammar says.  In a grammar in
which repeating and recurring consume tokens, few steps are taken before a token is
(`headroom`), so any number of steps that leaves room for this after each token gives the same
result (`read_eq_read`).  `outcome` is this result for the grammar of Java; it can be taken apart
along the rule.
-/

namespace JupiterMigration.Java
namespace Rule

variable {C : Type} {table : C → Rule C}

/-! ## Steps before a token -/

/-- How deep the headroom of a rule is looked for. -/
def stepDepth : Nat := 100

/-- How many steps a rule may nest until it has taken a token; too many if it goes too deep. -/
def headroom (table : C → Rule C) : Nat → Rule C → Nat
  | 0, _ => 2001
  | depth + 1, rule =>
    match rule with
    | .call category => 1 + headroom table depth (table category)
    | .node _ inner | .many inner => 1 + headroom table depth inner
    | .seq first second =>
      1 + max (headroom table depth first)
        (if canBeEmpty table callDepth first then headroom table depth second else 0)
    | .either first second =>
      1 + max (headroom table depth first) (headroom table depth second)
    | .guarded guard yes no =>
      1 + max (headroom table depth guard)
        (max (headroom table depth yes) (headroom table depth no))
    | _ => 1

/-- Whether the rule and all rules in it need few steps until they take a token. -/
def isGrounded (table : C → Rule C) (rule : Rule C) : Bool :=
  decide (headroom table stepDepth rule ≤ 2000) &&
    match rule with
    | .node _ inner => isGrounded table inner
    | .many inner => !canBeEmpty table callDepth inner && isGrounded table inner
    | .seq first second | .either first second => isGrounded table first && isGrounded table second
    | .guarded guard yes no =>
      isGrounded table guard && isGrounded table yes && isGrounded table no
    | _ => true

/-- So many steps are enough to read a rule: after each token there is room for the next one. -/
def Enough (table : C → Rule C) (rule : Rule C) (tokens : List Token) (count : Nat) : Prop :=
  ∃ depth, 2000 * tokens.length + headroom table depth rule ≤ count

variable {rule inner : Rule C} {tokens rest : List Token} {count : Nat}

theorem headroom_pos (table : C → Rule C) (depth : Nat) (rule : Rule C) :
    0 < headroom table depth rule := by
  cases depth with
  | zero => exact Nat.succ_pos 2000
  | succ depth =>
      cases rule with
      | call | node | many | seq | either | guarded => exact Nat.add_pos_left Nat.one_pos _
      | _ => exact Nat.one_pos

theorem headroom_le (grounded : isGrounded table rule = true) :
    headroom table stepDepth rule ≤ 2000 := by
  unfold isGrounded at grounded
  rw [Bool.and_eq_true, decide_eq_true_eq] at grounded
  exact grounded.1

theorem enough_steps (grounded : isGrounded table rule = true) :
    Enough table rule tokens (steps tokens) := by
  have few := headroom_le grounded
  refine ⟨stepDepth, ?_⟩
  unfold steps
  omega

theorem Enough.exists_succ (enough : Enough table rule tokens count) :
    ∃ fewer, count = fewer + 1 := by
  obtain ⟨depth, enough⟩ := enough
  have positive := headroom_pos table depth rule
  exact ⟨count - 1, by omega⟩

/-- What is enough for a rule is, after one step, enough for a rule that it begins with. -/
theorem Enough.inside
    (enough : Enough table rule tokens (count + 1))
    (begins : ∀ depth, headroom table depth inner < headroom table (depth + 1) rule)
    (left : rest.length ≤ tokens.length)
    (grounded : isGrounded table inner = true) : Enough table inner rest count := by
  obtain ⟨depth, enough⟩ := enough
  cases depth with
  | zero =>
      have few := headroom_le grounded
      rw [headroom] at enough
      exact ⟨stepDepth, by omega⟩
  | succ depth =>
      have fewer := begins depth
      exact ⟨depth, by omega⟩

/-- What is enough for a rule is, after one step and a token, enough for any rule. -/
theorem Enough.after
    (enough : Enough table rule tokens (count + 1))
    (shorter : rest.length < tokens.length)
    (grounded : isGrounded table inner = true) : Enough table inner rest count := by
  obtain ⟨depth, enough⟩ := enough
  have positive := headroom_pos table depth rule
  have few := headroom_le grounded
  exact ⟨stepDepth, by omega⟩

/-! ## Reading needs no more than enough -/

theorem length_le_of_read
    {phrases : List Phrase}
    (found : read table count rule tokens = some (phrases, rest)) :
    rest.length ≤ tokens.length := by
  rw [← read_lossless found, List.length_append]
  exact Nat.le_add_left _ _

theorem length_lt_of_read
    {phrases : List Phrase}
    (found : read table count rule tokens = some (phrases, rest))
    (consumes : canBeEmpty table callDepth rule = false) : rest.length < tokens.length := by
  have some := (derives_of_read found).tokens_ne_nil callDepth consumes
  rw [← read_lossless found, List.length_append]
  have := List.length_pos_iff.mpr some
  omega

/-- Two numbers of steps that are both enough give the same result. -/
theorem read_eq_read
    (table_grounded : ∀ category, isGrounded table (table category) = true)
    {count other : Nat}
    (grounded : isGrounded table rule = true)
    (enough : Enough table rule tokens count)
    (enoughOther : Enough table rule tokens other) :
    read table count rule tokens = read table other rule tokens := by
  induction count generalizing other rule tokens with
  | zero =>
      obtain ⟨_, absurd⟩ := enough.exists_succ
      cases absurd
  | succ count inductionHypothesis =>
      obtain ⟨other, rfl⟩ := enoughOther.exists_succ
      -- What the rule begins with is read alike, and so is any rule once a token has been taken.
      have inside {inner : Rule C} {rest : List Token}
          (begins : ∀ depth, headroom table depth inner < headroom table (depth + 1) rule)
          (left : rest.length ≤ tokens.length)
          (innerGrounded : isGrounded table inner = true) :
          read table count inner rest = read table other inner rest :=
        inductionHypothesis innerGrounded (enough.inside begins left innerGrounded)
          (enoughOther.inside begins left innerGrounded)
      have after {inner : Rule C} {rest : List Token}
          (shorter : rest.length < tokens.length)
          (innerGrounded : isGrounded table inner = true) :
          read table count inner rest = read table other inner rest :=
        inductionHypothesis innerGrounded (enough.after shorter innerGrounded)
          (enoughOther.after shorter innerGrounded)
      have parts := grounded
      unfold isGrounded at parts
      cases rule with
      | done | word | gluedWord | name | symbol | glued | kind => rfl
      | call category =>
          exact inside (fun depth => by rw [headroom]; omega) (Nat.le_refl _)
            (table_grounded category)
      | node label inner =>
          rw [Bool.and_eq_true] at parts
          rw [read, read, inside (fun depth => by rw [headroom]; omega) (Nat.le_refl _) parts.2]
      | seq first second =>
          simp only [Bool.and_eq_true] at parts
          rw [read, read, inside (fun depth => by rw [headroom]; omega) (Nat.le_refl _) parts.2.1]
          cases firstFound : read table other first tokens with
          | none => rfl
          | some found =>
              obtain ⟨front, middle⟩ := found
              have secondAlike :
                  read table count second middle = read table other second middle := by
                cases empty : canBeEmpty table callDepth first with
                | false => exact after (length_lt_of_read firstFound empty) parts.2.2
                | true =>
                    refine inside (fun depth => ?_) (length_le_of_read firstFound) parts.2.2
                    rw [headroom, if_pos empty]
                    omega
              dsimp only
              rw [secondAlike]
      | either first second =>
          simp only [Bool.and_eq_true] at parts
          rw [read, read, inside (fun depth => by rw [headroom]; omega) (Nat.le_refl _) parts.2.1,
            inside (fun depth => by rw [headroom]; omega) (Nat.le_refl _) parts.2.2]
      | guarded guard yes no =>
          simp only [Bool.and_eq_true] at parts
          rw [read, read, inside (fun depth => by rw [headroom]; omega) (Nat.le_refl _) parts.2.1.1,
            inside (fun depth => by rw [headroom]; omega) (Nat.le_refl _) parts.2.1.2,
            inside (fun depth => by rw [headroom]; omega) (Nat.le_refl _) parts.2.2]
      | many inner =>
          simp only [Bool.and_eq_true, Bool.not_eq_true'] at parts
          rw [read, read, inside (fun depth => by rw [headroom]; omega) (Nat.le_refl _) parts.2.2]
          cases innerFound : read table other inner tokens with
          | none => rfl
          | some found =>
              obtain ⟨front, middle⟩ := found
              dsimp only
              rw [after (length_lt_of_read innerFound parts.2.1) grounded]

end Rule

/-! ## What the grammar reads -/

open Rule

theorem isGrounded_rule (category : Category) :
    isGrounded Category.rule (Category.rule category) = true := by
  cases category with
  | expression arrows | operand arrows | primary arrows | selectors arrows | assignable arrows =>
      cases arrows <;> decide +kernel
  | _ => decide +kernel

/-- The phrases that a rule reads at the beginning of some tokens, and the tokens left over. -/
def outcome (rule : Rule Category) (tokens : List Token) : Option (List Phrase × List Token) :=
  read Category.rule (steps tokens) rule tokens

section Outcome

variable {rule first second guard yes no inner : Rule Category} {tokens rest : List Token}

theorem outcome_eq_read
    {count : Nat}
    (grounded : isGrounded Category.rule rule = true)
    (enough : Enough Category.rule rule tokens count) :
    outcome rule tokens = read Category.rule count rule tokens :=
  read_eq_read isGrounded_rule grounded (enough_steps grounded) enough

/-- Where one step is taken for a rule, the rules that it begins with are read as on their own. -/
theorem read_inside
    {count : Nat}
    (steps_eq : steps tokens = count + 1)
    (grounded : isGrounded Category.rule rule = true)
    (begins : ∀ depth,
      headroom Category.rule depth inner < headroom Category.rule (depth + 1) rule)
    (left : rest.length ≤ tokens.length)
    (innerGrounded : isGrounded Category.rule inner = true) :
    read Category.rule count inner rest = outcome inner rest := by
  have enough : Enough Category.rule rule tokens (steps tokens) := enough_steps grounded
  rw [steps_eq] at enough
  exact (outcome_eq_read innerGrounded (enough.inside begins left innerGrounded)).symm

/-- Where a token has been taken for a rule, any rule is read as on its own. -/
theorem read_after
    {count : Nat}
    (steps_eq : steps tokens = count + 1)
    (shorter : rest.length < tokens.length)
    (innerGrounded : isGrounded Category.rule inner = true) :
    read Category.rule count inner rest = outcome inner rest := by
  refine (outcome_eq_read innerGrounded ⟨stepDepth, ?_⟩).symm
  have few := headroom_le innerGrounded
  unfold steps at steps_eq
  omega

theorem exists_steps_eq (tokens : List Token) : ∃ count, steps tokens = count + 1 :=
  ⟨2000 * tokens.length + 1999, by unfold steps; omega⟩

theorem outcome_call
    {category : Category}
    (grounded : isGrounded Category.rule (.call category) = true) :
    outcome (.call category) tokens = outcome (Category.rule category) tokens := by
  obtain ⟨count, steps_eq⟩ := exists_steps_eq tokens
  rw [outcome, steps_eq, Rule.read]
  exact read_inside steps_eq grounded (fun depth => by rw [headroom]; omega) (Nat.le_refl _)
    (isGrounded_rule category)

theorem outcome_node
    {label : Label}
    (grounded : isGrounded Category.rule (.node label inner) = true) :
    outcome (.node label inner) tokens =
      (outcome inner tokens).map fun found => ([.node label found.1], found.2) := by
  have parts := grounded
  rw [isGrounded, Bool.and_eq_true] at parts
  obtain ⟨count, steps_eq⟩ := exists_steps_eq tokens
  rw [outcome, steps_eq, Rule.read, read_inside steps_eq grounded
    (fun depth => by rw [headroom]; omega) (Nat.le_refl _) parts.2]
  cases outcome inner tokens <;> rfl

theorem outcome_seq
    (grounded : isGrounded Category.rule (.seq first second) = true) :
    outcome (.seq first second) tokens =
      (outcome first tokens).bind fun front =>
        (outcome second front.2).map fun back => (front.1 ++ back.1, back.2) := by
  have parts := grounded
  simp only [isGrounded, Bool.and_eq_true] at parts
  obtain ⟨count, steps_eq⟩ := exists_steps_eq tokens
  have firstAlike : read Category.rule count first tokens = outcome first tokens :=
    read_inside steps_eq grounded (fun depth => by rw [headroom]; omega) (Nat.le_refl _) parts.2.1
  rw [outcome, steps_eq, Rule.read, firstAlike]
  cases firstFound : outcome first tokens with
  | none => rfl
  | some front =>
      have secondAlike : read Category.rule count second front.2 = outcome second front.2 := by
        cases empty : canBeEmpty Category.rule callDepth first with
        | false => exact read_after steps_eq (length_lt_of_read firstFound empty) parts.2.2
        | true =>
            refine read_inside steps_eq grounded (fun depth => ?_) (length_le_of_read firstFound)
              parts.2.2
            rw [headroom, if_pos empty]
            omega
      dsimp only [Option.bind_some]
      rw [secondAlike]
      cases outcome second front.2 <;> rfl

theorem outcome_either
    (grounded : isGrounded Category.rule (.either first second) = true) :
    outcome (.either first second) tokens =
      (outcome first tokens).or (outcome second tokens) := by
  have parts := grounded
  simp only [isGrounded, Bool.and_eq_true] at parts
  obtain ⟨count, steps_eq⟩ := exists_steps_eq tokens
  rw [outcome, steps_eq, Rule.read,
    read_inside steps_eq grounded (fun depth => by rw [headroom]; omega) (Nat.le_refl _) parts.2.1,
    read_inside steps_eq grounded (fun depth => by rw [headroom]; omega) (Nat.le_refl _) parts.2.2]
  cases outcome first tokens <;> rfl

theorem outcome_guarded
    (grounded : isGrounded Category.rule (.guarded guard yes no) = true) :
    outcome (.guarded guard yes no) tokens =
      if (outcome guard tokens).isSome then outcome yes tokens else outcome no tokens := by
  have parts := grounded
  simp only [isGrounded, Bool.and_eq_true] at parts
  obtain ⟨count, steps_eq⟩ := exists_steps_eq tokens
  rw [outcome, steps_eq, Rule.read,
    read_inside steps_eq grounded (fun depth => by rw [headroom]; omega) (Nat.le_refl _)
      parts.2.1.1,
    read_inside steps_eq grounded (fun depth => by rw [headroom]; omega) (Nat.le_refl _)
      parts.2.1.2,
    read_inside steps_eq grounded (fun depth => by rw [headroom]; omega) (Nat.le_refl _) parts.2.2]
  cases outcome guard tokens <;> rfl

theorem outcome_many
    (grounded : isGrounded Category.rule (.many inner) = true) :
    outcome (.many inner) tokens =
      match outcome inner tokens with
      | some front =>
        (outcome (.many inner) front.2).map fun back => (front.1 ++ back.1, back.2)
      | none => some ([], tokens) := by
  have parts := grounded
  simp only [isGrounded, Bool.and_eq_true, Bool.not_eq_true'] at parts
  obtain ⟨count, steps_eq⟩ := exists_steps_eq tokens
  have innerAlike : read Category.rule count inner tokens = outcome inner tokens :=
    read_inside steps_eq grounded (fun depth => by rw [headroom]; omega) (Nat.le_refl _) parts.2.2
  rw [outcome, steps_eq, Rule.read, innerAlike]
  cases innerFound : outcome inner tokens with
  | none => rfl
  | some front =>
      dsimp only
      rw [read_after steps_eq (length_lt_of_read innerFound parts.2.1) grounded]
      cases outcome (.many inner) front.2 <;> rfl

end Outcome

end JupiterMigration.Java
