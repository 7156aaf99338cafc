import JupiterMigration.Proofs.Traversal
import Mathlib.Data.List.Forall2

/-!
# Pairs of steps

Two runs are compared step by step.  A kind of pairs says of two steps how their results are
related; it holds of steps in a row if it holds of each, the second ones being compared for related
results of the first ones (`PairKind`).  So it carries over to lists (`PairKind.mapM`,
`PairKind.foldlM`) and to the rewriting of classes (`PairKind.rewriteAll`).  Steps with a state, and
steps that may fail, are compared by what they do without either (`PairKind.withState`,
`PairKind.orFailing`).
-/

namespace JupiterMigration

/-- One list is what a function makes of the elements of the other one. -/
theorem forall₂_image_iff
    {α β : Type}
    {change : α → β}
    {items : List α}
    {others : List β} :
    List.Forall₂ (fun item other => other = change item) items others ↔
      others = items.map change := by
  induction items generalizing others with
  | nil => simp
  | cons first rest inductionHypothesis =>
      rw [List.forall₂_cons_left_iff]
      constructor
      · rintro ⟨_, _, rfl, tail, rfl⟩
        rw [inductionHypothesis.mp tail, List.map_cons]
      · rintro rfl
        exact ⟨_, _, rfl, inductionHypothesis.mpr rfl, rfl⟩

/--
A kind of pairs of steps, told by how their results are related: steps that only give related values
are of the kind, and so are steps in a row that are of the kind one by one.
-/
structure PairKind (m n : Type → Type) [Monad m] [Monad n] where
  Holds : {α β : Type} → (α → β → Prop) → m α → n β → Prop
  pure : ∀ {α β : Type} {Related : α → β → Prop} {value : α} {other : β},
    Related value other → Holds Related (pure value) (pure other)
  bind : ∀ {α β γ δ : Type} {Related : α → β → Prop} {Others : γ → δ → Prop}
      {step : m α} {twin : n β} {next : α → m γ} {nextTwin : β → n δ},
    Holds Related step twin →
    (∀ value other, Related value other → Holds Others (next value) (nextTwin other)) →
    Holds Others (step >>= next) (twin >>= nextTwin)

namespace PairKind

variable {m n : Type → Type} [Monad m] [Monad n] (kind : PairKind m n)

theorem mono
    [LawfulMonad m]
    [LawfulMonad n]
    {α β : Type}
    {Related Weaker : α → β → Prop}
    {step : m α}
    {twin : n β}
    (holds : kind.Holds Related step twin)
    (weaker : ∀ value other, Related value other → Weaker value other) :
    kind.Holds Weaker step twin := by
  have followed := kind.bind holds fun value other related => kind.pure (weaker value other related)
  rwa [bind_pure, bind_pure] at followed

section Lists

variable
  {α β : Type}
  {Related : α → β → Prop}
  {items : List α}
  {others : List β}

theorem forM
    {step : α → m PUnit}
    {twin : β → n PUnit}
    (related : List.Forall₂ Related items others)
    (each : ∀ item other, Related item other →
      kind.Holds (fun _ _ => True) (step item) (twin other)) :
    kind.Holds (fun _ _ => True) (items.forM step) (others.forM twin) := by
  induction related with
  | nil => exact kind.pure trivial
  | cons head _ inductionHypothesis =>
      exact kind.bind (each _ _ head) fun _ _ _ => inductionHypothesis

theorem foldlM
    {σ τ : Type}
    {States : σ → τ → Prop}
    {step : σ → α → m σ}
    {twin : τ → β → n τ}
    (related : List.Forall₂ Related items others)
    (each : ∀ state other, States state other → ∀ item otherItem, Related item otherItem →
      kind.Holds States (step state item) (twin other otherItem))
    {start : σ}
    {otherStart : τ}
    (starts : States start otherStart) :
    kind.Holds States (items.foldlM step start) (others.foldlM twin otherStart) := by
  induction related generalizing start otherStart with
  | nil => exact kind.pure starts
  | cons head _ inductionHypothesis =>
      rw [List.foldlM_cons, List.foldlM_cons]
      exact kind.bind (each _ _ starts _ _ head) fun _ _ => inductionHypothesis

variable
  {γ δ : Type}
  {Results : γ → δ → Prop}
  {step : α → m γ}
  {twin : β → n δ}
  [LawfulMonad m]
  [LawfulMonad n]

theorem mapM
    (related : List.Forall₂ Related items others)
    (each : ∀ item other, Related item other →
      kind.Holds Results (step item) (twin other)) :
    kind.Holds (List.Forall₂ Results) (items.mapM step) (others.mapM twin) := by
  induction related with
  | nil =>
      rw [List.mapM_nil, List.mapM_nil]
      exact kind.pure .nil
  | cons head _ inductionHypothesis =>
      rw [List.mapM_cons, List.mapM_cons]
      refine kind.bind (each _ _ head) fun _ _ first => ?_
      exact kind.bind inductionHypothesis fun _ _ rest => kind.pure (.cons first rest)

/-- Steps that give what a function makes of the other result do so for lists, too. -/
theorem mapM_image
    {change : α → β}
    {result : γ → δ}
    (each : ∀ item, kind.Holds (fun value other => other = result value) (step item)
      (twin (change item)))
    (items : List α) :
    kind.Holds (fun values others => others = values.map result) (items.mapM step)
      ((items.map change).mapM twin) := by
  have related : List.Forall₂ (fun item other => other = change item) items (items.map change) :=
    forall₂_image_iff.mpr rfl
  have results := kind.mapM related fun item other same => same ▸ each item
  exact kind.mono results fun _ _ => forall₂_image_iff.mp

theorem optionMapM_image
    {change : α → β}
    {result : γ → δ}
    (each : ∀ item, kind.Holds (fun value other => other = result value) (step item)
      (twin (change item)))
    (item? : Option α) :
    kind.Holds (fun value? other? => other? = value?.map result) (item?.mapM step)
      ((item?.map change).mapM twin) := by
  cases item? with
  | none => exact kind.pure rfl
  | some item =>
      rw [Option.map_some, Option.mapM_some, Option.mapM_some, map_eq_pure_bind, map_eq_pure_bind]
      exact kind.bind (each item) fun _ _ same => kind.pure (same ▸ rfl)

end Lists

/-! ## Rewriting classes -/

section Rewriting

open Member (rewrite rewriteAll)

/-- Two declarations with related members if they are classes; both are, or neither is. -/
inductive Matches (Related : Member → Member → Prop) : Member → Member → Prop
  | classes (head twinHead : ClassHead) {members others : List Member}
      (inner : List.Forall₂ Related members others) :
      Matches Related (.classDecl head members) (.classDecl twinHead others)
  | others {member other : Member}
      (noClass : member.class? = none)
      (otherNoClass : other.class? = none) : Matches Related member other

variable
  {Related : Member → Member → Prop}
  {change : ClassDecl → ClassDecl → m (Edit Member)}
  {twin : ClassDecl → ClassDecl → n (Edit Member)}

theorem rewrite_of_noClass
    {member : Member}
    (noClass : member.class? = none) : rewrite change member = return some member := by
  cases member with
  | classDecl head members => cases noClass
  | _ => rfl

/-- Decisions about related classes leave related declarations. -/
def Decides
    (kind : PairKind m n)
    (Related : Member → Member → Prop)
    (change : ClassDecl → ClassDecl → m (Edit Member))
    (twin : ClassDecl → ClassDecl → n (Edit Member)) : Prop :=
  ∀ head twinHead members others inner twinInner,
    Related (.classDecl head members) (.classDecl twinHead others) →
    List.Forall₂ Related inner twinInner →
    kind.Holds (fun edit twinEdit =>
        List.Forall₂ Related (edit.apply (.classDecl head inner)).toList
          (twinEdit.apply (.classDecl twinHead twinInner)).toList)
      (change ⟨head, members⟩ ⟨head, inner⟩) (twin ⟨twinHead, others⟩ ⟨twinHead, twinInner⟩)

mutual

theorem rewrite
    (agree : ∀ member other, Related member other → Matches Related member other)
    (decides : kind.Decides Related change twin)
    (member other : Member)
    (related : Related member other) :
    kind.Holds (fun result twinResult => List.Forall₂ Related result.toList twinResult.toList)
      (Member.rewrite change member) (Member.rewrite twin other) := by
  cases agree member other related with
  | others noClass otherNoClass =>
      rw [rewrite_of_noClass noClass, rewrite_of_noClass otherNoClass]
      exact kind.pure (.cons related .nil)
  | @classes head twinHead members others inner =>
      rw [Member.rewrite, Member.rewrite]
      refine kind.bind (rewriteAll agree decides members others inner) fun _ _ innerRelated => ?_
      refine kind.bind (decides _ _ _ _ _ _ related innerRelated) fun _ _ results => ?_
      exact kind.pure results

/-- Rewriting related classes by related decisions gives related declarations. -/
theorem rewriteAll
    (agree : ∀ member other, Related member other → Matches Related member other)
    (decides : kind.Decides Related change twin)
    (members others : List Member)
    (related : List.Forall₂ Related members others) :
    kind.Holds (List.Forall₂ Related) (Member.rewriteAll change members)
      (Member.rewriteAll twin others) := by
  cases related with
  | nil => exact kind.pure .nil
  | @cons first other rest others head tail =>
      rw [Member.rewriteAll, Member.rewriteAll]
      refine kind.bind (rewrite agree decides first other head) fun _ _ heads => ?_
      refine kind.bind (rewriteAll agree decides rest others tail) fun _ _ tails => ?_
      exact kind.pure (List.rel_append heads tails)

end

end Rewriting

/-! ## Effects -/

/-- The pairs of results. -/
def results : PairKind Id Id where
  Holds Related value other := Related value other
  pure related := related
  bind first second := second _ _ first

/-- Two outcomes that are related results or the same error. -/
inductive Outcomes {ε α β : Type} (Related : α → β → Prop) : Except ε α → Except ε β → Prop
  | ok {value : α} {other : β} (related : Related value other) :
      Outcomes Related (.ok value) (.ok other)
  | error (error : ε) : Outcomes Related (.error error) (.error error)

section Effects

variable {m n : Type → Type} [Monad m] [Monad n] (kind : PairKind m n) {σ τ : Type}

/-- The pairs of steps with states that are of a kind and keep the states related. -/
def withState (States : σ → τ → Prop) : PairKind (StateT σ m) (StateT τ n) where
  Holds Related step twin := ∀ state other, States state other →
    kind.Holds (fun (result : _ × σ) (twinResult : _ × τ) =>
        Related result.1 twinResult.1 ∧ States result.2 twinResult.2)
      (step.run state) (twin.run other)
  pure related _ _ states := kind.pure ⟨related, states⟩
  bind first second _ _ states :=
    kind.bind (first _ _ states) fun result twinResult results =>
      second result.1 twinResult.1 results.1 result.2 twinResult.2 results.2

/-- The pairs of steps that may fail and are of a kind, both failing or none. -/
def orFailing [LawfulMonad m] [LawfulMonad n] (ε : Type) :
    PairKind (ExceptT ε m) (ExceptT ε n) where
  Holds Related step twin := kind.Holds (Outcomes Related) step.run twin.run
  pure related := kind.pure (.ok related)
  bind first second := by
    rw [ExceptT.run_bind, ExceptT.run_bind]
    refine kind.bind first fun _ _ outcomes => ?_
    cases outcomes with
    | ok related => exact second _ _ related
    | error error => exact kind.pure (.error error)

variable {States : σ → τ → Prop} {α β : Type} {Related : α → β → Prop}

theorem withState_lift
    {step : m α}
    {twin : n β}
    (holds : kind.Holds Related step twin) :
    (kind.withState States).Holds Related (liftM step : StateT σ m α)
      (liftM twin : StateT τ n β) := by
  intro state other states
  have lifted : kind.Holds (fun result twinResult =>
        Related result.1 twinResult.1 ∧ States result.2 twinResult.2)
      (step >>= fun value => Pure.pure (value, state))
      (twin >>= fun value => Pure.pure (value, other)) :=
    kind.bind holds fun _ _ related => kind.pure ⟨related, states⟩
  exact lifted

theorem withState_get :
    (kind.withState States).Holds States (get : StateT σ m σ) (get : StateT τ n τ) :=
  fun _ _ states => kind.pure ⟨states, states⟩

theorem withState_modify
    {change : σ → σ}
    {twin : τ → τ}
    (keeps : ∀ state other, States state other → States (change state) (twin other)) :
    (kind.withState States).Holds (fun _ _ => True) (modify change : StateT σ m PUnit)
      (modify twin : StateT τ n PUnit) :=
  fun _ _ states => kind.pure ⟨trivial, keeps _ _ states⟩

theorem orFailing_lift
    [LawfulMonad m]
    [LawfulMonad n]
    {ε : Type}
    {step : m α}
    {twin : n β}
    (holds : kind.Holds Related step twin) :
    (kind.orFailing ε).Holds Related (liftM step : ExceptT ε m α) (liftM twin : ExceptT ε n β) := by
  have lifted : kind.Holds (Outcomes Related)
      (step >>= fun value => Pure.pure (Except.ok value : Except ε α))
      (twin >>= fun value => Pure.pure (Except.ok value : Except ε β)) :=
    kind.bind holds fun _ _ related => kind.pure (.ok related)
  rw [← map_eq_pure_bind, ← map_eq_pure_bind] at lifted
  exact lifted

end Effects

/-! ## Migrating planned classes -/

/-- Related declarations are printed alike, and classes stay related if their members do. -/
structure Congruent (Related : Member → Member → Prop) : Prop where
  agree : ∀ member other, Related member other → Matches Related member other
  rebuilt : ∀ head twinHead members others inner twinInner,
    Related (.classDecl head members) (.classDecl twinHead others) →
    List.Forall₂ Related inner twinInner →
      Related (.classDecl head inner) (.classDecl twinHead twinInner)
  name : ∀ head twinHead members others,
    Related (.classDecl head members) (.classDecl twinHead others) → head.name = twinHead.name
  print : ∀ member other, Related member other → member.print = other.print

theorem Congruent.eq : Congruent Eq where
  agree member other same := by
    subst same
    cases member with
    | classDecl head members => exact .classes head head (List.forall₂_refl members)
    | _ => exact .others rfl rfl
  rebuilt head twinHead members others inner twinInner same sameInner := by
    cases same
    obtain rfl := List.forall₂_eq_eq_eq ▸ sameInner
    rfl
  name _ _ _ _ same := by
    cases same
    rfl
  print _ _ same := congrArg Member.print same

/-- Decisions by related plans are related if what is done for a plan is. -/
theorem decides_decideByPlan
    {kind : PairKind Migration Migration}
    {Related : Member → Member → Prop}
    (congruent : Congruent Related)
    (warns : ∀ message,
      kind.Holds (fun _ _ => True) (Migration.warn message) (Migration.warn message))
    (records : ∀ before after, kind.Holds (fun _ _ => True)
      (Migration.record (.transformed "ClassNode" before after))
      (Migration.record (.transformed "ClassNode" before after)))
    {Plan OtherPlan σ τ : Type}
    {Plans : Plan → OtherPlan → Prop}
    {plans : List (Nat × Plan)}
    {otherPlans : List (Nat × OtherPlan)}
    (found : ∀ head twinHead members others,
      Related (.classDecl head members) (.classDecl twinHead others) →
        Option.Rel Plans (plans.lookup head.id) (otherPlans.lookup twinHead.id))
    {migrate : Plan → ClassDecl → Synthesis ClassDecl}
    {twin : OtherPlan → ClassDecl → Synthesis ClassDecl}
    (migrates : ∀ plan other, Plans plan other → ∀ decl twinDecl,
      Related decl.toMember twinDecl.toMember →
        (kind.orFailing SynthesisError).Holds
          (fun result twinResult => Related result.toMember twinResult.toMember)
          (migrate plan decl) (twin other twinDecl))
    {States : σ → τ → Prop}
    {note : String → Plan → σ → σ}
    {twinNote : String → OtherPlan → τ → τ}
    (notes : ∀ name plan other, Plans plan other → ∀ state otherState, States state otherState →
      States (note name plan state) (twinNote name other otherState)) :
    (kind.withState States).Decides Related (decideByPlan plans migrate note)
      (decideByPlan otherPlans twin twinNote) := by
  intro head twinHead members others inner twinInner related innerRelated
  have rebuilt := congruent.rebuilt _ _ _ _ _ _ related innerRelated
  have sameName := congruent.name _ _ _ _ related
  have planned := found _ _ _ _ related
  unfold decideByPlan
  dsimp only
  rw [← sameName]
  generalize plans.lookup head.id = plan? at planned ⊢
  generalize otherPlans.lookup twinHead.id = other? at planned ⊢
  cases planned with
  | none => exact (kind.withState States).pure (.cons rebuilt .nil)
  | @some plan other plansRelated =>
      refine (kind.withState States).bind
        (kind.withState_lift (migrates _ _ plansRelated ⟨head, inner⟩ _ rebuilt)) ?_
      rintro _ _ (@⟨result, twinResult, results⟩ | error)
      · have samePrint : result.print = twinResult.print := congruent.print _ _ results
        have wasPrint : ClassDecl.print ⟨head, inner⟩ = ClassDecl.print ⟨twinHead, twinInner⟩ :=
          congruent.print _ _ rebuilt
        refine (kind.withState States).bind
          (kind.withState_modify (notes _ _ _ plansRelated)) fun _ _ _ => ?_
        rw [← samePrint, ← wasPrint]
        refine (kind.withState States).bind
          (kind.withState_lift (records _ _)) fun _ _ _ => ?_
        exact (kind.withState States).pure (.cons results .nil)
      · refine (kind.withState States).bind (kind.withState_lift (warns _)) fun _ _ _ => ?_
        exact (kind.withState States).pure (.cons rebuilt .nil)

end PairKind

end JupiterMigration
