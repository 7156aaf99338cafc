import JupiterMigration.Proofs.Revision

/-!
# Classes by their place

A recipe looks the plan for a class up by the number of the class.  If the plan it finds is the one
that is made from the class, the decision about the class needs no number at all
(`decideByPlan_eq_decideInPlace`).  If this holds of every class of a file, it holds of the whole
migration (`Member.rewriteAll_congr`, `Stages.apply_withMigrate`).
-/

namespace JupiterMigration

/-- Steps that are the same for every element of a list are the same for the list. -/
theorem mapM_congr
    {m : Type → Type}
    [Monad m]
    [LawfulMonad m]
    {α β : Type}
    {step other : α → m β}
    {items : List α}
    (same : ∀ item ∈ items, step item = other item) : items.mapM step = items.mapM other := by
  induction items with
  | nil => rw [List.mapM_nil, List.mapM_nil]
  | cons first rest inductionHypothesis =>
      obtain ⟨sameFirst, sameRest⟩ := List.forall_mem_cons.mp same
      rw [List.mapM_cons, List.mapM_cons, sameFirst, inductionHypothesis sameRest]

/-! ## Decisions -/

section Decisions

variable {Plan σ : Type}

/-- The decision about a class for which there is no other plan than the one made from it. -/
def decideInPlace
    (planOf : ClassDecl → Option Plan)
    (migrate : Plan → ClassDecl → Synthesis ClassDecl)
    (note : String → Plan → σ → σ)
    (entered decl : ClassDecl) : StateT σ Migration (Edit Member) :=
  decideByPlan ((planOf entered).toList.map fun plan => (entered.id, plan)) migrate note entered
    decl

theorem decideByPlan_eq_decideInPlace
    {plans : List (Nat × Plan)}
    {planOf : ClassDecl → Option Plan}
    {migrate migrateInPlace : Plan → ClassDecl → Synthesis ClassDecl}
    {entered decl : ClassDecl}
    (found : plans.lookup entered.id = planOf entered)
    (migrates : ∀ plan, planOf entered = some plan → migrate plan decl = migrateInPlace plan decl)
    (note : String → Plan → σ → σ) :
    decideByPlan plans migrate note entered decl =
      decideInPlace planOf migrateInPlace note entered decl := by
  unfold decideInPlace decideByPlan
  rw [found]
  cases planned : planOf entered with
  | none => rfl
  | some plan =>
      rw [Option.toList_some, List.map_singleton, List.lookup_cons_self]
      dsimp only
      rw [migrates plan planned]

end Decisions

/-! ## Rewriting classes -/

namespace Member

variable
  {σ : Type}
  {Rewrites : ClassDecl → ClassDecl → ClassDecl → Prop}
  {change other : ClassDecl → ClassDecl → StateT σ Migration (Edit Member)}
  {root : List Member}

variable (Rewrites change other root) in
/-- Two decisions agree about the classes of some declarations with any revised members. -/
def DecideAlike : Prop :=
  ∀ head members inner rewritten,
    ⟨head, members⟩ ∈ classesAll root →
    RevisedAll Rewrites rewritten members inner →
    change ⟨head, members⟩ ⟨head, inner⟩ = other ⟨head, members⟩ ⟨head, inner⟩

mutual

theorem rewrite_congr
    (decides : Decides Rewrites change root)
    (alike : DecideAlike Rewrites change other root)
    (member : Member)
    (inside : ∀ decl ∈ member.classes, decl ∈ classesAll root) :
    rewrite change member = rewrite other member := by
  cases member with
  | classDecl head members =>
      rw [classes_classDecl] at inside
      have own := inside ⟨head, members⟩ List.mem_cons_self
      have below (decl : ClassDecl) (isBelow : decl ∈ classesAll members) :
          decl ∈ classesAll root :=
        inside decl (List.mem_cons_of_mem _ isBelow)
      have same := rewriteAll_congr decides alike members below
      funext state session
      obtain ⟨rewritten, revised⟩ :=
        revisedAll_rewriteAll decides members below state session
      have agree := alike head members _ rewritten own revised
      have run_eq := run_rewrite_classDecl change head members state session
      have other_eq := run_rewrite_classDecl other head members state session
      rw [← same] at other_eq
      dsimp only at run_eq other_eq
      rw [← agree] at other_eq
      exact run_eq.trans other_eq.symm
  | _ => rfl

/-- Decisions that agree about all classes of some declarations rewrite the declarations alike. -/
theorem rewriteAll_congr
    (decides : Decides Rewrites change root)
    (alike : DecideAlike Rewrites change other root)
    (members : List Member)
    (inside : ∀ decl ∈ classesAll members, decl ∈ classesAll root) :
    rewriteAll change members = rewriteAll other members := by
  cases members with
  | nil => rfl
  | cons first rest =>
      rw [classesAll_cons] at inside
      rw [rewriteAll, rewriteAll,
        rewrite_congr decides alike first fun decl below =>
          inside decl (List.mem_append_left _ below),
        rewriteAll_congr decides alike rest fun decl below =>
          inside decl (List.mem_append_right _ below)]

end

/-- Imports do not matter to decisions about classes. -/
theorem DecideAlike.rewriteAll_eq
    {members : List Member}
    (decides : Decides Rewrites change (members.filter (!·.isImport)))
    (alike : DecideAlike Rewrites change other (members.filter (!·.isImport))) :
    rewriteAll change members = rewriteAll other members := by
  refine rewriteAll_congr decides alike members fun decl inside => ?_
  rw [classesAll_filter_isImport]
  exact inside

end Member

/-! ## Stages -/

/-- A migration may be replaced by one that does the same with the plans that are collected. -/
theorem Stages.apply_withMigrate
    {Plan : Type}
    {stages : Stages Plan}
    {unit : SourceUnit}
    {migrate : List Plan → SourceUnit → Migration MigratedUnit}
    (same : ∀ session, let plans := ((stages.collect unit).run session).1
      stages.migrate plans unit = migrate plans unit) :
    stages.apply unit = { stages with migrate }.apply unit := by
  unfold apply
  split
  · funext session
    obtain ⟨early, -, plans_eq, -⟩ :=
      nextId_phase "Collect" stages.collectDetail (stages.collect unit) session
    have collected := same early
    rw [← plans_eq] at collected
    change StateT.run _ session = StateT.run _ session
    rw [Migration.run_bind, Migration.run_bind]
    unfold migratePlanned
    dsimp only at collected ⊢
    rw [collected]
    rfl
  · rfl

end JupiterMigration
