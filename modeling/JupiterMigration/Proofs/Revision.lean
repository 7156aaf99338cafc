import JupiterMigration.Proofs.Report
import JupiterMigration.Proofs.Revision.ExpectedException
import JupiterMigration.Proofs.Revision.Imports
import JupiterMigration.Proofs.Revision.Parameterized

/-!
# What a migration leaves alone

A recipe rewrites planned classes and brings the imports up to date; nothing else in a file changes
(`Stages.makes_apply`, `Stages.Makes.revised`).  So whatever recipes are applied one after the
other, the declarations of the resulting file are those of the parsed one, in order, and each one
without a rewritten class is the same as before, apart from what stands before it
(`Conversion.kept_of_parse`).
-/

namespace JupiterMigration

open Member (SameButLead RevisedAll KeepsNames WellFormed)

/-! ## Recipes -/

/--
What becomes of a file whose classes are rewritten: some are, with the given numbers, and what
stands before a declaration may change.
-/
def SourceUnit.Revised
    (Rewrites : ClassDecl → ClassDecl → ClassDecl → Prop)
    (rewritten : List Nat)
    (unit result : SourceUnit) : Prop :=
  ∃ members, RevisedAll Rewrites rewritten unit.nonImports members ∧
    List.Forall₂ SameButLead members result.nonImports

namespace Stages

variable {Plan : Type} {stages : Stages Plan}

/-- A phase deals out the numbers that its step deals out. -/
theorem nextId_phase
    {α : Type}
    (name detail : String)
    (step : Migration α)
    (session : Session) :
    ∃ early, early.nextId = session.nextId ∧
      ((phase name detail step).run session).1 = (step.run early).1 ∧
      ((phase name detail step).run session).2.nextId = (step.run early).2.nextId :=
  ⟨((Migration.startPhase name detail).run session).2, rfl, rfl, rfl⟩

/-- The stages of a recipe that only rewrites planned classes, in some way. -/
structure Rewriting
    (stages : Stages Plan)
    (Rewrites : SourceUnit → Session → ClassDecl → ClassDecl → ClassDecl → Prop) : Prop where
  revises : ∀ unit next, WellFormed unit.nonImports next → ∀ early session, ∃ rewritten,
    RevisedAll (Rewrites unit early) rewritten unit.members
      ((stages.migrate ((stages.collect unit).run early).1 unit).run session).1.unit.members
  keepsNames : ∀ unit early, KeepsNames (Rewrites unit early)
  renews : ∀ plans unit session,
    let run := (stages.migrate plans unit).run session
    Renewed session.nextId run.2.nextId (Member.idsAll unit.nonImports)
      (Member.idsAll run.1.unit.nonImports)

/--
What a recipe makes of a file whose plans it collects in some session: it rewrites planned classes,
with the given numbers, and then brings the imports up to date.
-/
def Makes
    (stages : Stages Plan)
    (Rewrites : ClassDecl → ClassDecl → ClassDecl → Prop)
    (early : Session)
    (rewritten : List Nat)
    (unit result : SourceUnit) : Prop :=
  ∃ migrating finishing,
    let plans := ((stages.collect unit).run early).1
    let migrated := ((stages.migrate plans unit).run migrating).1
    RevisedAll Rewrites rewritten unit.members migrated.unit.members ∧
      result = ((stages.finish migrated).run finishing).1

/-- Bringing the imports up to date leaves the other declarations alone. -/
theorem sameButLead_finish
    (stages : Stages Plan)
    (result : MigratedUnit)
    (session : Session) :
    List.Forall₂ SameButLead result.unit.nonImports
      ((stages.finish result).run session).1.nonImports :=
  Imports.sameButLead_makeAll result.imports.changes result.unit
    ((Migration.startPhase "Imports" stages.importDetail).run session).2

/-- A recipe changes nothing but planned classes and imports. -/
theorem Makes.revised
    {Rewrites : ClassDecl → ClassDecl → ClassDecl → Prop}
    {early : Session}
    {rewritten : List Nat}
    {unit result : SourceUnit}
    (makes : stages.Makes Rewrites early rewritten unit result) :
    unit.Revised Rewrites rewritten result := by
  obtain ⟨migrating, finishing, revised, rfl⟩ := makes
  exact ⟨_, revised.filter, stages.sameButLead_finish _ finishing⟩

variable {Rewrites : SourceUnit → Session → ClassDecl → ClassDecl → ClassDecl → Prop}

theorem makes_migratePlanned
    (rewriting : stages.Rewriting Rewrites)
    {unit result : SourceUnit}
    {early session : Session}
    (wellFormed : WellFormed unit.nonImports session.nextId)
    (applied : ((stages.migratePlanned ((stages.collect unit).run early).1 unit).run session).1 =
      some result) :
    ∃ rewritten, stages.Makes (Rewrites unit early) early rewritten unit result ∧
      WellFormed result.nonImports
        ((stages.migratePlanned ((stages.collect unit).run early).1 unit).run
          session).2.nextId := by
  generalize plans_eq : ((stages.collect unit).run early).1 = plans at applied ⊢
  obtain ⟨start, sameId, migrated_eq, nextId_eq⟩ := nextId_phase "Rewrite"
    (stages.migrateDetail plans.length) (stages.migrate plans unit) session
  have revises := rewriting.revises unit session.nextId wellFormed early start
  have renews := rewriting.renews plans unit start
  unfold migratePlanned at applied ⊢
  rw [Migration.run_bind] at applied ⊢
  generalize (phase "Rewrite" (stages.migrateDetail plans.length)
    (stages.migrate plans unit)).run session = migrated at applied migrated_eq nextId_eq ⊢
  rw [plans_eq, ← migrated_eq] at revises
  dsimp only at renews
  rw [sameId, ← migrated_eq, ← nextId_eq] at renews
  obtain ⟨rewritten, revised⟩ := revises
  split at applied
  · cases applied
  · next notEmpty =>
      rw [if_neg notEmpty]
      have kept := stages.sameButLead_finish migrated.1 migrated.2
      have grows := (stages.records_finish migrated.1 migrated.2).nextId_le
      cases applied
      have names_eq := revised.filter.classNames_eq (rewriting.keepsNames unit early)
      have migratedWellFormed := wellFormed.renewed renews names_eq
      rw [migrated_eq] at revised
      rw [← plans_eq] at revised migrated_eq
      refine ⟨rewritten, ⟨start, migrated.2, revised, ?_⟩, ?_⟩
      · rw [← migrated_eq]
        rfl
      · exact (migratedWellFormed.of_sameButLead kept).mono grows

/-- A recipe that migrates a file rewrites planned classes and brings the imports up to date. -/
theorem makes_apply
    (account : stages.Account)
    (rewriting : stages.Rewriting Rewrites)
    {unit result : SourceUnit}
    {session : Session}
    (wellFormed : WellFormed unit.nonImports session.nextId)
    (applied : ((stages.apply unit).run session).1 = some result) :
    ∃ early rewritten, stages.Makes (Rewrites unit early) early rewritten unit result ∧
      WellFormed result.nonImports ((stages.apply unit).run session).2.nextId := by
  have collected : session.nextId ≤
      ((phase "Collect" stages.collectDetail (stages.collect unit)).run session).2.nextId :=
    (records_phase ⟨rfl, rfl⟩ (account.collect unit) ⟨rfl, rfl⟩ session).nextId_le
  obtain ⟨early, -, plans_eq, -⟩ :=
    nextId_phase "Collect" stages.collectDetail (stages.collect unit) session
  unfold apply at applied ⊢
  split at applied
  · next usesType =>
      rw [if_pos usesType]
      rw [Migration.run_bind, plans_eq] at applied ⊢
      split at applied
      · cases applied
      · next notEmpty =>
          rw [if_neg notEmpty]
          exact ⟨early, makes_migratePlanned rewriting (wellFormed.mono collected) applied⟩
  · cases applied

end Stages

/-- The recipe for parameterized classes only rewrites planned classes. -/
theorem Parameterized.rewriting (layout : Layout) :
    (stages layout).Rewriting fun unit early =>
      Rewrites (TypeScope.ofUnit unit) ((collect unit).run early).1.plans where
  revises unit next wellFormed early session := by
    have decides := decides wellFormed (fun _ _ => isIn_of_planned unit early)
      (TypeScope.ofUnit unit) layout
    have revised := decides.revisedAll [] session
    unfold stages migratePlans
    dsimp only
    rw [migrate_eq]
    exact revised
  keepsNames _ _ := keepsNames _ _
  renews plans unit session := by
    have renewed := Member.renewed_filter_rewriteAll
      (renews (TypeScope.ofUnit unit) layout plans) unit.members [] session
    unfold stages migratePlans
    dsimp only
    rw [migrate_eq]
    exact renewed

/-- The recipe for expected exceptions only rewrites planned classes. -/
theorem ExpectedException.rewriting (layout : Layout) :
    (stages layout).Rewriting fun unit early =>
      Rewrites layout (TypeScope.ofUnit unit) ((collect unit).run early).1 where
  revises unit next wellFormed early session := by
    have decides := decides wellFormed.distinct (fun _ _ => scanned_of_planned unit early) layout
    have revised := decides.revisedAll .start session
    unfold stages migratePlans
    dsimp only
    rw [migrate_eq]
    exact revised
  keepsNames _ _ := keepsNames _ _ _
  renews plans unit session := by
    have renewed := Member.renewed_filter_rewriteAll (renews layout plans) unit.members .start
      session
    unfold stages migratePlans
    dsimp only
    rw [migrate_eq]
    exact renewed

namespace Recipe

/-- What a recipe makes of the classes of a file whose plans it collects in some session. -/
def Rewrites (layout : Layout) (unit : SourceUnit) (early : Session) :
    Recipe → ClassDecl → ClassDecl → ClassDecl → Prop
  | parameterized => Parameterized.Rewrites (TypeScope.ofUnit unit)
      ((Parameterized.collect unit).run early).1.plans
  | expectedException => ExpectedException.Rewrites layout (TypeScope.ofUnit unit)
      ((ExpectedException.collect unit).run early).1

/-- What a recipe makes of a file whose plans it collects in some session. -/
def Makes
    (layout : Layout)
    (early : Session)
    (rewritten : List Nat)
    (unit result : SourceUnit) : Recipe → Prop
  | parameterized => (Parameterized.stages layout).Makes (parameterized.Rewrites layout unit early)
      early rewritten unit result
  | expectedException => (ExpectedException.stages layout).Makes
      (expectedException.Rewrites layout unit early) early rewritten unit result

theorem Makes.revised
    {recipe : Recipe}
    {layout : Layout}
    {early : Session}
    {rewritten : List Nat}
    {unit result : SourceUnit}
    (makes : recipe.Makes layout early rewritten unit result) :
    unit.Revised (recipe.Rewrites layout unit early) rewritten result := by
  cases recipe with
  | parameterized => exact Stages.Makes.revised makes
  | expectedException => exact Stages.Makes.revised makes

theorem makes_apply
    (recipe : Recipe)
    (layout : Layout)
    {unit : SourceUnit}
    {session : Session}
    (wellFormed : WellFormed unit.nonImports session.nextId)
    (result : SourceUnit)
    (applied : ((recipe.apply layout unit).run session).1 = some result) :
    ∃ early rewritten, recipe.Makes layout early rewritten unit result ∧
      WellFormed result.nonImports ((recipe.apply layout unit).run session).2.nextId := by
  cases recipe with
  | parameterized =>
      exact Stages.makes_apply (Parameterized.account layout) (Parameterized.rewriting layout)
        wellFormed applied
  | expectedException =>
      exact Stages.makes_apply (ExpectedException.account layout)
        (ExpectedException.rewriting layout) wellFormed applied

/-! ## Recipes one after the other -/

/--
What becomes of a file by recipes one after the other, each of which declines it or takes a step
that rewrites the classes with some numbers.
-/
inductive Chain (Step : Recipe → List Nat → SourceUnit → SourceUnit → Prop) :
    List Recipe → List Nat → SourceUnit → SourceUnit → Prop
  | done (unit : SourceUnit) : Chain Step [] [] unit unit
  | declined (recipe : Recipe) {recipes : List Recipe} {rewritten : List Nat}
      {unit result : SourceUnit}
      (rest : Chain Step recipes rewritten unit result) :
      Chain Step (recipe :: recipes) rewritten unit result
  | migrated (recipe : Recipe) {recipes : List Recipe} {first later : List Nat}
      {unit middle result : SourceUnit}
      (step : Step recipe first unit middle)
      (rest : Chain Step recipes later middle result) :
      Chain Step (recipe :: recipes) (first ++ later) unit result

theorem Chain.mono
    {Step Other : Recipe → List Nat → SourceUnit → SourceUnit → Prop}
    {recipes : List Recipe}
    {rewritten : List Nat}
    {unit result : SourceUnit}
    (chain : Chain Step recipes rewritten unit result)
    (each : ∀ recipe rewritten unit result, Step recipe rewritten unit result →
      Other recipe rewritten unit result) : Chain Other recipes rewritten unit result := by
  induction chain with
  | done unit => exact .done unit
  | declined recipe _ inductionHypothesis => exact .declined recipe inductionHypothesis
  | migrated recipe step _ inductionHypothesis =>
      exact .migrated recipe (each _ _ _ _ step) inductionHypothesis

end Recipe

/-- What becomes of a file by recipes that rewrite the classes with some numbers. -/
def SourceUnit.RevisedBy (layout : Layout) :
    List Recipe → List Nat → SourceUnit → SourceUnit → Prop :=
  Recipe.Chain fun recipe rewritten unit result =>
    ∃ early, unit.Revised (recipe.Rewrites layout unit early) rewritten result

/-- A declaration that stays the same, apart from its lead, unless a class in it is rewritten. -/
def Member.KeptUnless (rewritten : List Nat) (member other : Member) : Prop :=
  (∀ decl ∈ member.classes, decl.id ∉ rewritten) → member.SameButLead other

namespace Member.KeptUnless

variable {rewritten later : List Nat}

theorem mono
    {more : List Nat}
    {member other : Member}
    (subset : rewritten ⊆ more)
    (kept : KeptUnless rewritten member other) : KeptUnless more member other :=
  fun untouched => kept fun decl inside touched => untouched decl inside (subset touched)

/-- A declaration that is kept twice is kept. -/
theorem trans
    {member middle other : Member}
    (front : KeptUnless rewritten member middle)
    (back : KeptUnless later middle other) : KeptUnless (rewritten ++ later) member other := by
  intro untouched
  have same := front fun decl inside touched =>
    untouched decl inside (List.mem_append_left _ touched)
  refine same.trans (back fun decl inside touched => ?_)
  obtain ⟨lead, rfl⟩ := same
  have idInside : decl.id ∈ (member.withLead lead).classes.map (·.id) := List.mem_map_of_mem inside
  rw [map_classes_withLead fun _ _ _ => rfl] at idInside
  obtain ⟨old, oldInside, sameId⟩ := List.mem_map.mp idInside
  exact untouched old oldInside (List.mem_append_right _ (sameId ▸ touched))

theorem forall₂_trans
    {members middle others : List Member}
    (front : List.Forall₂ (KeptUnless rewritten) members middle)
    (back : List.Forall₂ (KeptUnless later) middle others) :
    List.Forall₂ (KeptUnless (rewritten ++ later)) members others := by
  refine (forall₂_comp front back).imp ?_
  rintro _ _ ⟨_, headFront, headBack⟩
  exact headFront.trans headBack

/-- Revised declarations are kept unless a class in them is rewritten. -/
theorem forall₂_of_revisedAll
    {Rewrites : ClassDecl → ClassDecl → ClassDecl → Prop}
    {members inner others : List Member}
    (revised : RevisedAll Rewrites rewritten members inner)
    (leads : List.Forall₂ SameButLead inner others) :
    List.Forall₂ (KeptUnless rewritten) members others := by
  induction leads generalizing rewritten members with
  | nil =>
      cases revised with
      | nil => exact .nil
  | cons sameButLead _ inductionHypothesis =>
      cases revised with
      | cons head tail =>
          refine .cons (fun untouched => ?_)
            ((inductionHypothesis tail).imp fun _ _ => mono (List.subset_append_right _ _))
          rw [← head.eq fun decl inside touched =>
            untouched decl inside (List.mem_append_left _ touched)]
          exact sameButLead

end Member.KeptUnless

/-- What no recipe rewrites is kept. -/
theorem SourceUnit.RevisedBy.kept
    {layout : Layout}
    {recipes : List Recipe}
    {rewritten : List Nat}
    {unit result : SourceUnit}
    (revised : RevisedBy layout recipes rewritten unit result) :
    List.Forall₂ (Member.KeptUnless rewritten) unit.nonImports result.nonImports := by
  induction revised with
  | done unit => exact List.forall₂_same.mpr fun member _ _ => .refl member
  | declined recipe rest inductionHypothesis => exact inductionHypothesis
  | migrated recipe step rest inductionHypothesis =>
      obtain ⟨early, members, revisedMembers, leads⟩ := step
      exact Member.KeptUnless.forall₂_trans
        (Member.KeptUnless.forall₂_of_revisedAll revisedMembers leads) inductionHypothesis

namespace Conversion

/-- What the recipes of a conversion make of a file, one after the other. -/
def Makes (layout : Layout) : List Recipe → List Nat → SourceUnit → SourceUnit → Prop :=
  Recipe.Chain fun recipe rewritten unit result =>
    ∃ early, recipe.Makes layout early rewritten unit result

/--
Recipes one after the other: if each recipe that migrates a well-formed file takes some step, they
take such steps, and the file stays well-formed.
-/
theorem chain_foldlM
    {Step : Recipe → List Nat → SourceUnit → SourceUnit → Prop}
    {layout : Layout}
    (steps : ∀ (recipe : Recipe) unit session result,
      WellFormed unit.nonImports session.nextId →
      ((recipe.apply layout unit).run session).1 = some result →
      ∃ rewritten, Step recipe rewritten unit result)
    (unit : SourceUnit)
    (recipes : List Recipe)
    (before : Applied)
    (session : Session)
    (wellFormed : WellFormed (before.update.getD unit).nonImports session.nextId) :
    let run := (recipes.foldlM (applyRecipe layout unit) before).run session
    let final := run.1.update.getD unit
    WellFormed final.nonImports run.2.nextId ∧
      ∃ rewritten, Recipe.Chain Step recipes rewritten (before.update.getD unit) final := by
  induction recipes generalizing before session with
  | nil => exact ⟨wellFormed, [], .done _⟩
  | cons first rest inductionHypothesis =>
      obtain ⟨start, sameId, applied_eq, nextId_eq⟩ := Stages.nextId_phase
        ("Recipe " ++ first.name) first.description
        (first.apply layout (before.update.getD unit)) session
      rw [← sameId] at wellFormed
      have grows := (first.accounts_apply layout (before.update.getD unit) start).grows.nextId_le
      have makes := first.makes_apply layout wellFormed
      have step := steps first (before.update.getD unit) start
      rw [← applied_eq, ← nextId_eq] at makes
      rw [← applied_eq] at step
      rw [← nextId_eq] at grows
      dsimp only
      rw [List.foldlM_cons, Migration.run_bind]
      unfold applyRecipe
      rw [Migration.run_bind, Migration.run_pure]
      generalize (Stages.phase ("Recipe " ++ first.name) first.description
        (first.apply layout (before.update.getD unit))).run session = applied
        at makes step grows ⊢
      dsimp only
      cases update_eq : applied.1 with
      | none =>
          obtain ⟨finalWellFormed, rewritten, chain⟩ :=
            inductionHypothesis before applied.2 (wellFormed.mono grows)
          exact ⟨finalWellFormed, rewritten, .declined first chain⟩
      | some update =>
          obtain ⟨_, _, -, updateWellFormed⟩ := makes update update_eq
          obtain ⟨rewritten, isStep⟩ := step update wellFormed update_eq
          obtain ⟨finalWellFormed, later, chain⟩ := inductionHypothesis
            ⟨some update, before.recipes ++ [first]⟩ applied.2 updateWellFormed
          exact ⟨finalWellFormed, rewritten ++ later, .migrated first isStep chain⟩

/-- Recipes one after the other, applied to a file that has been read. -/
theorem chain_of_parse
    {Step : Recipe → List Nat → SourceUnit → SourceUnit → Prop}
    {layout : Layout}
    (steps : ∀ (recipe : Recipe) unit session result,
      WellFormed unit.nonImports session.nextId →
      ((recipe.apply layout unit).run session).1 = some result →
      ∃ rewritten, Step recipe rewritten unit result)
    {source : String}
    {path : Option String}
    {next : Nat}
    {result : SourceUnit × Nat}
    (parsed : SourceUnit.parse source path next = .ok result)
    (recipes : List Recipe)
    {session : Session}
    (fresh : result.2 ≤ session.nextId) :
    let run := (applyRecipes layout recipes result.1).run session
    let final := run.1.update.getD result.1
    WellFormed final.nonImports run.2.nextId ∧
      ∃ rewritten, Recipe.Chain Step recipes rewritten result.1 final :=
  chain_foldlM steps result.1 recipes ⟨none, []⟩ session
    ((SourceUnit.wellFormed_of_parse parsed).mono fresh)

/-- The recipes of a conversion make the final file of the one that has been read. -/
theorem makes_of_parse
    {source : String}
    {path : Option String}
    {next : Nat}
    {result : SourceUnit × Nat}
    (parsed : SourceUnit.parse source path next = .ok result)
    (layout : Layout)
    (recipes : List Recipe)
    {session : Session}
    (fresh : result.2 ≤ session.nextId) :
    ∃ rewritten, Makes layout recipes rewritten result.1
      (((applyRecipes layout recipes result.1).run session).1.update.getD result.1) := by
  refine (chain_of_parse (fun recipe unit early update wellFormed applied => ?_) parsed recipes
    fresh).2
  obtain ⟨collecting, rewritten, makes, -⟩ := recipe.makes_apply layout wellFormed update applied
  exact ⟨rewritten, collecting, makes⟩

/--
The declarations of a file after any recipes are those of the file as it was read, one by one and in
order, and where no class in a declaration is rewritten, only its lead may differ.
-/
theorem kept_of_parse
    {source : String}
    {path : Option String}
    {next : Nat}
    {result : SourceUnit × Nat}
    (parsed : SourceUnit.parse source path next = .ok result)
    (layout : Layout)
    (recipes : List Recipe)
    (session : Session)
    (fresh : result.2 ≤ session.nextId) :
    let final := ((applyRecipes layout recipes result.1).run session).1.update.getD result.1
    ∃ rewritten, result.1.RevisedBy layout recipes rewritten final ∧
      List.Forall₂ (Member.KeptUnless rewritten) result.1.nonImports final.nonImports := by
  obtain ⟨rewritten, makes⟩ := makes_of_parse parsed layout recipes fresh
  have revised : result.1.RevisedBy layout recipes rewritten _ := makes.mono fun _ _ _ _ step => by
    obtain ⟨early, makes⟩ := step
    exact ⟨early, makes.revised⟩
  exact ⟨rewritten, revised, revised.kept⟩

/-- A parameterized class, a class with a rule nested in it, and an interface before them. -/
def bothIdioms : String :=
  "/* apart */\ninterface I \x7b \x7d\n\n" ++
    "@org.junit.runner.RunWith(org.junit.runners.Parameterized.class)\nclass A \x7b\n" ++
    "    A(int x) \x7b \x7d\n\n    @org.junit.runners.Parameterized.Parameters\n" ++
    "    static Object data() \x7b return null; \x7d\n\n    class B \x7b\n" ++
    "        @org.junit.Rule\n        org.junit.rules.ExpectedException rule;\n    \x7d\n\x7d\n"

/-- The tree of a source and what all of some recipes make of it, if each of them migrates it. -/
def migrating? (source : String) (recipes : List Recipe) : Option (SourceUnit × SourceUnit) :=
  match SourceUnit.parse source none 1 with
  | .ok (unit, next) =>
    let applied := ((applyRecipes (Layout.ofUnit unit none) recipes unit).run ⟨.empty, next⟩).1
    if applied.recipes = recipes then applied.update.map (unit, ·) else none
  | .error _ => none

theorem exists_of_migrating?
    {source : String}
    {recipes : List Recipe}
    (migrates : (migrating? source recipes).isSome = true) :
    ∃ result final, SourceUnit.parse source none 1 = .ok result ∧
      ((applyRecipes (Layout.ofUnit result.1 none) recipes result.1).run
        ⟨.empty, result.2⟩).1 = ⟨some final, recipes⟩ := by
  unfold migrating? at migrates
  cases parsed : SourceUnit.parse source none 1 with
  | error error =>
      rw [parsed] at migrates
      cases migrates
  | ok result =>
      rw [parsed] at migrates
      dsimp only at migrates
      split at migrates
      · next recipes_eq =>
          rw [Option.isSome_map] at migrates
          obtain ⟨final, update_eq⟩ := Option.isSome_iff_exists.mp migrates
          have applied_eq (applied : Applied) (update : applied.update = some final)
              (named : applied.recipes = recipes) : applied = ⟨some final, recipes⟩ := by
            rw [← update, ← named]
          exact ⟨result, final, rfl, applied_eq _ update_eq recipes_eq⟩
      · cases migrates

theorem kept_of_parse_bothIdioms :
    ∃ result final, SourceUnit.parse bothIdioms none 1 = .ok result ∧
      ((applyRecipes (Layout.ofUnit result.1 none) Recipe.all result.1).run
        ⟨.empty, result.2⟩).1 = ⟨some final, Recipe.all⟩ ∧
      ∃ rewritten, result.1.RevisedBy (Layout.ofUnit result.1 none) Recipe.all rewritten final ∧
        List.Forall₂ (Member.KeptUnless rewritten) result.1.nonImports final.nonImports := by
  have migrates : (migrating? bothIdioms Recipe.all).isSome = true := by decide +kernel
  obtain ⟨result, final, parsed, applied⟩ := exists_of_migrating? migrates
  have kept := kept_of_parse parsed (Layout.ofUnit result.1 none) Recipe.all ⟨.empty, result.2⟩
    (Nat.le_refl _)
  rw [applied] at kept
  exact ⟨result, final, parsed, applied, kept⟩

end Conversion

end JupiterMigration
