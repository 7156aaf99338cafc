import JupiterMigration.Proofs.Leads.Shelter
import JupiterMigration.Proofs.Revision

/-!
# What stands before declarations

A lead holds comments as well as white space.  It stands in the code after a conversion if it is
sheltered: if its declaration stays, and what is right before the declaration stays as well
(`Run.lead_kept`).

Removing a declaration loses its own lead, or where it stands at the head or after more line feeds,
the one of its follower (`Member.following`).  So a comment may be lost that stands behind a removed
rule, before a declaration that stays (`Run.comment_lost`).
-/

namespace JupiterMigration

/-! ## Rewriting classes -/

open Member (Sheltered ShelteredIn KeepsLead Shelters)

theorem Marker.annotations_ne_nil_of_find
    {markers : List Marker}
    {scope : TypeScope}
    {uses : List Annotation}
    {mark : Annotation}
    (found : find? markers scope uses = some mark) : uses.isEmpty = false := by
  cases uses with
  | nil => cases found
  | cons => rfl

namespace Parameterized

theorem keepsLead_of_changed
    {scope : TypeScope}
    {plan : ClassPlan}
    {member other : Member}
    (changed : Changed scope plan member other) : KeepsLead member other := by
  cases changed with
  | same => exact .refl member
  | constructor decl planned isConstructor => exact ⟨rfl, fun _ => rfl⟩
  | factory decl mark marked => exact ⟨rfl, fun _ => rfl⟩
  | test decl mark annotations body marked => exact ⟨rfl, fun _ => rfl⟩
  | field decl mark planned marked =>
      refine ⟨rfl, fun stays => ?_⟩
      have goes : (Member.field decl).mayGo = true := by
        simp [Member.mayGo, Marker.annotations_ne_nil_of_find marked]
      rw [goes] at stays
      cases stays

/-- The migration of parameterized classes loses no sheltered lead. -/
theorem shelters (text : String) (scope : TypeScope) (plans : List (Nat × ClassPlan)) :
    Shelters text (Rewrites scope plans) where
  lead_eq _ inner result rewrites := by
    obtain ⟨plan, -, -, rewrittenBy⟩ := rewrites
    exact (congrArg ClassHead.lead rewrittenBy.head).trans (withoutRunner_lead scope inner)
  members _ inner result rewrites shelteredIn := by
    obtain ⟨plan, -, -, rewrittenBy⟩ := rewrites
    obtain ⟨changed, appended, members_eq, each, -⟩ := rewrittenBy.members
    rw [members_eq]
    refine (shelteredIn.of_forall₂ each (fun _ _ => keepsLead_of_changed) ?_).append appended
    intro head members other changed
    cases changed
    rfl

end Parameterized

namespace ExpectedException

theorem mayGo_of_ruleField
    {scope : TypeScope}
    {members : List Member}
    {rule : Field}
    (found : ruleField? scope members = some rule) : (Member.field rule).mayGo = true := by
  have marked := (Bool.and_eq_true_iff.mp (of_ruleField found).2).2
  obtain ⟨mark, mark_eq⟩ := Option.isSome_iff_exists.mp marked
  simp [Member.mayGo, Marker.annotations_ne_nil_of_find mark_eq]

/-- The migration of classes with rules loses no sheltered lead. -/
theorem shelters
    (text : String)
    (layout : Layout)
    (scope : TypeScope)
    (plans : List (Nat × RulePlan)) : Shelters text (Rewrites layout scope plans) where
  lead_eq _ inner result rewrites := by
    obtain ⟨rule, plan, -, -, -, -, rewrittenBy⟩ := rewrites
    exact congrArg ClassHead.lead rewrittenBy.head
  members _ inner result rewrites shelteredIn := by
    obtain ⟨rule, plan, -, found, -, -, rewrittenBy⟩ := rewrites
    obtain ⟨front, back, members_eq, leads, each⟩ := rewrittenBy.members
    have kept : ShelteredIn text (Member.removeAt front.length inner.members) := by
      refine shelteredIn.congr (fun sheltered => ?_) fun head members isMember => ?_
      · rw [members_eq] at sheltered ⊢
        exact sheltered.removeAt (mayGo_of_ruleField found)
      · have isKept : Member.classDecl head members ∈ front ++ back := by
          rw [members_eq] at isMember
          simpa using isMember
        exact Member.SameButLead.exists_class leads isKept
    refine kept.of_forall₂ each (fun _ _ changed => ?_) fun head members other changed => ?_
    · cases changed with
      | same => exact .refl _
      | planned decl methodPlan indent statements scanned made => exact ⟨rfl, fun _ => rfl⟩
    · cases changed
      rfl

end ExpectedException

/-! ## Changing imports -/

namespace Imports

/-- Whether a change adds or removes what recipes add or remove. -/
def Change.isOfRecipes : Change → Bool
  | ensure name _ => addedNames.contains name
  | removeIfUnused name _ => !addedNames.contains name
  | removeWildcardIfUnused _ _ => true

theorem isOfRecipes_parameterized :
    ∀ change ∈ Parameterized.importUpdate.changes, change.isOfRecipes = true := by
  decide

theorem isOfRecipes_expectedException (progress : ExpectedException.Progress) :
    ∀ change ∈ (ExpectedException.importUpdate progress).changes, change.isOfRecipes = true := by
  have all : ∀ usesAssertThrows usesMatchers, ∀ change ∈
      (ExpectedException.importUpdate ⟨[], usesAssertThrows, usesMatchers⟩).changes,
      change.isOfRecipes = true := by
    decide
  exact all progress.usesAssertThrows progress.usesMatchers

variable {text : String} {members : List Member} {decl : String → Member}

theorem sheltered_insertBefore
    (stays : ∀ lead, (decl lead).mayGo = false)
    (places : ∀ lead, (decl lead).lead = lead)
    (sheltered : Sheltered text members)
    (position : Nat)
    (nextLead : String) : Sheltered text (insertBefore position decl nextLead members) := by
  unfold insertBefore
  have parts := List.take_append_drop position members
  split
  · next next rest drop_eq =>
      rw [drop_eq] at parts
      rw [← parts] at sheltered
      exact sheltered.insertLead (stays next.lead) (places next.lead) nextLead
  · rw [← List.append_nil members] at sheltered
    exact sheltered.insert (stays "")

theorem sheltered_insertAfter
    {newImport : Member}
    (stays : newImport.mayGo = false)
    (sheltered : Sheltered text members)
    (position : Nat) : Sheltered text (insertAfter position newImport members) := by
  rw [← List.take_append_drop (position + 1) members] at sheltered
  exact sheltered.insert stays

theorem sheltered_insert
    {name : String}
    (added : addedNames.contains name = true)
    (id : Nat)
    (isStatic : Bool)
    (sheltered : Sheltered text members) : Sheltered text (insert id name isStatic members) := by
  have stays (lead : String) :
      (Member.importDecl (Import.declare id name isStatic lead)).mayGo = false := by
    simp only [Member.mayGo, Import.mayGo, Import.declare, added]
    rfl
  have before := sheltered_insertBefore stays (fun _ => rfl) sheltered
  have after (lead : String) := sheltered_insertAfter (stays lead) sheltered
  unfold insert
  dsimp only
  split
  · split
    · exact before _ _
    · exact after _ _
  · split
    · exact after _ _
    · exact before _ _
  · split
    · exact after _ _
    · exact before _ _

theorem sheltered_removeAt
    {position : Nat}
    {removed : Member}
    (found : members[position]? = some removed)
    (goes : removed.mayGo = true)
    (sheltered : Sheltered text members) : Sheltered text (Member.removeAt position members) := by
  obtain ⟨inside, rfl⟩ := List.getElem?_eq_some_iff.mp found
  have parts := List.take_append_drop position members
  rw [← List.getElem_cons_drop inside] at parts
  rw [← parts] at sheltered
  have kept := sheltered.removeAt goes
  rw [parts, List.length_take_of_le (Nat.le_of_lt inside)] at kept
  exact kept

/-- What a change of a recipe removes may go. -/
theorem mayGo_of_removes
    {change : Change}
    {decl : Import}
    (isOfRecipes : change.isOfRecipes = true)
    (removes : change.removes decl = true) : (Member.importDecl decl).mayGo = true := by
  cases change with
  | ensure name isStatic => cases removes
  | removeIfUnused name isStatic =>
      simp only [Change.removes, Bool.and_eq_true, beq_iff_eq] at removes
      have other : (!addedNames.contains decl.name) = true := removes.2 ▸ isOfRecipes
      rw [Member.mayGo, Import.mayGo, other, Bool.or_true]
  | removeWildcardIfUnused package types =>
      simp only [Change.removes, Bool.and_eq_true] at removes
      simp [Member.mayGo, Import.mayGo, removes.1.1]

/-- A change that a recipe makes to the imports loses no sheltered lead. -/
theorem sheltered_make
    {unit result : SourceUnit}
    {change : Change}
    {session : Session}
    (isOfRecipes : change.isOfRecipes = true)
    (made : ((change.make unit).run session).1 = some result)
    (sheltered : Sheltered text unit.members) : Sheltered text result.members := by
  cases cases_of_made made with
  | inl inserted =>
      obtain ⟨name, isStatic, rfl, -, rfl⟩ := inserted
      exact sheltered_insert isOfRecipes session.nextId isStatic sheltered
  | inr removed =>
      obtain ⟨position, decl, found, removes, rfl⟩ := removed
      exact sheltered_removeAt found (mayGo_of_removes isOfRecipes removes) sheltered

/-- The changes that a recipe makes to the imports lose no sheltered lead. -/
theorem shelteredIn_makeAll
    {changes : List Change}
    (areOfRecipes : ∀ change ∈ changes, change.isOfRecipes = true)
    (unit : SourceUnit)
    (session : Session)
    (shelteredIn : ShelteredIn text unit.members) :
    ShelteredIn text ((makeAll changes unit).run session).1.members := by
  have keeps (change : Change) (inside : change ∈ changes) (early late : SourceUnit)
      (session : Session) (made : ((change.make early).run session).1 = some late)
      (isKept : ShelteredIn text early.members) : ShelteredIn text late.members := by
    refine isKept.congr (sheltered_make (areOfRecipes change inside) made)
      fun head inner isMember => ?_
    have stays : Member.classDecl head inner ∈ early.nonImports :=
      List.mem_filter.mpr ⟨isMember, rfl⟩
    obtain ⟨newHead, inLate⟩ := Member.SameButLead.exists_class (sameButLead_make made) stays
    exact ⟨newHead, (List.mem_filter.mp inLate).1⟩
  exact keeps_makeAll (fun unit => ShelteredIn text unit.members) keeps shelteredIn session

end Imports

/-! ## Recipes -/

namespace Stages

variable {Plan : Type} {stages : Stages Plan} {text : String}

theorem Makes.shelteredIn
    {Rewrites : ClassDecl → ClassDecl → ClassDecl → Prop}
    (shelters : Shelters text Rewrites)
    (areOfRecipes : ∀ plans unit session,
      ∀ change ∈ ((stages.migrate plans unit).run session).1.imports.changes,
        change.isOfRecipes = true)
    {early : Session}
    {rewritten : List Nat}
    {unit result : SourceUnit}
    (makes : stages.Makes Rewrites early rewritten unit result)
    (shelteredIn : ShelteredIn text unit.members) : ShelteredIn text result.members := by
  obtain ⟨migrating, finishing, revised, rfl⟩ := makes
  exact Imports.shelteredIn_makeAll (areOfRecipes _ unit migrating) _ _
    (shelteredIn.revised shelters revised)

end Stages

/-- A recipe loses no sheltered lead. -/
theorem Recipe.Makes.shelteredIn
    {recipe : Recipe}
    {layout : Layout}
    {early : Session}
    {rewritten : List Nat}
    {unit result : SourceUnit}
    (makes : recipe.Makes layout early rewritten unit result)
    {text : String}
    (shelteredIn : ShelteredIn text unit.members) : ShelteredIn text result.members := by
  cases recipe with
  | parameterized =>
      refine Stages.Makes.shelteredIn (Parameterized.shelters text _ _)
        (fun plans unit session => ?_)
        makes shelteredIn
      exact Imports.isOfRecipes_parameterized
  | expectedException =>
      refine Stages.Makes.shelteredIn (ExpectedException.shelters text layout _ _)
        (fun plans unit session => ?_) makes shelteredIn
      exact Imports.isOfRecipes_expectedException _

/-- No recipe loses a sheltered lead. -/
theorem Conversion.Makes.shelteredIn
    {layout : Layout}
    {recipes : List Recipe}
    {rewritten : List Nat}
    {unit result : SourceUnit}
    (makes : Makes layout recipes rewritten unit result)
    {text : String}
    (shelteredIn : ShelteredIn text unit.members) : ShelteredIn text result.members := by
  induction makes with
  | done unit => exact shelteredIn
  | declined recipe _ inductionHypothesis => exact inductionHypothesis shelteredIn
  | migrated recipe step _ inductionHypothesis =>
      obtain ⟨early, makes⟩ := step
      exact inductionHypothesis (makes.shelteredIn shelteredIn)

/-! ## Printing -/

namespace Member

theorem printMembers_append (front back : List Member) :
    printMembers (front ++ back) = printMembers front ++ printMembers back := by
  induction front with
  | nil => rw [printMembers, String.empty_append, List.nil_append]
  | cons first rest inductionHypothesis =>
      rw [List.cons_append, printMembers, printMembers, inductionHypothesis]
      simp only [String.append_assoc]

/-- A lead below some declarations stands in their text. -/
theorem ShelteredIn.occurs
    {text : String}
    {members : List Member}
    (shelteredIn : ShelteredIn text members) :
    ∃ before after, printMembers members = before ++ text ++ after := by
  induction shelteredIn with
  | here sheltered =>
      obtain ⟨front, keeper, back, rfl, rfl, -, -⟩ := sheltered
      refine ⟨printMembers front, keeper.text ++ printMembers back, ?_⟩
      simp only [printMembers_append, printMembers, String.append_assoc]
  | @inside members inner head isMember _ inductionHypothesis =>
      obtain ⟨front, back, rfl⟩ := List.append_of_mem isMember
      obtain ⟨before, after, inner_eq⟩ := inductionHypothesis
      refine ⟨printMembers front ++ head.lead ++ head.front ++ before,
        after ++ head.closing ++ "\x7d" ++ printMembers back, ?_⟩
      simp only [printMembers_append, printMembers, Member.text, Member.lead, inBraces, inner_eq,
        String.append_assoc]

end Member

/-! ## Runs -/

namespace Conversion

theorem nextId_reading
    {code : String}
    {path : Option String}
    {session : Session}
    {result : SourceUnit × Nat}
    (parsed : SourceUnit.parse code path session.nextId = .ok result) :
    ((reading code path).run session).2.nextId = result.2 := by
  unfold SourceUnit.parse at parsed
  unfold reading readUnit
  cases read_eq : SourceUnit.read? code path with
  | none =>
      rw [read_eq] at parsed
      cases parsed
  | some unit =>
      rw [read_eq] at parsed
      cases parsed
      rfl

end Conversion

namespace Run

open Conversion

variable
  {configuration : Configuration}
  {code : String}
  {path : Option String}
  {firstId : Nat}
  {result : SourceUnit × Nat}

/-- A conversion that has changed a source gives the text of what the recipes make of its tree. -/
theorem makes_of_changed
    (parsed : SourceUnit.parse code path firstId = .ok result)
    (changed : (start configuration code path firstId).conversion.changed = true) :
    ∃ rewritten final,
      Makes (Layout.ofUnit result.1 configuration.indent) configuration.recipes rewritten result.1
        final ∧
      (start configuration code path firstId).conversion.code = final.print := by
  have outcome : (start configuration code path firstId).conversion =
      ((proceed configuration code path ((reading code path).run ⟨.empty, firstId⟩).1).run
        ((reading code path).run ⟨.empty, firstId⟩).2).1 :=
    congrArg Prod.fst (run_convert configuration code path ⟨.empty, firstId⟩)
  have fresh : result.2 ≤ ((reading code path).run ⟨.empty, firstId⟩).2.nextId :=
    Nat.le_of_eq (nextId_reading parsed).symm
  obtain ⟨rewritten, makes⟩ := makes_of_parse parsed
    (Layout.ofUnit result.1 configuration.indent) configuration.recipes fresh
  rw [run_reading, parsed] at outcome
  generalize (reading code path).run ⟨.empty, firstId⟩ = read at outcome makes
  have concluded : ∃ late, (start configuration code path firstId).conversion =
      ((conclude configuration code path ((applyRecipes
        (Layout.ofUnit result.1 configuration.indent) configuration.recipes result.1).run
          read.2).1).run late).1 :=
    ⟨_, outcome⟩
  obtain ⟨late, conversion_eq⟩ := concluded
  rw [run_conclude] at conversion_eq
  rw [conversion_eq] at changed ⊢
  split at changed
  · cases changed
  · next loosely =>
      rw [if_neg loosely]
      generalize ((applyRecipes (Layout.ofUnit result.1 configuration.indent)
        configuration.recipes result.1).run read.2).1 = applied at makes changed ⊢
      cases update_eq : applied.update with
      | none =>
          rw [update_eq] at changed
          exact absurd rfl (of_decide_eq_true changed)
      | some final =>
          rw [update_eq] at makes
          exact ⟨rewritten, final, makes, rfl⟩

/--
A lead stands in the code after the conversion if it stands before a declaration that stays, and
what is right before that declaration, if anything, stays as well.
-/
theorem lead_kept
    (parsed : SourceUnit.parse code path firstId = .ok result)
    (changed : (start configuration code path firstId).conversion.changed = true)
    {text : String}
    (shelteredIn : ShelteredIn text result.1.members) :
    ∃ before after,
      (start configuration code path firstId).conversion.code = before ++ text ++ after := by
  obtain ⟨rewritten, final, makes, code_eq⟩ := makes_of_changed parsed changed
  obtain ⟨before, after, members_eq⟩ := (makes.shelteredIn shelteredIn).occurs
  refine ⟨final.lead ++ before, after ++ final.tail, ?_⟩
  rw [code_eq, SourceUnit.print, members_eq]
  simp only [String.append_assoc]

/-- A class with a rule, and a class with a comment behind it. -/
def commentedClass : String :=
  "class A \x7b\n    @org.junit.Rule\n    org.junit.rules.ExpectedException rule;\n\x7d\n\n" ++
    "// names\nclass B \x7b \x7d\n"

/-- Whether the second declaration of a source has a lead that is sheltered by the first one. -/
def sheltersSecond (source text : String) : Bool :=
  match SourceUnit.parse source none 1 with
  | .ok (unit, _) =>
    match unit.members with
    | [first, second] => !first.mayGo && !second.mayGo && second.lead == text
    | _ => false
  | .error _ => false

theorem exists_of_sheltersSecond
    {source text : String}
    (shelters : sheltersSecond source text = true) :
    ∃ result, SourceUnit.parse source none 1 = .ok result ∧ ShelteredIn text result.1.members := by
  unfold sheltersSecond at shelters
  cases parsed : SourceUnit.parse source none 1 with
  | error error =>
      rw [parsed] at shelters
      cases shelters
  | ok result =>
      rw [parsed] at shelters
      dsimp only at shelters
      split at shelters
      · next first second members_eq =>
          simp only [Bool.and_eq_true, Bool.not_eq_true', beq_iff_eq] at shelters
          obtain ⟨⟨firstStays, secondStays⟩, lead_eq⟩ := shelters
          exact ⟨result, rfl,
            .here ⟨[first], second, [], members_eq, lead_eq, secondStays, firstStays⟩⟩
      · cases shelters

theorem lead_kept_commentedClass :
    ∃ result before after, SourceUnit.parse commentedClass none 1 = .ok result ∧
      ShelteredIn "\n\n// names\n" result.1.members ∧
      (start .standard commentedClass none 1).conversion.changed = true ∧
      (start .standard commentedClass none 1).conversion.code =
        before ++ "\n\n// names\n" ++ after := by
  have shelters : sheltersSecond commentedClass "\n\n// names\n" = true := by decide +kernel
  have changed : (start .standard commentedClass none 1).conversion.changed = true := by
    decide +kernel
  obtain ⟨result, parsed, shelteredIn⟩ := exists_of_sheltersSecond shelters
  obtain ⟨before, after, code_eq⟩ := lead_kept parsed changed shelteredIn
  exact ⟨result, before, after, parsed, shelteredIn, changed, code_eq⟩

/-- The fields of the classes in a source. -/
def fieldsOf (source : String) : List Field :=
  match SourceUnit.parse source none 1 with
  | .ok (unit, _) => unit.classes.flatMap fun decl => decl.members.filterMap Member.field?
  | .error _ => []

/-- A class whose first member is a rule, followed by a field with a comment. -/
def commentedFollower : String :=
  "import org.junit.Rule;\nimport org.junit.rules.ExpectedException;\n\nclass A \x7b\n" ++
    "    @Rule\n    ExpectedException rule;\n    // names\n    String name;\n\x7d\n"

/-- The comment before a field that stays the same is lost with the rule before it. -/
theorem comment_lost :
    (start .standard commentedFollower none 1).conversion.success = true ∧
      ∃ field ∈ fieldsOf commentedFollower,
        ∃ kept ∈ fieldsOf (start .standard commentedFollower none 1).conversion.code,
          kept.name = field.name ∧ kept.body = field.body ∧
            Text.contains field.lead "// names" = true ∧
            Text.contains (start .standard commentedFollower none 1).conversion.code
              "// names" = false := by
  decide +kernel

end Run

end JupiterMigration
