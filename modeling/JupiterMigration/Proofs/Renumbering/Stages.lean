import JupiterMigration.Proofs.Renumbering.Numbering
import JupiterMigration.Proofs.Traversal.Departures
import JupiterMigration.Recipe.Stages

/-!
# The stages of a recipe in two runs

Bringing the imports of a file up to date does the same to the file with other numbers
(`Imports.renumbers_makeAll`), and so does a recipe whose collection and migration do
(`Stages.renumbers_apply`).
-/

namespace JupiterMigration

variable {number : Nat → Nat}

/-- A file with some number of its own and other numbers in it. -/
def SourceUnit.IsRenumbered (number : Nat → Nat) (unit other : SourceUnit) : Prop :=
  ∃ id, other = unit.renumbered number id

theorem SourceUnit.isRenumbered_with
    (id : Nat)
    (unit : SourceUnit)
    {members others : List Member}
    (members_eq : others = members.map (Member.renumbered number)) :
    ({ unit with members } : SourceUnit).IsRenumbered number
      { unit.renumbered number id with members := others } :=
  ⟨id, by rw [members_eq]; rfl⟩

theorem SourceUnit.IsRenumbered.scope_eq
    {unit other : SourceUnit}
    (related : unit.IsRenumbered number other) :
    TypeScope.ofUnit other = TypeScope.ofUnit unit := by
  obtain ⟨id, rfl⟩ := related
  exact TypeScope.ofUnit_renumbered number id unit

/-! ## Imports -/

namespace Member

theorem any_import?_renumbered
    {test : Import → Bool}
    (blind : ∀ decl : Import, test (decl.renumbered number) = test decl)
    (member : Member) : (member.renumbered number).import?.any test = member.import?.any test := by
  rw [member.import?_renumbered]
  cases member.import? with
  | none => rfl
  | some decl => exact blind decl

theorem isImportOf_renumbered (isStatic : Bool) (member : Member) :
    (member.renumbered number).isImportOf isStatic = member.isImportOf isStatic :=
  any_import?_renumbered (fun _ => rfl) member

theorem isImportAfter_renumbered (name : String) (isStatic : Bool) (member : Member) :
    (member.renumbered number).isImportAfter name isStatic = member.isImportAfter name isStatic :=
  any_import?_renumbered (fun _ => rfl) member

theorem isPackage_renumbered (member : Member) :
    (member.renumbered number).isPackage = member.isPackage :=
  congrArg Option.isSome (member.packageOf_renumbered number)

end Member

namespace Imports

section Positions

variable {p : Member → Bool} (blind : ∀ member, p (member.renumbered number) = p member)
include blind

theorem findIdx?_renumbered (members : List Member) :
    (members.map (Member.renumbered number)).findIdx? p = members.findIdx? p := by
  rw [List.findIdx?_map]
  exact congrArg (fun test => members.findIdx? test) (funext blind)

theorem lastIdx?_renumbered (members : List Member) :
    lastIdx? p (members.map (Member.renumbered number)) = lastIdx? p members := by
  unfold lastIdx?
  rw [← List.map_reverse, findIdx?_renumbered blind, List.length_map]

end Positions

theorem insertBefore_renumbered
    (decl : String → Member)
    (position : Nat)
    (nextLead : String)
    (members : List Member) :
    insertBefore position (fun lead => (decl lead).renumbered number) nextLead
        (members.map (Member.renumbered number)) =
      (insertBefore position decl nextLead members).map (Member.renumbered number) := by
  unfold insertBefore
  rw [← List.map_drop, ← List.map_take]
  cases members.drop position with
  | nil => simp
  | cons next rest => simp [Member.lead_renumbered, Member.withLead_renumbered]

theorem insertAfter_renumbered (decl : Member) (position : Nat) (members : List Member) :
    insertAfter position (decl.renumbered number) (members.map (Member.renumbered number)) =
      (insertAfter position decl members).map (Member.renumbered number) := by
  unfold insertAfter
  simp

section Files

variable (id : Nat) (unit : SourceUnit)

theorem isCovered_renumbered (name : String) (isStatic : Bool) :
    isCovered name isStatic (unit.renumbered number id) = isCovered name isStatic unit := by
  unfold isCovered
  rw [SourceUnit.imports_renumbered, List.any_map]
  rfl

theorem single?_renumbered (name : String) (isStatic : Bool) :
    single? name isStatic (unit.renumbered number id) = single? name isStatic unit :=
  findIdx?_renumbered (Member.any_import?_renumbered fun _ => rfl) unit.members

theorem wildcard?_renumbered (package : String) :
    wildcard? package (unit.renumbered number id) = wildcard? package unit :=
  findIdx?_renumbered (Member.any_import?_renumbered fun _ => rfl) unit.members

end Files

theorem renumbers_note (action name : String) (isStatic : Bool) :
    (Migration.renumbering number).Holds (fun _ _ => True) (note action name isStatic)
      (note action name isStatic) :=
  (Migration.renumbering number).bind (Migration.renumbers_log _ _) fun _ _ _ =>
    Migration.renumbers_record _

theorem renumbers_keep (target reason : String) :
    (Migration.renumbering number).Holds (fun _ _ => True) (keep target reason)
      (keep target reason) :=
  (Migration.renumbering number).bind (Migration.renumbers_log _ _) fun _ _ _ =>
    Migration.renumbers_record _

/-- A new import with another number is inserted at the same place. -/
theorem insert_renumbered (id : Nat) (name : String) (isStatic : Bool) (members : List Member) :
    insert (number id) name isStatic (members.map (Member.renumbered number)) =
      (insert id name isStatic members).map (Member.renumbered number) := by
  let decl (lead : String) : Member := .importDecl (Import.declare id name isStatic lead)
  have before := @insertBefore_renumbered number decl
  have after (lead : String) := @insertAfter_renumbered number (decl lead)
  have declares (lead : String) :
      Member.importDecl (Import.declare (number id) name isStatic lead) =
        (decl lead).renumbered number := rfl
  unfold insert
  simp only [lastIdx?_renumbered (Member.isImportOf_renumbered isStatic),
    lastIdx?_renumbered (Member.isImport_renumbered number),
    findIdx?_renumbered (Member.isImport_renumbered number),
    findIdx?_renumbered (Member.isImportAfter_renumbered name isStatic),
    findIdx?_renumbered Member.isPackage_renumbered, declares, before, after]
  split
  · split <;> rfl
  · split <;> rfl
  · split <;> rfl

theorem renumbers_make
    (change : Change)
    {unit other : SourceUnit}
    (related : unit.IsRenumbered number other) :
    (Migration.renumbering number).Holds (Option.Rel (SourceUnit.IsRenumbered number))
      (change.make unit) (change.make other) := by
  obtain ⟨id, rfl⟩ := related
  cases change with
  | ensure name isStatic =>
      dsimp only [Change.make, ensure]
      rw [isCovered_renumbered]
      split
      · exact (Migration.renumbering number).pure .none
      · refine (Migration.renumbering number).bind
          (Migration.renumbers_number renumbers_fresh) ?_
        rintro new _ rfl
        have members_eq := @insert_renumbered number new name isStatic unit.members
        refine (Migration.renumbering number).bind (renumbers_note _ _ _) fun _ _ _ => ?_
        exact (Migration.renumbering number).pure (.some (unit.isRenumbered_with id members_eq))
  | removeIfUnused name isStatic =>
      dsimp only [Change.make, removeIfUnused]
      rw [single?_renumbered, SourceUnit.namesUsed_renumbered]
      split
      · exact (Migration.renumbering number).pure .none
      · next position _ =>
          have members_eq := Member.removeAt_renumbered number position unit.members
          split
          · exact (Migration.renumbering number).bind (renumbers_keep _ _) fun _ _ _ =>
              (Migration.renumbering number).pure .none
          · refine (Migration.renumbering number).bind (renumbers_note _ _ _) fun _ _ _ => ?_
            exact (Migration.renumbering number).pure (.some (unit.isRenumbered_with id members_eq))
  | removeWildcardIfUnused package types =>
      dsimp only [Change.make, removeWildcardIfUnused]
      rw [wildcard?_renumbered, SourceUnit.namesUsed_renumbered]
      split
      · exact (Migration.renumbering number).pure .none
      · next position _ =>
          have members_eq := Member.removeAt_renumbered number position unit.members
          split
          · refine (Migration.renumbering number).bind (renumbers_note _ _ _) fun _ _ _ => ?_
            exact (Migration.renumbering number).pure (.some (unit.isRenumbered_with id members_eq))
          · exact (Migration.renumbering number).bind (renumbers_keep _ _) fun _ _ _ =>
              (Migration.renumbering number).pure .none

/-- Changes to the imports are the same, whatever the numbers are. -/
theorem renumbers_makeAll
    (changes : List Change)
    {unit other : SourceUnit}
    (related : unit.IsRenumbered number other) :
    (Migration.renumbering number).Holds (SourceUnit.IsRenumbered number)
      (makeAll changes unit) (makeAll changes other) := by
  have same : List.Forall₂ Eq changes changes := List.forall₂_refl changes
  refine (Migration.renumbering number).foldlM same ?_ related
  rintro unit other related change _ rfl
  refine (Migration.renumbering number).bind (renumbers_make change related) ?_
  intro update twin updates
  refine (Migration.renumbering number).pure ?_
  cases updates with
  | none => exact related
  | some updated => exact updated

end Imports

/-! ## Stages -/

/-- A migrated file with other numbers in it. -/
structure MigratedUnit.IsRenumbered (number : Nat → Nat) (result other : MigratedUnit) : Prop where
  unit : result.unit.IsRenumbered number other.unit
  classes : result.classes = other.classes
  imports : result.imports = other.imports

namespace Stages

variable {Plan : Type} (stages : Stages Plan)

theorem renumbers_finish
    {result other : MigratedUnit}
    (related : result.IsRenumbered number other) :
    (Migration.renumbering number).Holds (SourceUnit.IsRenumbered number) (stages.finish result)
      (stages.finish other) := by
  unfold finish
  rw [← related.classes, ← related.imports]
  refine (Migration.renumbering number).bind
    (renumbers_phase _ _ (Imports.renumbers_makeAll _ related.unit)) fun _ _ units => ?_
  refine (Migration.renumbering number).bind (Migration.renumbers_log _ _) fun _ _ _ => ?_
  exact (Migration.renumbering number).pure units

/-- A recipe does the same in two runs if it collects the same plans and does the same with them. -/
theorem renumbers_apply
    {change : Plan → Plan}
    {unit other : SourceUnit}
    (related : unit.IsRenumbered number other)
    (collects : (Migration.renumbering number).Holds
      (fun plans others => others = plans.map change) (stages.collect unit) (stages.collect other))
    (migrates : ∀ plans, (Migration.renumbering number).Holds (MigratedUnit.IsRenumbered number)
      (stages.migrate plans unit) (stages.migrate (plans.map change) other)) :
    (Migration.renumbering number).Holds (Option.Rel (SourceUnit.IsRenumbered number))
      (stages.apply unit) (stages.apply other) := by
  have uses : other.usesType stages.markerType = unit.usesType stages.markerType := by
    obtain ⟨id, rfl⟩ := related
    exact unit.usesType_renumbered number id stages.markerType
  unfold apply
  rw [uses]
  split
  · refine (Migration.renumbering number).bind (renumbers_phase _ _ collects) ?_
    rintro plans _ rfl
    rw [List.isEmpty_map]
    split
    · exact (Migration.renumbering number).pure .none
    · unfold migratePlanned
      rw [List.length_map]
      refine (Migration.renumbering number).bind (renumbers_phase _ _ (migrates plans)) ?_
      intro result other results
      rw [← results.classes]
      split
      · exact (Migration.renumbering number).pure .none
      · refine (Migration.renumbering number).bind
          (renumbers_finish stages results) fun _ _ units => ?_
        exact (Migration.renumbering number).pure (.some units)
  · exact (Migration.renumbering number).pure .none

end Stages

/-! ## Walks -/

/-- A declaration with other numbers in it, left below the class with other numbers. -/
structure Departure.IsRenumbered (number : Nat → Nat) (departure other : Departure) : Prop where
  member : other.member = departure.member.renumbered number
  nearest : nearestClass? other.above =
    (nearestClass? departure.above).map (ClassDecl.renumbered number)

namespace Member

mutual

theorem departures_renumbered
    {above others : List Node}
    (nearest : nearestClass? others = (nearestClass? above).map (ClassDecl.renumbered number))
    (member : Member) :
    List.Forall₂ (Departure.IsRenumbered number) (member.departures above)
      ((member.renumbered number).departures others) := by
  cases member with
  | classDecl head members =>
      have inner : nearestClass?
          (.member (classDecl (head.renumbered number) (members.map (renumbered number))) ::
            others) =
          (nearestClass? (.member (classDecl head members) :: above)).map
            (ClassDecl.renumbered number) := rfl
      rw [renumbered_classDecl, departures, departures]
      exact List.rel_append (departuresAll_renumbered inner members)
        (.cons ⟨(renumbered_classDecl number _ _).symm, nearest⟩ .nil)
  | importDecl _ | verbatim _ | field _ | method _ => exact .cons ⟨rfl, nearest⟩ .nil

theorem departuresAll_renumbered
    {above others : List Node}
    (nearest : nearestClass? others = (nearestClass? above).map (ClassDecl.renumbered number))
    (members : List Member) :
    List.Forall₂ (Departure.IsRenumbered number) (departuresAll above members)
      (departuresAll others (members.map (renumbered number))) := by
  cases members with
  | nil => exact .nil
  | cons first rest =>
      rw [List.map_cons, departuresAll, departuresAll]
      exact List.rel_append (departures_renumbered nearest first)
        (departuresAll_renumbered nearest rest)

end

end Member

/-- A visitor does the same in two runs if it does so wherever it leaves a declaration. -/
theorem Visitor.renumbers_visit
    {σ : Type}
    {States : σ → σ → Prop}
    {visitor : Visitor (StateT σ Migration)}
    (leaves : visitor.LeavesMembers)
    (each : ∀ departure other : Departure, departure.IsRenumbered number other →
      ((Migration.renumbering number).withState States).Holds (fun _ _ => True)
        (visitor.leave departure.above (.member departure.member))
        (visitor.leave other.above (.member other.member)))
    {unit other : SourceUnit}
    (related : unit.IsRenumbered number other) :
    ((Migration.renumbering number).withState States).Holds (fun _ _ => True)
      (visitor.visit unit) (visitor.visit other) := by
  obtain ⟨id, rfl⟩ := related
  rw [visit_eq_forM leaves, visit_eq_forM leaves]
  exact ((Migration.renumbering number).withState States).forM
    (Member.departuresAll_renumbered rfl unit.members) each

/-! ## Migrating planned classes -/

theorem congruent_renumbered :
    PairKind.Congruent fun member other => other = member.renumbered number where
  agree member other related := by
    subst related
    cases member with
    | classDecl head members =>
        rw [Member.renumbered_classDecl]
        exact .classes head (head.renumbered number) (forall₂_image_iff.mpr rfl)
    | _ => exact .others rfl rfl
  rebuilt head twinHead members others inner twinInner related innerRelated := by
    rw [Member.renumbered_classDecl] at related ⊢
    cases related
    rw [forall₂_image_iff.mp innerRelated]
  name head twinHead members others related := by
    rw [Member.renumbered_classDecl] at related
    cases related
    rfl
  print member other related := by
    rw [related, Member.print, Member.print, member.lead_renumbered, member.text_renumbered]

section Planned

variable (injective : Function.Injective number) {Plan : Type} (change : Plan → Plan)
include injective

/-- What has a number has the new number afterwards. -/
theorem lookup_renumbered (plans : List (Nat × Plan)) (id : Nat) :
    (plans.map fun entry => (number entry.1, change entry.2)).lookup (number id) =
      (plans.lookup id).map change := by
  induction plans with
  | nil => rfl
  | cons first rest inductionHypothesis =>
      have same : (number id == number first.1) = (id == first.1) := by
        rw [Bool.eq_iff_iff, beq_iff_eq, beq_iff_eq, injective.eq_iff]
      rw [List.map_cons, List.lookup_cons, List.lookup_cons, same, inductionHypothesis]
      cases id == first.1 <;> rfl

variable
  {change}
  {migrate : Plan → ClassDecl → Synthesis ClassDecl}
  (migrates : ∀ plan decl, (Synthesis.renumbering number).Holds
    (fun result other => other = result.renumbered number) (migrate plan decl)
    (migrate (change plan) (decl.renumbered number)))
  {σ : Type}
  {note : String → Plan → σ → σ}
  (notes : ∀ name plan state, note name (change plan) state = note name plan state)
  (plans : List (Nat × Plan))
include migrates notes

theorem decides_renumbered :
    ((Migration.renumbering number).withState Eq).Decides
      (fun member other => other = member.renumbered number) (decideByPlan plans migrate note)
      (decideByPlan (plans.map fun entry => (number entry.1, change entry.2)) migrate note) := by
  have found (head twinHead : ClassHead) (inner others : List Member)
      (related : Member.classDecl twinHead others =
        (Member.classDecl head inner).renumbered number) :
      Option.Rel (fun plan other => other = change plan) (plans.lookup head.id)
        ((plans.map fun entry => (number entry.1, change entry.2)).lookup twinHead.id) := by
    rw [Member.renumbered_classDecl] at related
    cases related
    rw [ClassHead.renumbered, lookup_renumbered injective]
    cases plans.lookup head.id with
    | none => exact .none
    | some plan => exact .some rfl
  refine PairKind.decides_decideByPlan congruent_renumbered Migration.renumbers_warn
    (fun _ _ => Migration.renumbers_record _) found ?_ ?_
  · rintro plan _ rfl ⟨head, inner⟩ ⟨twinHead, others⟩ related
    rw [ClassDecl.toMember, ClassDecl.toMember, Member.renumbered_classDecl] at related
    cases related
    refine (Synthesis.renumbering number).mono (migrates plan ⟨head, inner⟩) ?_
    rintro result _ rfl
    exact (Member.renumbered_classDecl number _ _).symm
  · rintro name plan _ rfl state _ rfl
    exact (notes name plan state).symm

/-- A file is migrated in the same way in two runs if a single class is. -/
theorem renumbers_rewriteUnit
    {unit other : SourceUnit}
    (related : unit.IsRenumbered number other)
    (start : σ) :
    (Migration.renumbering number).Holds
      (fun result twinResult => result.1.IsRenumbered number twinResult.1 ∧
        result.2 = twinResult.2)
      (do
        let (members, state) ←
          (Member.rewriteAll (decideByPlan plans migrate note) unit.members).run start
        return (({ unit with members } : SourceUnit), state))
      (do
        let (members, state) ← (Member.rewriteAll
          (decideByPlan (plans.map fun entry => (number entry.1, change entry.2)) migrate note)
          other.members).run start
        return (({ other with members } : SourceUnit), state)) := by
  obtain ⟨id, rfl⟩ := related
  have rewrites := PairKind.rewriteAll _ congruent_renumbered.agree
    (decides_renumbered injective migrates notes plans) unit.members _ (forall₂_image_iff.mpr rfl)
    start start rfl
  refine (Migration.renumbering number).bind rewrites ?_
  rintro ⟨members, state⟩ ⟨others, _⟩ ⟨rewritten, rfl⟩
  exact (Migration.renumbering number).pure
    ⟨unit.isRenumbered_with id (forall₂_image_iff.mp rewritten), rfl⟩

end Planned

end JupiterMigration
