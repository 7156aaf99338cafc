import JupiterMigration.Proofs.Initialization.Plan
import JupiterMigration.Proofs.Reading.Types

/-!
# The types of the parameters that stand for fields

Java allows the brackets of an array type behind the name of a variable as well as before it.  A
field that has been read keeps the type before its first variable only
(`Java.Field.declares_of_ofParts?`).  So a planned parameter is declared with the type before the
name of its field, and this is the type of the field if no brackets follow the name
(`Parameterized.declared_as_before_name`); otherwise the dimensions behind the name are lost
(`Parameterized.dimensions_lost`).
-/

namespace JupiterMigration

namespace Java

/-! ## Declarations of a single variable -/

/-- The only variable of a declaration and its type, as the grammar has them. -/
structure SoleVariable where
  /-- The type before the name. -/
  type : Phrase
  /-- Whether the name can be referred to, unlike a lone underscore. -/
  isName : Bool
  name : Token
  /-- The brackets behind the name, with annotations before them. -/
  brackets : List Phrase
  /-- The sign and the value of an initialization. -/
  value : List Phrase
  typeDerived : Rule.Derives Category.rule (.call .type) [type]
  bracketsDerived : brackets = [] ∨ Rule.Derives Category.rule (.call .dimensions) brackets
  valueDerived : value = [] ∨ ∃ sign inner, value = .leaf false sign :: inner ∧ sign.text = "="

namespace SoleVariable

/-- The type of the variable: the type before its name and the brackets behind the name. -/
def fullType (sole : SoleVariable) : List Token :=
  sole.type.tokens ++ Phrase.tokensOfAll sole.brackets

/-- The phrase of the variable without the type before it. -/
def declarator (sole : SoleVariable) : Phrase :=
  .node .declarator (.leaf sole.isName sole.name :: (sole.brackets ++ sole.value))

/-- The parts are those of a declaration of the variable as a field. -/
def IsDeclaredBy (sole : SoleVariable) (parts : List Phrase) : Prop :=
  ∃ semicolon, parts.getLast? =
    some (.node .fieldDeclaration [sole.type, sole.declarator, .leaf false semicolon])

end SoleVariable

variable {phrases parts : List Phrase}

theorem Rule.Derives.isA_of_type
    (derived : Rule.Derives Category.rule (.call .type) phrases) :
    ∃ type, phrases = [type] ∧ type.isA .type = true ∧ type.isA .declarator = false := by
  obtain ⟨inner, rfl, -⟩ := derived.of_call.of_node
  exact ⟨_, rfl, rfl, rfl⟩

/-- What the grammar has for a variable: its name, brackets, and an initialization. -/
theorem Rule.Derives.exists_of_declarator
    {type : Phrase}
    (derivedType : Rule.Derives Category.rule (.call .type) [type])
    (derived : Rule.Derives Category.rule (.call .declarator) phrases) :
    ∃ sole : SoleVariable, sole.type = type ∧ phrases = [sole.declarator] := by
  obtain ⟨inner, rfl, derivedInner⟩ := derived.of_call.of_node
  obtain ⟨named, back, rfl, derivedName, derivedBack⟩ := derivedInner.of_seq
  obtain ⟨brackets, value, rfl, derivedBrackets, derivedValue⟩ := derivedBack.of_seq
  obtain ⟨isName, name, rfl⟩ : ∃ isName name, named = [.leaf isName name] := by
    rcases derivedName.of_either with underscore | anyName
    · obtain ⟨token, rfl⟩ := underscore.of_word
      exact ⟨false, token, rfl⟩
    · obtain ⟨token, rfl⟩ := anyName.of_name
      exact ⟨true, token, rfl⟩
  have bracketsDerived : brackets = [] ∨
      Rule.Derives Category.rule (.call .dimensions) brackets :=
    derivedBrackets.of_either.symm.imp_left Derives.eq_nil
  have valueDerived : value = [] ∨
      ∃ sign inner, value = .leaf false sign :: inner ∧ sign.text = "=" := by
    rcases derivedValue.of_either with some | none
    · obtain ⟨sign, inner, rfl, derivedSign, -⟩ := some.of_seq
      obtain ⟨token, rfl, text_eq⟩ := derivedSign.of_symbol
      exact .inr ⟨token, inner, rfl, text_eq⟩
    · exact .inl none.eq_nil
  exact ⟨⟨type, isName, name, brackets, value, derivedType, bracketsDerived, valueDerived⟩, rfl,
    rfl⟩

/-- Variables after the first one count as further declarators. -/
theorem eq_nil_of_filter_declarator
    {pieces : List (List Phrase)}
    (derived : ∀ piece ∈ pieces, Rule.Derives Category.rule
      (.seq (.symbol ",") (.call .declarator)) piece)
    (none : pieces.flatten.filter (·.isA .declarator) = []) : pieces = [] := by
  cases pieces with
  | nil => rfl
  | cons first rest =>
      obtain ⟨front, back, first_eq, -, derivedBack⟩ :=
        (derived first List.mem_cons_self).of_seq
      obtain ⟨inner, rfl, -⟩ := derivedBack.of_call.of_node
      have inside : Phrase.node .declarator inner ∈ (first :: rest).flatten := by
        simp [first_eq]
      exact absurd rfl (List.filter_eq_nil_iff.mp none _ inside)

/--
A field with one variable has the type that stands before the name of the variable and the name; the
brackets behind the name are no part of either.
-/
theorem Field.declares_of_ofParts?
    {lead : String}
    {field : JupiterMigration.Field}
    (written : WrittenAll parts)
    (found : ofParts? lead parts = some field)
    (single : field.variableCount = 1) :
    ∃ sole : SoleVariable, sole.IsDeclaredBy parts ∧ field.type = sole.type.text ∧
      field.name = sole.name.text := by
  unfold ofParts? at found
  split at found
  · next inner last_eq =>
      cases found
      dsimp only at single ⊢
      have fieldWritten := writtenAll_iff.mp written _ (List.mem_of_getLast? last_eq)
      obtain ⟨category, isWriter, derived⟩ := fieldWritten.1 (List.cons_ne_nil _ _)
      obtain rfl := List.mem_singleton.mp isWriter
      obtain ⟨_, same, derivedInner⟩ := derived.of_call.of_node
      cases same
      obtain ⟨types, back, rfl, derivedType, derivedBack⟩ := derivedInner.of_seq
      obtain ⟨row, stop, rfl, derivedRow, derivedStop⟩ := derivedBack.of_seq
      obtain ⟨first, others, rfl, derivedFirst, derivedOthers⟩ := derivedRow.of_seq
      obtain ⟨semicolon, rfl, -⟩ := derivedStop.of_symbol
      obtain ⟨type, rfl, isType, noDeclarator⟩ := derivedType.isA_of_type
      obtain ⟨sole, rfl, rfl⟩ := derivedType.exists_of_declarator derivedFirst
      obtain ⟨pieces, rfl, derivedPieces⟩ := derivedOthers.of_many
      have isDeclarator : sole.declarator.isA .declarator = true := rfl
      have noDeclaratorLast : (Phrase.leaf false semicolon).isA .declarator = false := rfl
      have isFirst : (sole.type :: ([sole.declarator] ++ pieces.flatten ++
          [Phrase.leaf false semicolon])).filter (·.isA .declarator) =
            sole.declarator :: pieces.flatten.filter (·.isA .declarator) := by
        simp [noDeclarator, isDeclarator, noDeclaratorLast]
      rw [List.singleton_append, isFirst, List.length_cons, Nat.add_eq_right] at single
      obtain rfl := eq_nil_of_filter_declarator derivedPieces (List.length_eq_zero_iff.mp single)
      refine ⟨sole, ⟨semicolon, last_eq⟩, ?_, ?_⟩
      · rw [List.singleton_append, List.find?_cons_of_pos isType]
        rfl
      · rw [List.singleton_append, isFirst]
        rfl
  · cases found

/-- Brackets have a text. -/
theorem sourceOfAll_ne_empty
    (derived : Rule.Derives Category.rule (.call .dimensions) phrases) :
    Phrase.sourceOfAll phrases ≠ "" := by
  obtain ⟨front, back, rfl, derivedFront, -⟩ := derived.of_call.of_seq
  obtain ⟨uses, rest, rfl, -, derivedRest⟩ := derivedFront.of_seq
  obtain ⟨opening, closing, rfl, derivedOpening, -⟩ := derivedRest.of_seq
  obtain ⟨token, rfl, text_eq⟩ := derivedOpening.of_symbol
  intro none
  have inside : '[' ∈ (Phrase.sourceOfAll
      (uses ++ ([Phrase.leaf false token] ++ closing) ++ back)).toList := by
    simp [Phrase.sourceOfAll, Phrase.tokensOfAll_append, Phrase.tokensOfAll, Phrase.tokens,
      sourceOf_append, text_eq]
  rw [none] at inside
  cases inside

/-- The type before the name is the full type of a variable if no brackets follow the name. -/
theorem SoleVariable.text_fullType_eq_iff (sole : SoleVariable) :
    textOf sole.fullType = sole.type.text ↔ sole.brackets = [] := by
  have typeTokens : sole.type.tokens ≠ [] := by
    simpa [Phrase.tokensOfAll] using sole.typeDerived.tokens_ne_nil callDepth (by decide)
  constructor
  · intro same
    refine sole.bracketsDerived.resolve_right fun derived => sourceOfAll_ne_empty derived ?_
    rw [fullType, textOf_append typeTokens] at same
    exact (String.append_right_inj _).mp (same.trans String.append_empty.symm)
  · intro none
    rw [fullType, none, Phrase.tokensOfAll, List.append_nil, Phrase.text]

namespace Member

/-- The fields in a declaration are read from the parts of declarations in it. -/
theorem exists_of_mem_walk_field
    {field : JupiterMigration.Field}
    (phrase : Phrase)
    (shaped : Shaped phrase)
    (written : Written phrase)
    (inside : Node.member (.field field) ∈ (ofPhrase phrase).walk) :
    ∃ lead parts, WrittenAll parts ∧ Field.ofParts? lead parts = some field := by
  cases read_eq : ofPhrase phrase with
  | importDecl decl | verbatim decl =>
      rw [read_eq] at inside
      simp [JupiterMigration.Member.walk] at inside
  | field decl =>
      rw [read_eq] at inside
      obtain rfl : field = decl := by simpa [JupiterMigration.Member.walk] using inside
      obtain ⟨lead, parts, rfl, found⟩ := exists_of_ofPhrase_field read_eq
      exact ⟨lead, parts, written.2, found⟩
  | method decl =>
      rw [read_eq] at inside
      cases body_eq : decl.body <;>
        simp [JupiterMigration.Member.walk, Method.walkBelow, Block.walk, body_eq] at inside
  | classDecl head members =>
      rw [read_eq] at inside
      obtain ⟨parts, view, phrase_eq, found, rfl⟩ := exists_of_ofPhrase_classDecl shaped read_eq
      have below : Node.member (.field field) ∈
          JupiterMigration.Member.walkAll (view.body.inner.map ofPhrase) := by
        simpa [JupiterMigration.Member.walk] using inside
      obtain ⟨_, isMember, inMember⟩ := JupiterMigration.Member.mem_walkAll.mp below
      obtain ⟨part, isPart, rfl⟩ := List.mem_map.mp isMember
      have smaller : sizeOf part < sizeOf phrase := by
        have inParts := sizeOf_lt_of_view found isPart
        rw [phrase_eq, Phrase.node.sizeOf_spec]
        omega
      subst phrase_eq
      exact exists_of_mem_walk_field part (shaped_of_view found shaped.2 isPart)
        (written_of_view found written.2 isPart) inMember
  termination_by sizeOf phrase

theorem exists_of_mem_walk_ofTopLevel
    {phrase : Phrase}
    {field : JupiterMigration.Field}
    (shaped : Shaped phrase)
    (written : Written phrase)
    (inside : Node.member (.field field) ∈ (ofTopLevel phrase).walk) :
    ∃ lead parts, WrittenAll parts ∧ Field.ofParts? lead parts = some field := by
  rcases ofTopLevel_cases phrase with same | ⟨_, -, import_eq⟩ | verbatim_eq
  · rw [same] at inside
    exact exists_of_mem_walk_field phrase shaped written inside
  · rw [import_eq] at inside
    simp [JupiterMigration.Member.walk] at inside
  · rw [verbatim_eq] at inside
    simp [JupiterMigration.Member.walk] at inside

end Member

end Java

/-! ## Fields of a file -/

/-- The declaration of a field with one variable, as it stands in the source of a file. -/
def Field.Declares (field : Field) (sole : Java.SoleVariable) : Prop :=
  ∃ lead parts original, Java.Field.ofParts? lead parts = some original ∧
    original.unnumbered = field.unnumbered ∧ sole.IsDeclaredBy parts

/--
A field of a file that has been read has the type that stands before the name of its variable.
-/
theorem SourceUnit.declares_of_parse
    {source : String}
    {path : Option String}
    {next : Nat}
    {result : SourceUnit × Nat}
    {field : Field}
    (parsed : parse source path next = .ok result)
    (inside : Node.member (.field field) ∈ Member.walkAll result.1.members)
    (single : field.variableCount = 1) :
    ∃ sole, field.Declares sole ∧ field.type = sole.type.text ∧ field.name = sole.name.text := by
  obtain ⟨phrases, tail, found, rfl⟩ := exists_phrases_of_parse parsed
  obtain ⟨tokens, -, readFound⟩ := exists_tokens_of_phrases? found
  have shaped := Java.shaped_of_readProgram readFound
  have written := Java.writtenAll_of_readProgram readFound
  obtain ⟨original, originalInside, same⟩ := Member.exists_of_mem_walkAll_numberedAll inside
  obtain ⟨_, isMember, below⟩ := Member.mem_walkAll.mp originalInside
  obtain ⟨phrase, isPhrase, rfl⟩ := List.mem_map.mp isMember
  cases original with
  | member other =>
      cases other with
      | field other =>
          obtain ⟨lead, parts, writtenParts, fieldFound⟩ :=
            Java.Member.exists_of_mem_walk_ofTopLevel (Java.shapedAll_iff.mp shaped phrase isPhrase)
              (Java.writtenAll_iff.mp written phrase isPhrase) below
          have same_field : other.unnumbered = field.unnumbered :=
            Member.field.inj (Node.member.inj same)
          have single_eq : other.variableCount = field.variableCount :=
            congrArg (·.variableCount) same_field
          have type_eq : other.type = field.type := congrArg (·.type) same_field
          have name_eq : other.name = field.name := congrArg (·.name) same_field
          obtain ⟨sole, declared, typeOther, nameOther⟩ :=
            Java.Field.declares_of_ofParts? writtenParts fieldFound (single_eq.trans single)
          exact ⟨sole, ⟨lead, parts, other, fieldFound, same_field, declared⟩,
            type_eq.symm.trans typeOther, name_eq.symm.trans nameOther⟩
      | _ => cases same
  | _ => cases same

namespace Parameterized

/-! ## Planned parameters -/

/-- A planned parameter is declared with the type that stands before the name of a variable. -/
structure PlannedParameter.DeclaredAs
    (parameter : PlannedParameter)
    (sole : Java.SoleVariable) : Prop where
  type : parameter.type = sole.type.text
  name : parameter.name = sole.name.text
  text : parameter.node.text = sole.type.text ++ " " ++ sole.name.text
  /-- This is the full type of the variable if no brackets follow its name. -/
  full : parameter.type = Java.textOf sole.fullType ↔ sole.brackets = []

/--
Where fields of a class in a file receive the arguments, a new initializer assigns them, and each
parameter stands for a field of the class, declared with the type before the name of the field.
Hence the parameter has the type of the field exactly if no brackets follow the name of the field.
-/
theorem declared_as_before_name
    {source : String}
    {path : Option String}
    {next : Nat}
    {result : SourceUnit × Nat}
    {decl : ClassDecl}
    {plan : ClassPlan}
    (parsed : SourceUnit.parse source path next = .ok result)
    (inside : decl ∈ Member.classesAll result.1.members)
    (session : Session)
    (planned : ((collect result.1).run session).1.plans.lookup decl.id = some plan)
    (byFields : plan.newInitializer ≠ none) :
    plan.newInitializer = some (plan.parameters.map assignment) ∧
      ∀ parameter ∈ plan.parameters, ∃ field sole, .field field ∈ decl.members ∧
        field.Declares sole ∧ parameter.DeclaredAs sole := by
  rw [lookup_collect (Member.nodup_classesAll_of_parse parsed) inside] at planned
  obtain ⟨-, -, receives⟩ := ClassPlan.receives_of_ofClass planned
  cases receives with
  | constructor _ _ _ _ converted => exact absurd converted byFields
  | fields _ parameters assigns =>
      refine ⟨assigns, fun parameter among => ?_⟩
      obtain ⟨field, isMember, isFor⟩ := parameters parameter among
      have inFile : Node.member (.field field) ∈ Member.walkAll result.1.members :=
        (Member.walkAll_sublist_walkAll _ (Member.mem_classesAll.mp inside)).subset
          (Member.mem_walkAll_of_mem isMember)
      obtain ⟨sole, declares, type_eq, name_eq⟩ :=
        SourceUnit.declares_of_parse parsed inFile isFor.single
      have typed : parameter.type = sole.type.text := isFor.type.trans type_eq
      refine ⟨field, sole, isMember, declares, typed, isFor.name.trans name_eq, ?_, ?_⟩
      · rw [isFor.node, type_eq, name_eq]
        rfl
      · rw [typed, eq_comm]
        exact sole.text_fullType_eq_iff

/-- The planned classes of a source, with their plans. -/
def plannedClasses (source : String) : List (ClassDecl × ClassPlan) :=
  match SourceUnit.parse source none 1 with
  | .ok (unit, next) =>
    let plans := ((collect unit).run ⟨.empty, next⟩).1.plans
    (Member.classesAll unit.members).filterMap fun decl =>
      (plans.lookup decl.id).map fun plan => (decl, plan)
  | .error _ => []

theorem exists_of_mem_plannedClasses
    {source : String}
    {planned : ClassDecl × ClassPlan}
    (inside : planned ∈ plannedClasses source) :
    ∃ result, SourceUnit.parse source none 1 = .ok result ∧
      planned.1 ∈ Member.classesAll result.1.members ∧
      ((collect result.1).run ⟨.empty, result.2⟩).1.plans.lookup planned.1.id = some planned.2 := by
  unfold plannedClasses at inside
  split at inside
  · next unit next parsed =>
      obtain ⟨decl, isClass, found⟩ := List.mem_filterMap.mp inside
      obtain ⟨plan, isPlan, rfl⟩ := Option.map_eq_some_iff.mp found
      exact ⟨(unit, next), parsed, isClass, isPlan⟩
  · cases inside

/--
A parameterized class with two fields, of which the first one has its brackets behind the name.
-/
def bracketsBehindName : String :=
  "@org.junit.runner.RunWith(org.junit.runners.Parameterized.class)\nclass A \x7b\n" ++
    "    @org.junit.runners.Parameterized.Parameter int x[];\n" ++
    "    @org.junit.runners.Parameterized.Parameter(1) java.util.List<String>[] y;\n" ++
    "    @org.junit.runners.Parameterized.Parameters static Object f() \x7b return null; \x7d\n" ++
    "\x7d\n"

theorem exists_plan_of_bracketsBehindName :
    ∃ planned ∈ plannedClasses bracketsBehindName,
      (∃ field ∈ planned.1.members.filterMap Member.field?, field.text = "int x[];") ∧
        planned.2.newInitializer = some ["this.x = x;", "this.y = y;"] ∧
        planned.2.parameters.map (·.node.text) = ["int x", "java.util.List<String>[] y"] := by
  decide +kernel

/-- The new initializer assigns a parameter of type `int` to a field whose type is an array. -/
theorem dimensions_lost :
    ∃ result, SourceUnit.parse bracketsBehindName none 1 = .ok result ∧
      ∃ decl ∈ Member.classesAll result.1.members, ∃ plan,
        ((collect result.1).run ⟨.empty, result.2⟩).1.plans.lookup decl.id = some plan ∧
          (∃ field ∈ decl.members.filterMap Member.field?, field.text = "int x[];") ∧
          plan.newInitializer = some ["this.x = x;", "this.y = y;"] ∧
          plan.parameters.map (·.node.text) = ["int x", "java.util.List<String>[] y"] := by
  obtain ⟨planned, inside, facts⟩ := exists_plan_of_bracketsBehindName
  obtain ⟨result, parsed, isClass, found⟩ := exists_of_mem_plannedClasses inside
  exact ⟨result, parsed, planned.1, isClass, planned.2, found, facts⟩

theorem declared_as_before_name_bracketsBehindName :
    ∃ result, SourceUnit.parse bracketsBehindName none 1 = .ok result ∧
      ∃ decl ∈ Member.classesAll result.1.members, ∃ plan,
        ((collect result.1).run ⟨.empty, result.2⟩).1.plans.lookup decl.id = some plan ∧
          plan.newInitializer ≠ none ∧
          plan.newInitializer = some (plan.parameters.map assignment) ∧
          ∀ parameter ∈ plan.parameters, ∃ field sole, .field field ∈ decl.members ∧
            field.Declares sole ∧ parameter.DeclaredAs sole := by
  obtain ⟨planned, inside, -, assigns, -⟩ := exists_plan_of_bracketsBehindName
  obtain ⟨result, parsed, isClass, found⟩ := exists_of_mem_plannedClasses inside
  have byFields : planned.2.newInitializer ≠ none := by simp [assigns]
  exact ⟨result, parsed, planned.1, isClass, planned.2, found, byFields,
    declared_as_before_name parsed isClass _ found byFields⟩

end Parameterized

end JupiterMigration
