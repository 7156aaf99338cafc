import JupiterMigration.Tree.Edit

/-!
# Facts about a parameterized class

What the members of a class say about its migration: the factory of the arguments, the constructor,
the fields that receive arguments, and whatever speaks against a migration.  Facts are recorded one
after the other.
-/

namespace JupiterMigration

namespace Parameterized

/-- How a class receives its arguments. -/
inductive InjectionMode where
  | constructor
  | field
  | none
  deriving DecidableEq, Repr

/-- The name of a mode. -/
def InjectionMode.name : InjectionMode → String
  | .constructor => "constructor"
  | .field => "field"
  | .none => "none"

/-- The factory of the arguments and the annotation that marks it. -/
structure Factory where
  name : String
  mark : Annotation
  deriving DecidableEq, Repr

/-- A field that receives the argument at a position. -/
structure FieldParameter where
  position : Int
  field : Field
  deriving DecidableEq, Repr

/-- Puts a field at its place among fields that ascend by position. -/
def FieldParameter.insert (parameter : FieldParameter) : List FieldParameter → List FieldParameter
  | [] => [parameter]
  | first :: rest =>
    if parameter.position < first.position then parameter :: first :: rest
    else first :: insert parameter rest

/-- The facts about one class. -/
structure Facts where
  className : String
  factory : Option Factory
  /-- The first constructor. -/
  constructor : Option Method
  constructorCount : Nat
  /-- The fields that receive arguments, ascending by position. -/
  fields : List FieldParameter
  /-- Things that are ignored. -/
  conflicts : List String
  /-- Reasons not to migrate the class. -/
  rejections : List String
  /-- Violations of the pattern. -/
  malformed : List String
  deriving DecidableEq, Repr

namespace Facts

/-- The facts about a class of which nothing is known yet. -/
def empty (className : String) : Facts where
  className := className
  factory := none
  constructor := none
  constructorCount := 0
  fields := []
  conflicts := []
  rejections := []
  malformed := []

/-- The parameters of the constructor. -/
def constructorParameters (facts : Facts) : List Parameter :=
  (facts.constructor.map (·.parameters)).getD []

/-- How the class receives its arguments; constructor parameters count before fields. -/
def mode (facts : Facts) : InjectionMode :=
  if !facts.constructorParameters.isEmpty then .constructor
  else if !facts.fields.isEmpty then .field
  else .none

/-- Records a factory; only the first one counts. -/
def recordFactory (method : Method) (mark : Annotation) (facts : Facts) : Facts :=
  match facts.factory with
  | some first =>
    { facts with conflicts := facts.conflicts ++
        ["ignoring extra @Parameters method '" ++ method.name ++ "', using '" ++ first.name ++
          "'"] }
  | none => { facts with factory := some ⟨method.name, mark⟩ }

/-- Records a constructor, which may call another one. -/
def recordConstructor (method : Method) (delegating : Bool) (facts : Facts) : Facts :=
  let counted := { facts with constructorCount := facts.constructorCount + 1 }
  if 0 < facts.constructorCount then
    { counted with rejections := facts.rejections ++ ["more than one constructor"] }
  else
    let delegation :=
      if delegating then ["constructor delegates via this(...) or super(...)"] else []
    { counted with
      constructor := some method
      rejections := facts.rejections ++ delegation }

/-- Records a field for a position that no other field may have. -/
def recordField (position : Int) (field : Field) (facts : Facts) : Facts :=
  match facts.fields.find? (·.position == position) with
  | some other =>
    { facts with rejections := facts.rejections ++
        ["@Parameter position " ++ toString position ++ " used by both '" ++ other.field.name ++
          "' and '" ++ field.name ++ "'"] }
  | none => { facts with fields := FieldParameter.insert ⟨position, field⟩ facts.fields }

/-- Records a violation of the pattern. -/
def recordMalformed (note : String) (facts : Facts) : Facts :=
  { facts with malformed := facts.malformed ++ [note] }

end Facts

/-- The facts about the classes that are being walked through, by the numbers of the classes. -/
structure FactBoard where
  entries : List (Nat × Facts)
  deriving DecidableEq, Repr

namespace FactBoard

/-- The board without entries. -/
def empty : FactBoard := ⟨[]⟩

/-- How many classes have an entry. -/
def size (board : FactBoard) : Nat :=
  board.entries.length

/-- The facts about a class, if it has an entry. -/
def facts? (head : ClassHead) (board : FactBoard) : Option Facts :=
  board.entries.lookup head.id

/-- The board on which a class has an entry, an empty one if it had none. -/
def publish (head : ClassHead) (board : FactBoard) : FactBoard :=
  match board.facts? head with
  | some _ => board
  | none => ⟨board.entries ++ [(head.id, .empty head.name)]⟩

/-- Changes the facts about a class, which has an entry afterwards. -/
def record (head : ClassHead) (change : Facts → Facts) (board : FactBoard) : FactBoard :=
  ⟨(board.publish head).entries.map fun entry =>
    if entry.1 = head.id then (entry.1, change entry.2) else entry⟩

/-- The board without the entry of a class. -/
def remove (head : ClassHead) (board : FactBoard) : FactBoard :=
  ⟨board.entries.filter fun entry => entry.1 ≠ head.id⟩

end FactBoard

end Parameterized

end JupiterMigration
