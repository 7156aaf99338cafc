import JupiterMigration.Tree.Node

/-!
# Which names a tree uses

The names used below a node are the union of the names that the nodes of its walk mention.  Import
declarations mention none, so that the names used in a file are those used outside its imports.
-/

namespace JupiterMigration

namespace Node

/-- The names used by a node and everything below it. -/
def namesUsed (node : Node) : Names :=
  Names.unionAll (node.walk.map references)

end Node

namespace Member

/-- The names used by a declaration and everything below it. -/
def namesUsed (member : Member) : Names :=
  (Node.member member).namesUsed

/-- The names used by some declarations. -/
def namesUsedByAll (members : List Member) : Names :=
  Names.unionAll (members.map namesUsed)

/-- Whether the declaration is an import. -/
def isImport (member : Member) : Bool :=
  member.import?.isSome

end Member

namespace SourceUnit

/-- The names used outside the import declarations of a file. -/
def namesUsed (unit : SourceUnit) : Names :=
  Member.namesUsedByAll (unit.members.filter (!·.isImport))

/-- The names used outside the import declarations and without the member at a position. -/
def namesUsedWithout (position : Nat) (unit : SourceUnit) : Names :=
  Member.namesUsedByAll ((unit.members.eraseIdx position).filter (!·.isImport))

/-- Whether an import names a type or a member nested in it. -/
def imports? (type : String) (decl : Import) : Bool :=
  decl.name == type || Text.beginsWith decl.name (type ++ ".")

/-- Whether a node spells a type out: in an annotation, or at the beginning of a field's type. -/
def spells (type : String) : Node → Bool
  | .annotationUse use => Text.contains use.text type
  | .member (.field decl) => Text.beginsWith decl.type type
  | _ => false

/--
Whether a file uses a type: it imports the type or a member nested in it, or it imports the package
on demand and uses the simple name, or it spells the type out.
-/
def usesType (type : String) (unit : SourceUnit) : Bool :=
  let package := Text.beforeLastDot type
  unit.imports.any (imports? type) ||
    (unit.imports.any (fun decl => decl.isWildcard && !decl.isStatic && decl.name == package) &&
      unit.namesUsed.contains (Text.afterLastDot type)) ||
    unit.walk.any (spells type)

end SourceUnit

end JupiterMigration
