import JupiterMigration.Tree.Basic

/-!
# Which types a written name may denote

A file names types by simple names, by qualified names, and by names that are nested in an imported
type.  `TypeScope.candidates` lists the qualified names that a written name may stand for: an import
of a single type settles its simple name; otherwise the name may be qualified already, belong to a
package that is imported on demand, or belong to the package of the file.
-/

namespace JupiterMigration

namespace Text

/-- The text before its first dot, or all of it. -/
def beforeFirstDot (text : String) : String :=
  String.ofList (text.toList.takeWhile (· != '.'))

/-- The text after its first dot, or nothing when it has none. -/
def afterFirstDot (text : String) : String :=
  String.ofList ((text.toList.dropWhile (· != '.')).drop 1)

end Text

/-- A name with another one nested in it, unless that one is empty. -/
def nestedName (outer inner : String) : String :=
  if inner.isEmpty then outer else outer ++ "." ++ inner

namespace Import

/-- The simple name of what is imported. -/
def simpleName (decl : Import) : String :=
  Text.afterLastDot decl.name

end Import

/-- What decides about the meaning of type names in a file. -/
structure TypeScope where
  /-- The qualified names of the types imported one by one, in order. -/
  singles : List String
  /-- The packages and types imported on demand, in order. -/
  onDemand : List String
  /-- The package of the file, unless it is the unnamed one. -/
  package : Option String
  deriving DecidableEq, Repr

namespace TypeScope

/-- The scope that imports and a package make; static imports play no part in it. -/
def ofImports (imports : List Import) (package : Option String) : TypeScope where
  singles := (imports.filter fun decl => !decl.isStatic && !decl.isWildcard).map (·.name)
  onDemand := (imports.filter fun decl => !decl.isStatic && decl.isWildcard).map (·.name)
  package := package.filter (!·.isEmpty)

/-- The scope of a file. -/
def ofUnit (unit : SourceUnit) : TypeScope :=
  ofImports unit.imports unit.package?

/-- The imported type of a simple name; the last import of the name counts. -/
def single? (scope : TypeScope) (simpleName : String) : Option String :=
  scope.singles.reverse.find? fun name => Text.afterLastDot name == simpleName

/-- The qualified names that a name may stand for when no import settles it. -/
def openCandidates (scope : TypeScope) (name : String) : List String :=
  let isDotted := !(Text.afterFirstDot name).isEmpty
  let inPackage (package : String) : String := package ++ "." ++ name
  (if isDotted then [name] else []) ++ scope.onDemand.map inPackage ++
    (match scope.package with
      | some package => [inPackage package]
      | none => if isDotted then [] else [name])

/-- The qualified names that a written name may stand for, the likeliest first. -/
def candidates (scope : TypeScope) (name : String) : List String :=
  match scope.single? (Text.beforeFirstDot name) with
  | some qualified => [nestedName qualified (Text.afterFirstDot name)]
  | none => scope.openCandidates name

/-- Whether a written name may stand for a qualified one. -/
def mayDenote (scope : TypeScope) (name qualified : String) : Bool :=
  (scope.candidates name).contains qualified

end TypeScope

end JupiterMigration
