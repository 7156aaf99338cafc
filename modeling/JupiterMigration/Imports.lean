import JupiterMigration.Journal
import JupiterMigration.Tree.Edit
import JupiterMigration.Tree.Numbering
import JupiterMigration.Tree.Usage

/-!
# Import maintenance

Adding and removing import declarations while keeping the layout.

A new import goes into its group, static or not, at its place in the order of names.  A static group
that is missing is started after the last import, a missing group of other imports before the first
one, and a blank line separates groups.  Where there is no import at all, the new one follows the
package declaration or opens the file.

An import on demand covers every name of its package and is only removed when none of the given
types of the package is used.
-/

namespace JupiterMigration

namespace Import

/-- Whether an import already provides a name. -/
def covers (name : String) (isStatic : Bool) (decl : Import) : Bool :=
  decl.isStatic == isStatic &&
    (if decl.isWildcard then decl.name == Text.beforeLastDot name else decl.name == name)

/-- The declaration that imports a name, with a number of its own. -/
def declare (id : Nat) (name : String) (isStatic : Bool) (lead : String) : Import where
  id := id
  lead := lead
  text := "import " ++ Happening.staticWord isStatic ++ name ++ ";"
  name := name
  isStatic := isStatic
  isWildcard := false

end Import

namespace Member

/-- Whether the declaration is an import of the given group, static or not. -/
def isImportOf (isStatic : Bool) (member : Member) : Bool :=
  member.import?.any (·.isStatic == isStatic)

/-- Whether the declaration is an import of the group whose name comes after the given one. -/
def isImportAfter (name : String) (isStatic : Bool) (member : Member) : Bool :=
  member.import?.any fun decl => decl.isStatic == isStatic && decide (name < decl.name)

/-- Whether the declaration is kept verbatim and begins like a package declaration. -/
def isPackage (member : Member) : Bool :=
  (SourceUnit.packageOf member).isSome

end Member

namespace Imports

/-- Inserts a declaration before a position and gives the declaration there another lead. -/
def insertBefore (position : Nat) (decl : String → Member) (nextLead : String)
    (members : List Member) : List Member :=
  match members.drop position with
  | next :: rest => members.take position ++ decl next.lead :: next.withLead nextLead :: rest
  | [] => members ++ [decl ""]

/-- Inserts a declaration after a position. -/
def insertAfter (position : Nat) (decl : Member) (members : List Member) : List Member :=
  members.take (position + 1) ++ decl :: members.drop (position + 1)

/-- The position of the last declaration that satisfies a test. -/
def lastIdx? (p : Member → Bool) (members : List Member) : Option Nat :=
  (members.reverse.findIdx? p).map fun index => members.length - 1 - index

/-- Inserts an import of a name at its place, with a number of its own. -/
def insert (id : Nat) (name : String) (isStatic : Bool) (members : List Member) : List Member :=
  let decl (lead : String) : Member := .importDecl (Import.declare id name isStatic lead)
  match lastIdx? (Member.isImportOf isStatic) members, members.findIdx? Member.isImport,
      lastIdx? Member.isImport members with
  | some last, _, _ =>
    match members.findIdx? (Member.isImportAfter name isStatic) with
    | some next => insertBefore next decl "\n" members
    | none => insertAfter last (decl "\n") members
  | none, some first, some last =>
    if isStatic then insertAfter last (decl "\n\n") members
    else insertBefore first decl "\n\n" members
  | none, _, _ =>
    match members.findIdx? Member.isPackage with
    | some package => insertAfter package (decl "\n\n") members
    | none => insertBefore 0 decl "\n\n" members

/-- Whether some import already provides a name. -/
def isCovered (name : String) (isStatic : Bool) (unit : SourceUnit) : Bool :=
  unit.imports.any (Import.covers name isStatic)

/-- The position of the import of exactly one name. -/
def single? (name : String) (isStatic : Bool) (unit : SourceUnit) : Option Nat :=
  unit.members.findIdx? fun member =>
    member.import?.any fun decl =>
      !decl.isWildcard && decl.isStatic == isStatic && decl.name == name

/-- The position of the import of a package on demand. -/
def wildcard? (package : String) (unit : SourceUnit) : Option Nat :=
  unit.members.findIdx? fun member =>
    member.import?.any fun decl => decl.isWildcard && !decl.isStatic && decl.name == package

/-- Records that an import was added or removed. -/
def note (action name : String) (isStatic : Bool) : Migration Unit := do
  Migration.log .debug ("Import " ++ action ++ ": " ++ Happening.staticWord isStatic ++ name)
  Migration.record (.importAction action name isStatic)

/-- Records that an import is kept because something is still used. -/
def keep (target reason : String) : Migration Unit := do
  Migration.log .debug ("Keeping import " ++ target ++ ": " ++ reason ++ "still referenced")
  Migration.record (.inspection target "kept" "still referenced")

/-- Adds an import of a name unless it is covered; nothing if the file is left as it is. -/
def ensure (name : String) (isStatic : Bool) (unit : SourceUnit) :
    Migration (Option SourceUnit) := do
  if isCovered name isStatic unit then return none
  let members := insert (← Migration.number fresh) name isStatic unit.members
  note "add" name isStatic
  return some { unit with members }

/-- Removes the import of a name if its simple name is not used. -/
def removeIfUnused (name : String) (isStatic : Bool) (unit : SourceUnit) :
    Migration (Option SourceUnit) := do
  match single? name isStatic unit with
  | none => return none
  | some position =>
    if unit.namesUsed.contains (Text.afterLastDot name) then
      keep name ""
      return none
    note "remove" name isStatic
    return some { unit with members := Member.removeAt position unit.members }

/-- Removes the import of a package on demand if none of the given types is used. -/
def removeWildcardIfUnused (package : String) (types : List String) (unit : SourceUnit) :
    Migration (Option SourceUnit) := do
  match wildcard? package unit with
  | none => return none
  | some position =>
    let used := unit.namesUsed.filter types.contains
    if used.isEmpty then
      note "remove" (package ++ ".*") false
      return some { unit with members := Member.removeAt position unit.members }
    keep (package ++ ".*") (", ".intercalate used ++ " ")
    return none

/-- A change to the imports of a file. -/
inductive Change where
  | ensure (name : String) (isStatic : Bool)
  | removeIfUnused (name : String) (isStatic : Bool)
  | removeWildcardIfUnused (package : String) (types : List String)
  deriving DecidableEq, Repr

/-- Makes a change; nothing if the file is left as it is. -/
def Change.make (unit : SourceUnit) : Change → Migration (Option SourceUnit)
  | ensure name isStatic => Imports.ensure name isStatic unit
  | removeIfUnused name isStatic => Imports.removeIfUnused name isStatic unit
  | removeWildcardIfUnused package types => Imports.removeWildcardIfUnused package types unit

/-- Makes changes one after the other. -/
def makeAll (changes : List Change) (unit : SourceUnit) : Migration SourceUnit :=
  changes.foldlM (fun unit change => return (← change.make unit).getD unit) unit

end Imports

end JupiterMigration
