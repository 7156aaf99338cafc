/-!
# Settings

A setting is a value of a kind that is not known in advance: it comes from a configuration file or
from a caller.
-/

namespace JupiterMigration

/-- What a moment tells. -/
inductive MomentKind where
  | dateAndTime
  | date
  | time
  deriving DecidableEq, Repr

/-- A value that something is set to. -/
inductive Setting where
  | null
  | boolean (value : Bool)
  | integer (value : Int)
  /-- A number with a decimal point: the numerator divided by ten to the scale. -/
  | decimal (numerator : Int) (scale : Nat)
  /-- An infinity, or what is not a number. -/
  | notFinite
  | text (value : String)
  | list (items : List Setting)
  | table (entries : List (String × Setting))
  | moment (kind : MomentKind)
  deriving Inhabited

namespace Setting

/-- The name of the kind of a setting in messages. -/
def kindName : Setting → String
  | null => "NoneType"
  | boolean _ => "bool"
  | integer _ => "int"
  | decimal _ _ => "float"
  | notFinite => "float"
  | text _ => "str"
  | list _ => "list"
  | table _ => "dict"
  | moment .dateAndTime => "datetime.datetime"
  | moment .date => "datetime.date"
  | moment .time => "datetime.time"

/-- The text that a setting is, if it is one. -/
def text? : Setting → Option String
  | text value => some value
  | _ => none

/-- Sets an entry of a table: in its place if the table has it, else at the end. -/
def setEntry (key : String) (value : Setting) :
    List (String × Setting) → List (String × Setting)
  | [] => [(key, value)]
  | entry :: rest =>
    if entry.1 = key then (key, value) :: rest else entry :: setEntry key value rest

end Setting

end JupiterMigration
