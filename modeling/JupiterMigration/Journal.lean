/-!
# The journal of a migration

A journal has two parts.  The trace lists what happened, each event under the phase that was open
when it was recorded; the log holds the messages for whoever watches the run.
-/

namespace JupiterMigration

/-- Something that happens in a migration. -/
inductive Happening where
  | phaseStart (name detail : String)
  | phaseEnd
  /-- A pattern was found on a declaration. -/
  | matched (pattern target recipe : String)
  /-- A node was transformed. -/
  | transformed (node before after : String)
  /-- An import was added or removed. -/
  | importAction (action name : String) (isStatic : Bool)
  | warning (message : String)
  /-- Something was looked at and left as it is. -/
  | inspection (target outcome detail : String)
  deriving DecidableEq, Repr

namespace Happening

/-- The word for static imports in descriptions. -/
def staticWord (isStatic : Bool) : String :=
  if isStatic then "static " else ""

/-- The name of the kind of event. -/
def kindName : Happening → String
  | phaseStart .. => "phase_start"
  | phaseEnd => "phase_end"
  | matched .. => "match_pattern"
  | transformed .. => "ast_mutation"
  | importAction .. => "import_action"
  | warning .. => "analysis_warning"
  | inspection .. => "inspection"

/-- One line about what happened. -/
def description : Happening → String
  | phaseStart name _ => name
  | phaseEnd => "End Phase"
  | matched pattern target _ => "Matched " ++ pattern ++ " on " ++ target
  | transformed node _ _ => "Transformed " ++ node
  | importAction action name isStatic => action ++ " import " ++ staticWord isStatic ++ name
  | warning message => message
  | inspection target _ _ => "Inspecting '" ++ target ++ "'"

/-- The details of what happened, by key. -/
def metadata : Happening → List (String × String)
  | phaseStart _ detail => [("detail", detail)]
  | phaseEnd => []
  | matched pattern target recipe => [("pattern", pattern), ("target", target), ("recipe", recipe)]
  | transformed _ before after => [("before", before), ("after", after)]
  | importAction action name _ => [("action", action), ("name", name)]
  | warning _ => [("level", "warning")]
  | inspection _ outcome detail => [("outcome", outcome), ("detail", detail)]

/-- The warning that this is, if it is one. -/
def warning? : Happening → Option String
  | warning message => some message
  | _ => none

end Happening

/-- An event of a trace. -/
structure TraceEvent where
  happening : Happening
  /-- The position of the phase that it belongs to; for the end of a phase, of its start. -/
  parent : Option Nat
  deriving DecidableEq, Repr

/-- A trace: its events so far, and the positions of the open phases, the innermost first. -/
structure Trace where
  events : List TraceEvent
  openPhases : List Nat
  deriving DecidableEq, Repr

namespace Trace

/-- The trace in which nothing has happened. -/
def empty : Trace := ⟨[], []⟩

/-- Records something under the innermost open phase. -/
def record (happening : Happening) (trace : Trace) : Trace :=
  { trace with events := trace.events ++ [⟨happening, trace.openPhases.head?⟩] }

/-- Opens a phase. -/
def startPhase (name detail : String) (trace : Trace) : Trace :=
  { trace.record (.phaseStart name detail) with
    openPhases := trace.events.length :: trace.openPhases }

/-- Closes the innermost open phase, if there is one. -/
def endPhase (trace : Trace) : Trace :=
  match trace.openPhases with
  | [] => trace
  | _ :: outer => { trace.record .phaseEnd with openPhases := outer }

/-- The warnings recorded so far. -/
def warnings (trace : Trace) : List String :=
  trace.events.filterMap fun event => event.happening.warning?

end Trace

/-- How important a message is. -/
inductive LogLevel where
  | debug
  | info
  | success
  | warning
  | error
  deriving DecidableEq, Repr

namespace LogLevel

/-- The rank of a level among the others. -/
def rank : LogLevel → Nat
  | debug => 10
  | info => 20
  | success => 25
  | warning => 30
  | error => 40

/-- The name of a level. -/
def name : LogLevel → String
  | debug => "DEBUG"
  | info => "INFO"
  | success => "SUCCESS"
  | warning => "WARNING"
  | error => "ERROR"

end LogLevel

/-- A message in the log. -/
structure LogRecord where
  level : LogLevel
  message : String
  deriving DecidableEq, Repr

/-- A trace and a log. -/
structure Journal where
  trace : Trace
  log : List LogRecord
  deriving DecidableEq, Repr

/-- The journal in which nothing has been recorded. -/
def Journal.empty : Journal := ⟨.empty, []⟩

/-- What a running migration carries along: its journal and the next number for a node. -/
structure Session where
  journal : Journal
  nextId : Nat
  deriving DecidableEq, Repr

/-- A step of a migration. -/
abbrev Migration := StateM Session

namespace Migration

/-- Changes the trace. -/
def traced (change : Trace → Trace) : Migration Unit :=
  modify fun session =>
    { session with journal := { session.journal with trace := change session.journal.trace } }

/-- Adds a message to the log. -/
def log (level : LogLevel) (message : String) : Migration Unit :=
  modify fun session =>
    { session with journal := { session.journal with
        log := session.journal.log ++ [⟨level, message⟩] } }

/-- Records something in the trace. -/
def record (happening : Happening) : Migration Unit :=
  traced (Trace.record happening)

/-- Opens a phase in the trace. -/
def startPhase (name detail : String) : Migration Unit :=
  traced (Trace.startPhase name detail)

/-- Closes the innermost phase in the trace. -/
def endPhase : Migration Unit :=
  traced Trace.endPhase

/-- Records a warning in the log and in the trace. -/
def warn (message : String) : Migration Unit := do
  log .warning message
  record (.warning message)

/-- Records that a candidate is left as it is. -/
def skip (target reason : String) : Migration Unit := do
  log .debug ("Leaving " ++ target ++ " untouched: " ++ reason)
  record (.inspection target "unchanged" reason)

/-- Runs a computation that deals out numbers from those not yet used. -/
def number {α : Type} (numbering : StateM Nat α) : Migration α :=
  modifyGet fun session =>
    let result := numbering.run session.nextId
    (result.1, { session with nextId := result.2 })

/-- The warnings recorded so far. -/
def warnings : Migration (List String) :=
  return (← get).journal.trace.warnings

end Migration

end JupiterMigration
