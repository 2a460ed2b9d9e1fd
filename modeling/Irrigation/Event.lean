import Irrigation.Time

/-!
# Events

What the operator is told. A job moves between four states (`CycleState`), and every move, the
begin and the end of a job, every completed cycle and every notice is an `Event`.
`Event.render` is the line that the operator reads.
-/

namespace Irrigation

/-- The states of a watering job. -/
inductive CycleState
  | disabled
  | idling
  | irrigating
  | tearingDown
  deriving DecidableEq, Repr

namespace CycleState

/-- The name of a state. -/
def name : CycleState → String
  | .disabled => "Disabled"
  | .idling => "Idling"
  | .irrigating => "Irrigating"
  | .tearingDown => "TearingDown"

/-- All states, in the order of their numbers. -/
def all : List CycleState := [.disabled, .idling, .irrigating, .tearingDown]

/-- The state with a given number; `disabled` for a number that no state has. -/
def ofIndex (n : Nat) : CycleState := all.getD n .disabled

end CycleState

/-- Importance of a log record or notice. -/
inductive Level
  | error
  | warn
  | info
  | debug
  | trace
  deriving DecidableEq, Repr

namespace Level

/-- The word that a log record starts with. -/
def word : Level → String
  | .error => "ERROR"
  | .warn => "WARN"
  | .info => "INFO"
  | .debug => "DEBUG"
  | .trace => "TRACE"

/-- The tag of a notice, five characters wide; all that is not a problem is information. -/
def tag : Level → String
  | .error => "ERROR"
  | .warn => "WARN "
  | _ => "INFO "

/-- Rank by verbosity: a filter lets through what is not above its own rank. -/
def rank : Level → Nat
  | .error => 1
  | .warn => 2
  | .info => 3
  | .debug => 4
  | .trace => 5

end Level

/-- The one watering flow that a controller can run. -/
def cycledFlow : String := "cycled"

/-- What happened to a job, for the operator. -/
inductive Event
  /-- A job started. -/
  | started
  /-- The job moved from one state to another. -/
  | stateChanged (before after : CycleState)
  /-- The job completed its `n`-th cycle. Like the count of the job (`Watering.cycles`) this is a
  number that fits in 64 bits. -/
  | cycleCompleted (n : Nat)
  /-- The job ended, after this many cycles; they fit in 64 bits too. -/
  | stopped (cycles : Nat)
  /-- A message about something that needs no state of its own. -/
  | notice (level : Level) (message : String)
  deriving DecidableEq, Repr

/-- The line that the operator reads for an event. -/
def Event.render : Event → String
  | .started => s!"START | watering job started (flow '{cycledFlow}')"
  | .stateChanged before after => s!"STATE | {before.name} -> {after.name}"
  | .cycleCompleted n => s!"CYCLE | {n} completed"
  | .stopped cycles => s!"STOP  | watering job ended after {cycles} cycle(s)"
  | .notice level message => s!"{level.tag} | {message}"

end Irrigation
