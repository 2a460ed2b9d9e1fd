import Irrigation.Event
import Irrigation.Line

/-!
# Journals

Every part of the controller writes what it does into a journal, in the order in which it
happens: log records, events for the operator, calls on outputs, durations read, waits that
ended. A journal is the whole visible behaviour of a run. `Effect` is one entry, `Journaling`
the class of states that take entries, and `log`, `notify` and `report` write the common ones.
-/

namespace Irrigation

/-- One entry of a journal. -/
inductive Effect
  /-- A record of the diagnostic log. -/
  | log (level : Level) (text : String)
  /-- An event for the operator. -/
  | emitted (event : Event)
  /-- An output is switched on or off. -/
  | driven (offset : Offset) (on : Bool)
  /-- A duration is read. -/
  | read (which : Interval) (ms : UInt64)
  /-- A wait of this length ended; `full` says that no stop cut it short. -/
  | waited (which : Interval) (ms : UInt64) (full : Bool)
  /-- Text for the operator that is no event. -/
  | printed (text : String)
  /-- Text about a misused command, for the error stream. -/
  | complained (text : String)
  deriving DecidableEq, Repr

/-- States that keep a journal. -/
class Journaling (σ : Type) where
  /-- Appends an entry. -/
  record : σ → Effect → σ

export Journaling (record)

variable {σ : Type} [Journaling σ]

/-- Writes a log record. -/
def log (level : Level) (text : String) (s : σ) : σ := record s (.log level text)

/-- Tells the operator about an event. -/
def notify (event : Event) (s : σ) : σ := record s (.emitted event)

/-- A message of one subsystem: a log record under its name, then a notice. -/
def report (subsystem : String) (level : Level) (message : String) (s : σ) : σ :=
  notify (.notice level message) (log level (subsystem ++ ": " ++ message) s)

/-- The plainest journal is the list of its entries. -/
instance : Journaling (List Effect) := ⟨fun entries e => entries ++ [e]⟩

end Irrigation
