import Irrigation.Device
import Irrigation.Event
import Irrigation.Line

/-!
# Status

A snapshot of the watering system for the operator. `Status.text` is what the status command
prints.
-/

namespace Irrigation

/-- The part of a snapshot about one device. -/
structure DeviceStatus where
  role : Role
  enabled : Bool
  /-- The offset, shown only for a device that is enabled and holds a line. -/
  pin : Option Offset
  polarity : Polarity
  /-- The output's own description, if the device holds a line. -/
  line : Option String
  deriving DecidableEq, Repr

/-- A text with blanks behind it, at least `width` characters. -/
def padRight (width : Nat) (s : String) : String :=
  s ++ String.ofList (List.replicate (width - s.length) ' ')

/-- The device's lines in a status. -/
def DeviceStatus.text (d : DeviceStatus) : String :=
  let label := padRight 12 d.role.label
  if d.enabled then
    match d.pin, d.line with
    | some pin, some line => s!"{label} enabled, line {pin} ({d.polarity.label})\n    {line}"
    | some pin, none => s!"{label} enabled, line {pin} ({d.polarity.label})"
    | none, _ => s!"{label} enabled, no line"
  else s!"{label} disabled"

/-- A snapshot; the durations are whole milliseconds. -/
structure Status where
  state : CycleState
  running : Bool
  cycles : Nat
  devices : Each DeviceStatus
  activation : Nat
  deactivation : Nat
  separation : Nat
  deriving DecidableEq, Repr

/-- What the operator reads. -/
def Status.text (s : Status) : String :=
  let job := if s.running then "running" else "stopped"
  "\n".intercalate
    ["Automatic watering system",
      s!"  state        {s.state.name} ({job})",
      s!"  cycles       {s.cycles}",
      s!"  {s.devices.valve.text}",
      s!"  {s.devices.pump.text}",
      s!"  activation   {s.activation} ms",
      s!"  deactivation {s.deactivation} ms",
      s!"  separation   {s.separation} ms"]

end Irrigation
