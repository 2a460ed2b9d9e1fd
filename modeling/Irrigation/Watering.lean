import Irrigation.Status
import Irrigation.Worker

/-!
# The watering system

`Watering` is the whole state: the chip in use, the controller, the durations, the enabled flags,
the state of the job and its worker. This file holds what both the caller and the worker do
with it.
-/

namespace Irrigation

/-- The state of the watering system. -/
structure Watering where
  rig : Rig
  hardware : Controller
  timing : Timing
  enabled : Each Bool := Each.both true
  state : CycleState := .disabled
  /-- True from a start until the worker has ended. -/
  running : Bool := false
  /-- Cycles completed by the job. The program has 64 bits for them and would begin at 0 again
  behind the last number; no job gets there, since a run of fewer than `2 ^ 64` moves keeps the
  count below that (`World.counts_fit`). -/
  cycles : Nat := 0
  /-- The worker of the last start, until it is joined. -/
  run : Option Worker := none
  deriving DecidableEq, Repr

namespace Watering

instance : Journaling Watering := ⟨fun s e => { s with rig := record s.rig e }⟩

/-- A message of the system, for the log and the operator. -/
def report (level : Level) (message : String) (s : Watering) : Watering :=
  Irrigation.report "Watering" level message s

/-- Enables or disables a device. -/
def enable (r : Role) (on : Bool) (s : Watering) : Watering :=
  let word := if on then "enabled" else "disabled"
  log .info s!"Watering: {r.label} {word}" { s with enabled := s.enabled.set r on }

/-- Sets one duration. -/
def setDuration (i : Interval) (ms : UInt64) (s : Watering) : Watering :=
  { s with timing := s.timing.set i ms }

/-- Wires a system: opens the chip, requests both lines, and takes over flags and durations.
Where the lines cannot be had, the chip is left as the attempt left it. -/
def wire (rig : Rig) (pins : Each Pin) (timing : Timing) (enabled : Each Bool) :
    Except (LineError × Rig) Watering :=
  match Controller.wire pins rig with
  | (.error e, rig) => .error (e, rig)
  | (.ok hardware, rig) =>
    let s : Watering := { rig, hardware, timing }
    .ok ((s.enable .valve enabled.valve).enable .pump enabled.pump)

/-- The snapshot for the operator. -/
def status (s : Watering) : Status :=
  let device (r : Role) : DeviceStatus :=
    let slot := s.hardware.slot r
    let enabled := s.enabled.get r
    { role := r
      enabled
      pin := if enabled && slot.isBound then some slot.offset else none
      polarity := slot.polarity
      line := slot.output.map Output.statusLine }
  { state := s.state
    running := s.running
    cycles := s.cycles
    devices := ⟨device .valve, device .pump⟩
    activation := s.timing.activation.toNat
    deactivation := s.timing.deactivation.toNat
    separation := s.timing.separation.toNat }

/-- Lets the caller or the worker act. -/
def actAs (a : Actor) (s : Watering) : Watering := { s with rig := { s.rig with actor := a } }

end Watering

end Irrigation
