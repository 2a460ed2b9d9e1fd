import Irrigation.Job

/-!
# Starting, stopping and changing jobs

What the caller does with the system: `start` and `stop` a job, move lines, and replace the
controller or the durations while a job runs. A stop waits until the worker has ended; a worker
that died is noticed then, and the outputs are forced off.
-/

namespace Irrigation

/-- Who asks for a stop. -/
inductive StopOrigin
  | shutdown
  | emergencyAbort
  | teardown
  deriving DecidableEq, Repr

namespace StopOrigin

/-- The name of a stop in messages. -/
def label : StopOrigin → String
  | .shutdown => "shutdown"
  | .emergencyAbort => "emergency abort"
  | .teardown => "teardown"

/-- Whether a stop without a job is worth a message. -/
def reportsIdle : StopOrigin → Bool
  | .teardown => false
  | _ => true

end StopOrigin

namespace Watering

/-! ## Stopping -/

/-- Switches all outputs off after a worker died, and ends its job. -/
def forceOff (s : Watering) : Watering :=
  let (_, c, rig) := s.hardware.switch .valve false s.rig
  let (_, c, rig) := c.switch .pump false rig
  { s with rig, hardware := c, state := .disabled, running := false }

/-- Takes leave of a worker that is over. -/
def join (s : Watering) : Watering :=
  match s.point? with
  | some .crashed =>
    (({ s with run := none }.report .error
      "watering worker panicked, forcing outputs off")).forceOff
  | _ => { s with run := none }

/-- Raises the stop signal of the worker. -/
def raiseStop (s : Watering) : Watering :=
  { s with run := s.run.map fun w => { w with stop := w.stop.request } }

/-- Whether a stop finds a job to end. -/
def hasJob (s : Watering) : Bool := s.running && s.run.isSome

/-- Says that a stop of the job was asked for. -/
def announceStop (origin : StopOrigin) (s : Watering) : Watering :=
  log .info s!"Watering: {origin.label} requested, waiting for the worker" s

/-- Takes leave of a stopped worker that is over. -/
def concludeStop (origin : StopOrigin) (s : Watering) : Watering :=
  log .info s!"Watering: {origin.label} complete" { s.join with cycles := 0 }

/-- What a stop does without a job. -/
def declineStop (origin : StopOrigin) (s : Watering) : Watering :=
  let s := s.join
  if origin.reportsIdle then
    s.report .warn s!"{origin.label} ignored, watering job is not running"
  else s

/-- Stops the running job and waits until it is over. Without a job only a message results. -/
def stop (origin : StopOrigin) (s : Watering) : Watering :=
  if s.hasJob then ((s.announceStop origin).raiseStop.runFreely).concludeStop origin
  else s.declineStop origin

/-! ## Starting -/

/-- Why a job is not started. -/
def refusal? (flow : Option String) (s : Watering) : Option String :=
  match flow.filter (· != cycledFlow) with
  | some name => some s!"unknown watering flow '{name}', only '{cycledFlow}' is supported"
  | none =>
    if s.running then some "watering job is already running"
    else if !s.enabled.any then some "no device enabled, watering job not started"
    else none

/-- Starts a job with a new worker, unless there is a reason not to. -/
def start (flow : Option String) (s : Watering) : Bool × Watering :=
  match s.refusal? flow with
  | some reason => (false, s.report .warn reason)
  | none =>
    let s := s.join
    let s := notify .started { s with cycles := 0, running := true }
    let s := log .info s!"Watering: job started (flow '{cycledFlow}')" { s with run := some {} }
    (true, s)

/-! ## Lines -/

/-- Moves both roles in one step; `none` keeps a role where it is. -/
def rebind (wanted : Each (Option Offset)) (s : Watering) : Except LineError Unit × Watering :=
  let s := s.awaitLines
  let (result, hardware, rig) := s.hardware.rebind wanted s.rig
  (result, { s with hardware, rig })

/-- Moves one role. -/
def move (r : Role) (offset : Offset) (s : Watering) : Except LineError Unit × Watering :=
  s.rebind ((Each.both none).set r (some offset))

/-- Switches the output bound to a role. `false` if there is none. -/
def switchOutput (r : Role) (on : Bool) (s : Watering) : Bool × Watering :=
  let s := s.awaitLines
  let (called, hardware, rig) := s.hardware.switch r on s.rig
  (called, { s with hardware, rig })

/-! ## Replacing collaborators -/

/-- Whether the worker's iteration uses the current controller. -/
def hardwareInUse (s : Watering) : Bool :=
  match s.run with
  | some w => w.point.holdsHardware && w.hardware.isNone
  | none => false

/-- Whether the worker's iteration uses the current durations. -/
def timingInUse (s : Watering) : Bool :=
  match s.run with
  | some w => w.point.holdsTiming && w.timing.isNone
  | none => false

/-- Replaces the controller. The old one gives up its lines at once, or when the iteration that
uses it is over. -/
def replaceHardware (c : Controller) (s : Watering) : Watering :=
  let s :=
    if s.hardwareInUse then
      { s with
        run := s.run.map fun w => { w with hardware := some s.hardware }
        hardware := c }
    else
      let s := s.awaitLines
      { s with rig := (s.hardware.release s.rig).2, hardware := c }
  log .info "Watering: hardware controller replaced" s

/-- Replaces the durations. An iteration under way keeps the old ones. -/
def replaceTiming (t : Timing) (s : Watering) : Watering :=
  let s := if s.timingInUse then
    { s with run := s.run.map fun w => { w with timing := some s.timing } } else s
  log .info "Watering: time provider replaced" { s with timing := t }

/-- Wires a new controller on the chip in use and replaces the old one by it. -/
def rewire (pins : Each Pin) (s : Watering) : Except LineError Unit × Watering :=
  match Controller.wire pins s.rig with
  | (.error e, rig) => (.error e, { s with rig })
  | (.ok c, rig) => (.ok (), { s with rig }.replaceHardware c)

/-! ## The end -/

/-- Ends the system: a running job is stopped, and the lines are given up. -/
def retire (s : Watering) : Watering :=
  let s := s.stop .teardown
  let (hardware, rig) := s.hardware.release s.rig
  { s with hardware, rig }

end Watering

end Irrigation
