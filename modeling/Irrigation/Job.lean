import Irrigation.Watering

/-!
# The work of a job

`Watering.step` takes the worker from one point of its work to the next. An iteration reads the
flags, switches the enabled devices on, the valve first, waits, reads the flags again, switches
off what was disabled meanwhile, then the rest, the valve first and the pump after a gap, and
waits again. A stop ends the job after the devices are off.

`Watering.advance` runs the worker to its next `Pause`, where it is about to read a duration or has
just told an event, and `Watering.runFreely` runs it to its end once a stop is pending.
-/

namespace Irrigation

namespace Watering

/-! ## What the worker sees -/

/-- Moves the worker to a point. -/
def goto (p : Point) (s : Watering) : Watering :=
  { s with run := s.run.map fun w => { w with point := p } }

/-- Whether a stop is pending for the worker. -/
def stopPending (s : Watering) : Bool := (s.run.map fun w => w.stop.raised).getD false

/-- The controller that the iteration uses. -/
def iterationHardware (s : Watering) : Controller :=
  (s.run.bind fun w => w.hardware).getD s.hardware

/-- Replaces the iteration's controller by one in another state. -/
def setIterationHardware (c : Controller) (s : Watering) : Watering :=
  match s.run.bind fun w => w.hardware with
  | some _ => { s with run := s.run.map fun w => { w with hardware := some c } }
  | none => { s with hardware := c }

/-- The durations that the iteration uses. -/
def iterationTiming (s : Watering) : Timing := (s.run.bind fun w => w.timing).getD s.timing

/-- Reads one of the iteration's durations. -/
def readDuration (i : Interval) (s : Watering) : UInt64 × Watering :=
  let ms := s.iterationTiming.get i
  (ms, record s (.read i ms))

/-! ## What the worker does -/

/-- Moves the job to a state, and tells it if it was in another. -/
def transition (next : CycleState) (s : Watering) : Watering :=
  if s.state = next then s
  else
    notify (.stateChanged s.state next)
      (log .debug s!"Watering: {s.state.name} -> {next.name}" { s with state := next })

/-- Switches a device of the iteration. A role without a line is skipped, and that is said. -/
def switchDevice (r : Role) (on : Bool) (s : Watering) : Watering :=
  match s.iterationHardware.switch r on s.rig with
  | (true, c, rig) => { s with rig }.setIterationHardware c
  | (false, _, _) => s.report .warn s!"{r.label} has no bound line, skipped"

/-- Gives up one line of a replaced controller. -/
def letGoOf (r : Role) (s : Watering) : Watering :=
  let (c, rig) := s.iterationHardware.unbind r s.rig
  { s with rig }.setIterationHardware c

/-- Forgets what of the iteration has been replaced. -/
def endIteration (s : Watering) : Watering :=
  { s with run := s.run.map fun w => { w with hardware := none, timing := none } }

/-- The line on which the worker dies if it switches the device on now. -/
def deadlyLine? (r : Role) (s : Watering) : Option Offset :=
  match (s.iterationHardware.slot r).output with
  | some o => if s.rig.faults.deadlyLine = some o.offset then some o.offset else none
  | none => none

/-- The worker dies where it is. A replaced controller that only it still held is given up,
unless it died while giving it up. -/
def die (s : Watering) : Watering :=
  let replaced := s.run.bind fun w => w.hardware
  let givingUp := match s.run.map fun w => w.point with
    | some (.lettingGoPump _) => true
    | _ => false
  let s := match replaced, givingUp with
    | some c, false => { s with rig := (c.release s.rig).2 }
    | _, _ => s
  (s.endIteration).goto .crashed

/-- Switches a device on and goes on, or dies of it. -/
def switchOn (r : Role) (next : Point) (s : Watering) : Watering :=
  match s.deadlyLine? r with
  | some offset => (record s (.driven offset true)).die
  | none => (s.switchDevice r true).goto next

/-! ## Steps -/

/-- The point after the devices disabled meanwhile have been looked at up to a role. -/
def afterRecheck (on now : Each Bool) : Role → Point
  | .valve => .switchingOff on now .pump
  | .pump => .deciding on now

/-- The point after an iteration. -/
def afterIteration (again : Bool) : Point := if again then .loopHead else .enteringTearDown

/-- What the worker does at a point. -/
def act (s : Watering) : Point → Watering
  | .starting => (log .info "Watering: worker started" s).goto .loopHead
  | .loopHead => s.goto (if s.stopPending then .enteringTearDown else .takingHardware)
  | .takingHardware => s.goto .takingTiming
  | .takingTiming => s.goto .readingValve
  | .readingValve => s.goto (.readingPump s.enabled.valve)
  | .readingPump valve => s.goto (.readingActivation ⟨valve, s.enabled.pump⟩)
  | .readingActivation on =>
    let (ms, s) := s.readDuration .activation
    s.goto (.enteringIrrigation on ms)
  | .enteringIrrigation on ms => (s.transition .irrigating).goto (.openingValve on ms)
  | .openingValve on ms =>
    if on.valve then s.switchOn .valve (.startingPump on ms) else s.goto (.startingPump on ms)
  | .startingPump on ms =>
    if on.pump then s.switchOn .pump (.irrigating on ms) else s.goto (.irrigating on ms)
  | .irrigating on ms =>
    let stopped := s.stopPending
    (record s (.waited .activation ms !stopped)).goto (.enteringIdle on stopped)
  | .enteringIdle on stopped =>
    (s.transition .idling).goto (if stopped then .closingValve on none else .recheckingValve on)
  | .recheckingValve on => s.goto (.recheckingPump on s.enabled.valve)
  | .recheckingPump on valve => s.goto (.switchingOff on ⟨valve, s.enabled.pump⟩ .valve)
  | .switchingOff on now r =>
    if on.get r && !now.get r then (s.switchDevice r false).goto (.reportingOff on now r)
    else s.goto (afterRecheck on now r)
  | .reportingOff on now r =>
    (s.report .info s!"{r.label} disabled during the cycle, switched off").goto
      (afterRecheck on now r)
  | .deciding on now =>
    if now.any then s.goto (.readingDeactivation (on.meet now))
    else (s.report .info "both devices disabled, watering job ends").goto (.lettingGo false)
  | .readingDeactivation on =>
    let (ms, s) := s.readDuration .deactivation
    s.goto (.closingValve on (some ms))
  | .closingValve on rest =>
    (if on.valve then s.switchDevice .valve false else s).goto (.choosingGap on rest)
  | .choosingGap on rest =>
    s.goto (if on.all then .readingSeparation rest else .stoppingPump on.pump rest)
  | .readingSeparation rest =>
    let (ms, s) := s.readDuration .separation
    s.goto (.openingGap ms rest)
  | .openingGap ms rest =>
    s.goto (if s.stopPending then .sleepingGap ms rest else .waitingGap ms rest)
  | .sleepingGap ms rest => (record s (.waited .separation ms true)).goto (.stoppingPump true rest)
  | .waitingGap ms rest =>
    let stopped := s.stopPending
    let s := if stopped then
      log .debug "Watering: valve/pump separation cut short by stop" s else s
    (record s (.waited .separation ms !stopped)).goto (.stoppingPump true rest)
  | .stoppingPump on rest =>
    let s := if on then s.switchDevice .pump false else s
    match rest with
    | some ms => s.goto (.resting ms)
    | none => s.goto (.lettingGo false)
  | .resting ms =>
    let stopped := s.stopPending
    (record s (.waited .deactivation ms !stopped)).goto
      (if stopped then .lettingGo false else .counting)
  | .counting =>
    let n := s.cycles + 1
    (notify (.cycleCompleted n)
      (log .debug s!"Watering: cycle {n} completed" { s with cycles := n })).goto (.lettingGo true)
  | .lettingGo again =>
    match s.run.bind fun w => w.hardware with
    | some _ => (s.letGoOf .valve).goto (.lettingGoPump again)
    | none => s.endIteration.goto (afterIteration again)
  | .lettingGoPump again => ((s.letGoOf .pump).endIteration).goto (afterIteration again)
  | .enteringTearDown => (s.transition .tearingDown).goto .enteringDisabled
  | .enteringDisabled => (s.transition .disabled).goto .finishing
  | .finishing =>
    (notify (.stopped s.cycles)
      (log .info s!"Watering: worker finished after {s.cycles} cycle(s)" s)).goto .lowering
  | .lowering => { s with running := false }.goto .ended
  | .ended => s
  | .crashed => s

/-- The point of the worker. -/
def point? (s : Watering) : Option Point := s.run.map fun w => w.point

/-- One step of the worker; nothing if there is none. -/
def step (s : Watering) : Watering :=
  match s.point? with
  | some p => ((s.actAs .worker).act p).actAs .caller
  | none => s

/-- The worker dies where it is. -/
def crash (s : Watering) : Watering := ((s.actAs .worker).die).actAs .caller

/-- Several steps. -/
def steps : Nat → Watering → Watering
  | 0, s => s
  | n + 1, s => steps n s.step

/-- Whether there is a worker that has something left to do. -/
def isWorking (s : Watering) : Bool := (s.point?.map fun p => !p.isOver).getD false

/-! ## Pauses -/

/-- Where a worker can be looked at: before it reads a duration, or after it told an event. -/
inductive Pause
  | reading (which : Interval)
  | told (event : Event)
  deriving DecidableEq, Repr

/-- The name of a pause. -/
def Pause.name : Pause → String
  | .reading which => s!"read {which.name}"
  | .told .started => "Started"
  | .told (.stateChanged _ after) => after.name
  | .told (.cycleCompleted _) => "CycleCompleted"
  | .told (.stopped _) => "Stopped"
  | .told (.notice ..) => "Notice"

/-- The last event among some journal entries. -/
def lastTold : List (Actor × Effect) → Option Event
  | [] => none
  | (_, .emitted e) :: rest => (lastTold rest).or (some e)
  | _ :: rest => lastTold rest

/-- The pause between a state and the one a step later. -/
def pauseAfter (before after : Watering) : Option Pause :=
  match lastTold (after.rig.journal.drop before.rig.journal.length) with
  | some e => some (.told e)
  | none => (after.point?.bind Point.reading?).map .reading

/-- Runs the worker to its next pause, or to its end. The first argument bounds the steps. -/
def advanceWithin : Nat → Watering → Option Pause × Watering
  | 0, s => (none, s)
  | n + 1, s =>
    if s.isWorking then
      let next := s.step
      match pauseAfter s next with
      | some pause => (some pause, next)
      | none => advanceWithin n next
    else (none, s)

/-- More steps than lie between two pauses, or between a stop and the end of the worker. -/
def patience : Nat := 48

/-- Runs the worker to its next pause, or to its end. -/
def advance (s : Watering) : Option Pause × Watering := advanceWithin patience s

/-- Runs the worker while the caller waits for it. -/
def runFreely (s : Watering) : Watering := s.steps patience

/-- Runs the worker until it no longer keeps the caller from the lines, for at most `n` steps. -/
def awaitWithin : Nat → Watering → Watering
  | 0, s => s
  | n + 1, s =>
    if (s.point?.map Point.holdsLock).getD false then awaitWithin n s.step else s

/-- Waits until the worker no longer keeps the caller from the lines. -/
def awaitLines (s : Watering) : Watering := awaitWithin 8 s

end Watering

end Irrigation
