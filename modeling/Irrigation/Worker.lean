import Irrigation.Controller
import Irrigation.Time

/-!
# The worker of a job

A job is done by a worker that runs beside its caller. `Point` says where in its work the worker
is; from one point to the next it touches at most one thing that the caller can touch too, so
that every interleaving of the two is a sequence of worker steps and caller operations. Between
two steps the caller may replace the controller or the durations that the worker's iteration
uses: a `Worker` then keeps the replaced ones until its iteration is over.
-/

namespace Irrigation

/-- What follows a deactivation: a rest of this many milliseconds, or the end of the job. -/
abbrev Rest := Option UInt64

/-- Where a worker is. `on` are the devices that the iteration has on, `now` the enabled flags
as read again after the activation. -/
inductive Point
  /-- The worker has not begun. -/
  | starting
  /-- Before the test for a stop that begins an iteration. -/
  | loopHead
  /-- About to take the controller for the iteration. -/
  | takingHardware
  /-- About to take the durations for the iteration. -/
  | takingTiming
  /-- About to read the flag of the valve, then that of the pump. -/
  | readingValve
  | readingPump (valve : Bool)
  | readingActivation (on : Each Bool)
  | enteringIrrigation (on : Each Bool) (ms : UInt64)
  /-- About to switch on the valve, then the pump. -/
  | openingValve (on : Each Bool) (ms : UInt64)
  | startingPump (on : Each Bool) (ms : UInt64)
  /-- In the activation wait. -/
  | irrigating (on : Each Bool) (ms : UInt64)
  | enteringIdle (on : Each Bool) (stopped : Bool)
  /-- About to read the flags again. -/
  | recheckingValve (on : Each Bool)
  | recheckingPump (on : Each Bool) (valve : Bool)
  /-- About to switch off a device that was disabled meanwhile, and to say so. -/
  | switchingOff (on now : Each Bool) (role : Role)
  | reportingOff (on now : Each Bool) (role : Role)
  /-- About to decide whether the job goes on. -/
  | deciding (on now : Each Bool)
  | readingDeactivation (on : Each Bool)
  /-- About to switch off the valve. -/
  | closingValve (on : Each Bool) (rest : Rest)
  /-- About to decide whether a gap comes before the pump is switched off. -/
  | choosingGap (on : Each Bool) (rest : Rest)
  | readingSeparation (rest : Rest)
  /-- About to look whether a stop is pending as the gap begins. -/
  | openingGap (ms : UInt64) (rest : Rest)
  /-- In a gap that nothing cuts short. -/
  | sleepingGap (ms : UInt64) (rest : Rest)
  /-- In a gap that a stop cuts short. -/
  | waitingGap (ms : UInt64) (rest : Rest)
  | stoppingPump (on : Bool) (rest : Rest)
  /-- In the deactivation wait. -/
  | resting (ms : UInt64)
  /-- About to count the cycle. -/
  | counting
  /-- About to let go of the iteration's controller; `again` says whether a next one follows. -/
  | lettingGo (again : Bool)
  /-- The valve's line of a replaced controller is given up, the pump's is next. -/
  | lettingGoPump (again : Bool)
  | enteringTearDown
  | enteringDisabled
  /-- About to tell the end of the job. -/
  | finishing
  /-- About to lower the running flag. -/
  | lowering
  /-- The worker has ended. -/
  | ended
  /-- The worker has died. -/
  | crashed
  deriving DecidableEq, Repr

namespace Point

/-- Whether the worker keeps the caller from moving lines: it does from the first to the last
output call of a sequence. -/
def holdsLock : Point → Bool
  | .startingPump .. => true
  | .choosingGap .. => true
  | .readingSeparation _ => true
  | .openingGap .. => true
  | .sleepingGap .. => true
  | .waitingGap .. => true
  | .stoppingPump .. => true
  | .lettingGoPump _ => true
  | _ => false

/-- Whether the worker is in an iteration and has a controller for it. -/
def holdsHardware : Point → Bool
  | .starting => false
  | .loopHead => false
  | .takingHardware => false
  | .lettingGoPump _ => false
  | .enteringTearDown => false
  | .enteringDisabled => false
  | .finishing => false
  | .lowering => false
  | .ended => false
  | .crashed => false
  | _ => true

/-- Whether the worker is in an iteration and has durations for it. -/
def holdsTiming : Point → Bool
  | .takingTiming => false
  | p => p.holdsHardware

/-- Whether the worker will do nothing more. -/
def isOver : Point → Bool
  | .ended => true
  | .crashed => true
  | _ => false

/-- The duration that is read next. -/
def reading? : Point → Option Interval
  | .readingActivation _ => some .activation
  | .readingDeactivation _ => some .deactivation
  | .readingSeparation _ => some .separation
  | _ => none

/-- The wait that the worker is in: how long it lasts, and whether a stop ends it. -/
def wait? : Point → Option (UInt64 × Bool)
  | .irrigating _ ms => some (ms, true)
  | .sleepingGap ms _ => some (ms, false)
  | .waitingGap ms _ => some (ms, true)
  | .resting ms => some (ms, true)
  | _ => none

end Point

/-- A worker: its stop signal, its point, and what of its iteration has been replaced. -/
structure Worker where
  stop : StopSignal := {}
  point : Point := .starting
  /-- The iteration's controller, if another has taken its place. -/
  hardware : Option Controller := none
  /-- The iteration's durations, if others have taken their place. -/
  timing : Option Timing := none
  deriving DecidableEq, Repr

end Irrigation
