import Irrigation.Proofs.Hardware.Deeds
import Irrigation.Scheduler

/-!
# What a step of the worker shows

A `Mark` is what can be seen of a step of the worker: a flag it reads, a device it switches, a
duration it reads, a wait that ended, an event it tells. `Watering.marksAt` are the marks of the
step from a point, `Watering.nextPoint` is the point it leads to, and `Watering.touch` is what it
does to the controller of the iteration. `act_advances` says that these three, and little else, are
what a step does: all later proofs go by them, and none opens `Watering.act` again.
-/

namespace Irrigation

/-- What can be seen of a step of the worker. -/
inductive Mark
  /-- An iteration begins: no stop was pending. -/
  | began
  /-- The enabled flag of a device is read. -/
  | sees (role : Role) (on : Bool)
  /-- The devices are about to be switched on. -/
  | activating
  /-- A device is switched on or off, or is skipped because it has no line. -/
  | call (role : Role) (on : Bool) (line : Option Offset)
  /-- A duration is read. -/
  | reads (which : Interval) (ms : UInt64)
  /-- A gap begins; `pending` says that there is a stop already. -/
  | gap (pending : Bool)
  /-- A wait ended; `raised` says that there is a stop by now, `full` that it lasted its length. -/
  | waited (which : Interval) (ms : UInt64) (raised full : Bool)
  /-- A replaced controller gives up what it holds for a device. -/
  | gaveUp (role : Role) (line : Option Offset)
  /-- An event is told. -/
  | told (event : Event)
  deriving DecidableEq, Repr

/-- The deed that a mark stands for, if it is one that is journaled. -/
def Mark.deed? : Mark → Option Effect
  | .call _ on (some n) => some (.driven n on)
  | .reads which ms => some (.read which ms)
  | .waited which ms _ full => some (.waited which ms full)
  | .gaveUp _ (some n) => some (.driven n false)
  | .told e => some (.emitted e)
  | _ => none

/-- Whether an event says that a cycle was completed. -/
def Event.completes : Event → Bool
  | .cycleCompleted _ => true
  | _ => false

/-- Whether a mark tells that a cycle was completed. -/
def Mark.completes : Mark → Bool
  | .told e => e.completes
  | _ => false

/-- Whether the step from a point forgets a replaced controller. -/
def Point.forgets : Point → Bool
  | .lettingGoPump _ => true
  | _ => false

/-- Whether the step from a point leaves the cycle count and the running flag alone. -/
def Point.isPlain : Point → Bool
  | .counting => false
  | .lowering => false
  | _ => true

theorem Point.ne_lowering {p : Point} (h : p.isPlain = true) : p ≠ .lowering := by
  rintro rfl
  exact Bool.false_ne_true h

theorem Point.ne_counting {p : Point} (h : p.isPlain = true) : p ≠ .counting := by
  rintro rfl
  exact Bool.false_ne_true h

/-- The device that the step from a point is to switch, and whether on or off. -/
def Point.calls : Point → Option (Role × Bool)
  | .openingValve on _ => if on.valve then some (.valve, true) else none
  | .startingPump on _ => if on.pump then some (.pump, true) else none
  | .switchingOff on now r => if on.get r && !now.get r then some (r, false) else none
  | .closingValve on _ => if on.valve then some (.valve, false) else none
  | .stoppingPump on _ => if on then some (.pump, false) else none
  | _ => none

namespace Watering

/-- The iteration's controller, if another has taken its place. -/
def replaced (s : Watering) : Option Controller := s.run.bind fun w => w.hardware

/-- The line that the iteration's controller holds for a role. -/
def line? (s : Watering) (r : Role) : Option Offset :=
  (s.iterationHardware.slot r).output.map fun o => o.offset

/-! ## Tables -/

/-- What is told when the job moves to a state. -/
def entering (s : Watering) (next : CycleState) : List Mark :=
  if s.state = next then [] else [.told (.stateChanged s.state next)]

/-- What is seen of the step from a point. -/
def marksAt (s : Watering) : Point → List Mark
  | .starting => []
  | .loopHead => if s.stopPending then [] else [.began]
  | .takingHardware => []
  | .takingTiming => []
  | .readingValve => [.sees .valve s.enabled.valve]
  | .readingPump _ => [.sees .pump s.enabled.pump]
  | .readingActivation _ => [.reads .activation (s.iterationTiming.get .activation)]
  | .enteringIrrigation .. => s.entering .irrigating
  | .openingValve on _ =>
    .activating :: if on.valve then [.call .valve true (s.line? .valve)] else []
  | .startingPump on _ => if on.pump then [.call .pump true (s.line? .pump)] else []
  | .irrigating _ ms => [.waited .activation ms s.stopPending (!s.stopPending)]
  | .enteringIdle .. => s.entering .idling
  | .recheckingValve _ => [.sees .valve s.enabled.valve]
  | .recheckingPump .. => [.sees .pump s.enabled.pump]
  | .switchingOff on now r =>
    if on.get r && !now.get r then [.call r false (s.line? r)] else []
  | .reportingOff .. => []
  | .deciding .. => []
  | .readingDeactivation _ => [.reads .deactivation (s.iterationTiming.get .deactivation)]
  | .closingValve on _ => if on.valve then [.call .valve false (s.line? .valve)] else []
  | .choosingGap .. => []
  | .readingSeparation _ => [.reads .separation (s.iterationTiming.get .separation)]
  | .openingGap .. => [.gap s.stopPending]
  | .sleepingGap ms _ => [.waited .separation ms s.stopPending true]
  | .waitingGap ms _ => [.waited .separation ms s.stopPending (!s.stopPending)]
  | .stoppingPump on _ => if on then [.call .pump false (s.line? .pump)] else []
  | .resting ms => [.waited .deactivation ms s.stopPending (!s.stopPending)]
  | .counting => [.told (.cycleCompleted (s.cycles + 1))]
  | .lettingGo _ => if s.replaced.isSome then [.gaveUp .valve (s.line? .valve)] else []
  | .lettingGoPump _ => [.gaveUp .pump (s.line? .pump)]
  | .enteringTearDown => s.entering .tearingDown
  | .enteringDisabled => s.entering .disabled
  | .finishing => [.told (.stopped s.cycles)]
  | .lowering => []
  | .ended => []
  | .crashed => []

/-- Where the step from a point leads. -/
def nextPoint (s : Watering) : Point → Point
  | .starting => .loopHead
  | .loopHead => if s.stopPending then .enteringTearDown else .takingHardware
  | .takingHardware => .takingTiming
  | .takingTiming => .readingValve
  | .readingValve => .readingPump s.enabled.valve
  | .readingPump valve => .readingActivation ⟨valve, s.enabled.pump⟩
  | .readingActivation on => .enteringIrrigation on (s.iterationTiming.get .activation)
  | .enteringIrrigation on ms => .openingValve on ms
  | .openingValve on ms => .startingPump on ms
  | .startingPump on ms => .irrigating on ms
  | .irrigating on _ => .enteringIdle on s.stopPending
  | .enteringIdle on stopped => if stopped then .closingValve on none else .recheckingValve on
  | .recheckingValve on => .recheckingPump on s.enabled.valve
  | .recheckingPump on valve => .switchingOff on ⟨valve, s.enabled.pump⟩ .valve
  | .switchingOff on now r =>
    if on.get r && !now.get r then .reportingOff on now r else afterRecheck on now r
  | .reportingOff on now r => afterRecheck on now r
  | .deciding on now => if now.any then .readingDeactivation (on.meet now) else .lettingGo false
  | .readingDeactivation on => .closingValve on (some (s.iterationTiming.get .deactivation))
  | .closingValve on rest => .choosingGap on rest
  | .choosingGap on rest => if on.all then .readingSeparation rest else .stoppingPump on.pump rest
  | .readingSeparation rest => .openingGap (s.iterationTiming.get .separation) rest
  | .openingGap ms rest => if s.stopPending then .sleepingGap ms rest else .waitingGap ms rest
  | .sleepingGap _ rest => .stoppingPump true rest
  | .waitingGap _ rest => .stoppingPump true rest
  | .stoppingPump _ (some ms) => .resting ms
  | .stoppingPump _ none => .lettingGo false
  | .resting _ => if s.stopPending then .lettingGo false else .counting
  | .counting => .lettingGo true
  | .lettingGo again => if s.replaced.isSome then .lettingGoPump again else afterIteration again
  | .lettingGoPump again => afterIteration again
  | .enteringTearDown => .enteringDisabled
  | .enteringDisabled => .finishing
  | .finishing => .lowering
  | .lowering => .ended
  | .ended => .ended
  | .crashed => .crashed

/-- The state of the job after the step from a point. -/
def stateAfter (s : Watering) : Point → CycleState
  | .enteringIrrigation .. => .irrigating
  | .enteringIdle .. => .idling
  | .enteringTearDown => .tearingDown
  | .enteringDisabled => .disabled
  | _ => s.state

/-- The iteration's controller and the rig after a device was switched, or skipped. -/
def served (s : Watering) (r : Role) (on : Bool) : Controller × Rig :=
  match s.iterationHardware.switch r on s.rig with
  | (true, c, rig) => (c, rig)
  | (false, _, _) =>
    (s.iterationHardware,
      Irrigation.report "Watering" .warn s!"{r.label} has no bound line, skipped" s.rig)

/-- What the step from a point does to the iteration's controller and the lines. -/
def touch (s : Watering) (p : Point) : Controller × Rig :=
  match p.calls with
  | some (r, on) => s.served r on
  | none =>
    match p with
    | .lettingGo _ =>
      if s.replaced.isSome then s.iterationHardware.unbind .valve s.rig
      else (s.iterationHardware, s.rig)
    | .lettingGoPump _ => s.iterationHardware.unbind .pump s.rig
    | _ => (s.iterationHardware, s.rig)

/-- From `s` at the point `p` the worker gets to `s'`, as the tables say. -/
structure Advances (s : Watering) (p : Point) (s' : Watering) : Prop where
  point : s'.point? = some (s.nextPoint p)
  stop : s'.stopPending = s.stopPending
  state : s'.state = s.stateAfter p
  running : s'.running = if p = .lowering then false else s.running
  cycles : s'.cycles = if p = .counting then s.cycles + 1 else s.cycles
  enabled : s'.enabled = s.enabled
  timing : s'.timing = s.timing
  hardware : s'.hardware = if s.replaced.isSome then s.hardware else (s.touch p).1
  replaced : s'.replaced = if p.forgets then none else s.replaced.map fun _ => (s.touch p).1
  chip : s'.rig.chip = (s.touch p).2.chip
  routine : s.rig.faults = s'.rig.faults ∧ s.rig.actor = s'.rig.actor
  deeds : s'.rig.deeds =
    s.rig.deeds ++ ((s.marksAt p).filterMap Mark.deed?).map fun e => (s.rig.actor, e)

/-! ## What the worker does, in one form -/

/-- Puts a controller and a rig in the place of the iteration's. -/
def deal (x : Controller × Rig) (s : Watering) : Watering :=
  { s with rig := x.2 }.setIterationHardware x.1

theorem deal_eq {s : Watering} {w : Worker} (hrun : s.run = some w) (x : Controller × Rig) :
    s.deal x = { s with
      rig := x.2
      hardware := if s.replaced.isSome then s.hardware else x.1
      run := some { w with hardware := w.hardware.map fun _ => x.1 } } := by
  obtain ⟨rig, hardware, timing, enabled, state, running, cycles, run⟩ := s
  obtain rfl : run = some w := hrun
  obtain ⟨stop, point, _ | replaced, own⟩ := w <;> rfl

theorem switchDevice_eq {s : Watering} {w : Worker} (hrun : s.run = some w) (r : Role)
    (on : Bool) : s.switchDevice r on = s.deal (s.served r on) := by
  unfold switchDevice served
  rcases s.iterationHardware.switch r on s.rig with ⟨_ | _, c, rig⟩
  · obtain ⟨rig, hardware, timing, enabled, state, running, cycles, run⟩ := s
    obtain rfl : run = some w := hrun
    obtain ⟨stop, point, _ | replaced, own⟩ := w <;> rfl
  · rfl

theorem switchOn_eq {s : Watering} (hsafe : s.rig.faults.deadlyLine = none) (r : Role) (p : Point) :
    s.switchOn r p = (s.switchDevice r true).goto p := by
  have hnone : s.deadlyLine? r = none := by
    unfold deadlyLine?
    rw [hsafe]
    split <;> rfl
  rw [switchOn, hnone]

theorem deeds_served (s : Watering) (r : Role) (on : Bool) :
    (s.served r on).2.deeds = s.rig.deeds ++
      ([Mark.call r on (s.line? r)].filterMap Mark.deed?).map fun e => (s.rig.actor, e) := by
  unfold served Controller.switch line?
  cases (s.iterationHardware.slot r).output with
  | none =>
    simp [Mark.deed?]
  | some o =>
    simp [Mark.deed?, Rig.deeds_switch]

theorem routine_served (s : Watering) (r : Role) (on : Bool) : s.rig.Routine (s.served r on).2 := by
  unfold served
  have h := Rig.routine_controllerSwitch s.iterationHardware r on s.rig
  rcases hq : s.iterationHardware.switch r on s.rig with ⟨_ | _, c, rig⟩ <;> rw [hq] at h
  · exact .report ..
  · exact h

theorem hardware_of_iteration (s : Watering) :
    (if s.replaced.isSome then s.hardware else s.iterationHardware) = s.hardware := by
  unfold replaced iterationHardware
  cases s.run.bind fun w => w.hardware <;> rfl

theorem replaced_of_iteration (s : Watering) :
    s.replaced.map (fun _ => s.iterationHardware) = s.replaced := by
  unfold replaced iterationHardware
  cases s.run.bind fun w => w.hardware <;> rfl

section Steps

variable {s : Watering} {w : Worker} (hrun : s.run = some w) {p : Point}
include hrun

/-- A step that does nothing to the lines. -/
theorem advances_of_talk (rig : Rig) (htouch : s.touch p = (s.iterationHardware, s.rig))
    (hp : p.forgets = false) (hchip : rig.chip = s.rig.chip)
    (hfaults : rig.faults = s.rig.faults) (hactor : rig.actor = s.rig.actor)
    (hdeeds : rig.deeds =
      s.rig.deeds ++ ((s.marksAt p).filterMap Mark.deed?).map fun e => (s.rig.actor, e)) :
    s.Advances p (goto (s.nextPoint p) { s with
      rig
      state := s.stateAfter p
      running := if p = .lowering then false else s.running
      cycles := if p = .counting then s.cycles + 1 else s.cycles }) where
  point := by rw [goto, point?, hrun]; rfl
  stop := by rw [goto, stopPending, stopPending, hrun]; rfl
  state := rfl
  running := rfl
  cycles := rfl
  enabled := rfl
  timing := rfl
  hardware := by rw [htouch]; exact (hardware_of_iteration s).symm
  replaced := by
    rw [htouch, hp, if_neg Bool.false_ne_true, replaced_of_iteration, replaced, replaced, goto,
      hrun]
    rfl
  chip := by rw [htouch]; exact hchip
  routine := ⟨hfaults.symm, hactor.symm⟩
  deeds := hdeeds

/-- A step that hands the rig to the iteration's controller. -/
theorem advances_of_deal (hforgets : p.forgets = false) (hstate : s.stateAfter p = s.state)
    (hplain : p.isPlain = true) (hroutine : s.rig.Routine (s.touch p).2)
    (hdeeds : (s.touch p).2.deeds =
      s.rig.deeds ++ ((s.marksAt p).filterMap Mark.deed?).map fun e => (s.rig.actor, e)) :
    s.Advances p ((s.deal (s.touch p)).goto (s.nextPoint p)) := by
  rw [deal_eq hrun]
  exact {
    point := rfl
    stop := by rw [goto, stopPending, stopPending, hrun]; rfl
    state := hstate.symm
    running := (if_neg (Point.ne_lowering hplain)).symm
    cycles := (if_neg (Point.ne_counting hplain)).symm
    enabled := rfl
    timing := rfl
    hardware := rfl
    replaced := by
      rw [hforgets, if_neg Bool.false_ne_true, replaced, replaced, hrun]
      rfl
    chip := rfl
    routine := ⟨hroutine.faults.symm, hroutine.actor.symm⟩
    deeds := hdeeds }

/-- A step that switches a device. -/
theorem advances_of_switch {r : Role} {b : Bool} (htouch : s.touch p = s.served r b)
    (hforgets : p.forgets = false) (hstate : s.stateAfter p = s.state) (hplain : p.isPlain = true)
    (hmarks : (s.marksAt p).filterMap Mark.deed? =
      [Mark.call r b (s.line? r)].filterMap Mark.deed?) :
    s.Advances p ((s.switchDevice r b).goto (s.nextPoint p)) := by
  rw [switchDevice_eq hrun, ← htouch]
  refine advances_of_deal hrun hforgets hstate hplain ?_ ?_
  · rw [htouch]
    exact routine_served s r b
  · rw [htouch, hmarks]
    exact deeds_served s r b

end Steps

/-- A step that only decides where to go. -/
theorem advances_of_goto {s : Watering} {w : Worker} (hrun : s.run = some w) {p : Point}
    (htouch : s.touch p = (s.iterationHardware, s.rig)) (hforgets : p.forgets = false)
    (hstate : s.stateAfter p = s.state) (hplain : p.isPlain = true)
    (hmarks : (s.marksAt p).filterMap Mark.deed? = []) : s.Advances p (s.goto (s.nextPoint p)) := by
  have h := advances_of_talk hrun s.rig htouch hforgets rfl rfl rfl (by simp [hmarks])
  rw [hstate, if_neg (Point.ne_lowering hplain), if_neg (Point.ne_counting hplain)] at h
  exact h

/-- A step that switches a device, or passes it by. -/
theorem advances_of_choice {s : Watering} {w : Worker} (hrun : s.run = some w) {p : Point}
    {r : Role} {on b : Bool}
    (htouch : s.touch p = if on then s.served r b else (s.iterationHardware, s.rig))
    (hforgets : p.forgets = false) (hstate : s.stateAfter p = s.state) (hplain : p.isPlain = true)
    (hmarks : (s.marksAt p).filterMap Mark.deed? =
      if on then [Mark.call r b (s.line? r)].filterMap Mark.deed? else []) :
    s.Advances p ((if on then s.switchDevice r b else s).goto (s.nextPoint p)) := by
  cases on with
  | true => exact advances_of_switch hrun htouch hforgets hstate hplain hmarks
  | false => exact advances_of_goto hrun htouch hforgets hstate hplain hmarks

/-- A step that leaves one entry in the journal. -/
theorem advances_of_record {s : Watering} {w : Worker} (hrun : s.run = some w) {p : Point}
    {e : Effect} (htouch : s.touch p = (s.iterationHardware, s.rig)) (hforgets : p.forgets = false)
    (hstate : s.stateAfter p = s.state) (hplain : p.isPlain = true)
    (hmarks : (s.marksAt p).filterMap Mark.deed? = if e.isDeed then [e] else []) :
    s.Advances p ((record s e).goto (s.nextPoint p)) := by
  have h := advances_of_talk hrun (record s.rig e) htouch hforgets rfl rfl rfl (by
    rw [Rig.deeds_record, hmarks]
    cases e.isDeed <;> rfl)
  rw [hstate, if_neg (Point.ne_lowering hplain), if_neg (Point.ne_counting hplain)] at h
  exact h

/-- A step that leaves a message. -/
theorem advances_of_report {s : Watering} {w : Worker} (hrun : s.run = some w) {p : Point}
    {l : Level} {m : String} (htouch : s.touch p = (s.iterationHardware, s.rig))
    (hforgets : p.forgets = false) (hstate : s.stateAfter p = s.state) (hplain : p.isPlain = true)
    (hmarks : (s.marksAt p).filterMap Mark.deed? = []) :
    s.Advances p ((s.report l m).goto (s.nextPoint p)) := by
  have h := advances_of_talk hrun (Irrigation.report "Watering" l m s.rig) htouch hforgets rfl rfl
    rfl (by simp [hmarks])
  rw [hstate, if_neg (Point.ne_lowering hplain), if_neg (Point.ne_counting hplain)] at h
  exact h

/-- The rig after the job was said to move to a state. -/
def announced (s : Watering) (next : CycleState) : Rig :=
  if s.state = next then s.rig
  else notify (.stateChanged s.state next)
    (log .debug s!"Watering: {s.state.name} -> {next.name}" s.rig)

theorem transition_eq (s : Watering) (next : CycleState) :
    s.transition next = { s with rig := s.announced next, state := next } := by
  unfold transition announced
  split
  · next h =>
    subst h
    rfl
  · rfl

theorem deeds_announced (s : Watering) (next : CycleState) :
    (s.announced next).deeds = s.rig.deeds ++
      ((s.entering next).filterMap Mark.deed?).map fun e => (s.rig.actor, e) := by
  unfold announced entering
  split
  · simp
  · simp [notify, Rig.deeds_record, Mark.deed?, Effect.isDeed]

/-- A step that moves the job to another state. -/
theorem advances_of_transition {s : Watering} {w : Worker} (hrun : s.run = some w) {p : Point}
    {next : CycleState} (htouch : s.touch p = (s.iterationHardware, s.rig))
    (hforgets : p.forgets = false) (hstate : s.stateAfter p = next) (hplain : p.isPlain = true)
    (hmarks : s.marksAt p = s.entering next) :
    s.Advances p ((s.transition next).goto (s.nextPoint p)) := by
  have hsame : (s.announced next).chip = s.rig.chip ∧ (s.announced next).faults = s.rig.faults ∧
      (s.announced next).actor = s.rig.actor := by
    unfold announced
    split
    · exact ⟨rfl, rfl, rfl⟩
    · exact ⟨rfl, rfl, rfl⟩
  have h := advances_of_talk hrun (s.announced next) htouch hforgets hsame.1 hsame.2.1
    hsame.2.2 (by rw [hmarks]; exact deeds_announced s next)
  rw [hstate, if_neg (Point.ne_lowering hplain), if_neg (Point.ne_counting hplain)] at h
  rw [transition_eq]
  exact h

/-- A step that lets go of one role of a replaced controller. -/
theorem deeds_unbind_iteration (s : Watering) (r : Role) :
    (s.iterationHardware.unbind r s.rig).2.deeds = s.rig.deeds ++
      ([Mark.gaveUp r (s.line? r)].filterMap Mark.deed?).map fun e => (s.rig.actor, e) := by
  unfold line?
  cases ho : (s.iterationHardware.slot r).output with
  | none => simp [Rig.unbind_of_none ho, Mark.deed?]
  | some o => simp [Rig.deeds_unbind ho, Mark.deed?]

theorem lettingGo_advances {s : Watering} {w : Worker} (hrun : s.run = some w) (again : Bool) :
    s.Advances (.lettingGo again) (s.act (.lettingGo again)) := by
  cases hreplaced : s.replaced with
  | some c =>
    have hact : s.act (.lettingGo again) =
        (s.deal (s.iterationHardware.unbind .valve s.rig)).goto (.lettingGoPump again) := by
      rw [act, show (s.run.bind fun w => w.hardware) = some c from hreplaced]
      rfl
    have htouch : s.touch (.lettingGo again) = s.iterationHardware.unbind .valve s.rig := by
      simp only [touch, Point.calls, hreplaced]
      rfl
    have h := advances_of_deal (p := .lettingGo again) hrun rfl rfl rfl
      (by rw [htouch]; exact Rig.routine_unbind ..)
      (by rw [htouch, marksAt, hreplaced]; exact deeds_unbind_iteration ..)
    rw [htouch, nextPoint, hreplaced] at h
    rw [hact]
    exact h
  | none =>
    have hact : s.act (.lettingGo again) = s.endIteration.goto (afterIteration again) := by
      rw [act, show (s.run.bind fun w => w.hardware) = none from hreplaced]
    have htouch : s.touch (.lettingGo again) = (s.iterationHardware, s.rig) := by
      simp only [touch, Point.calls, hreplaced]
      rfl
    rw [hact]
    exact {
      point := by rw [goto, endIteration, point?, hrun, nextPoint, hreplaced]; rfl
      stop := by rw [goto, endIteration, stopPending, stopPending, hrun]; rfl
      state := rfl
      running := rfl
      cycles := rfl
      enabled := rfl
      timing := rfl
      hardware := by rw [htouch]; exact (hardware_of_iteration s).symm
      replaced := by
        rw [hreplaced, replaced, goto, endIteration, hrun]
        rfl
      chip := by rw [htouch]; rfl
      routine := ⟨rfl, rfl⟩
      deeds := by
        rw [marksAt, hreplaced]
        exact (List.append_nil _).symm }

theorem lettingGoPump_advances {s : Watering} {w : Worker} (hrun : s.run = some w)
    (again : Bool) : s.Advances (.lettingGoPump again) (s.act (.lettingGoPump again)) := by
  have hact : s.act (.lettingGoPump again) =
      ((s.deal (s.iterationHardware.unbind .pump s.rig)).endIteration).goto
        (afterIteration again) := rfl
  have hroutine := Rig.routine_unbind s.iterationHardware .pump s.rig
  rw [hact, deal_eq hrun]
  exact {
    point := rfl
    stop := by rw [goto, endIteration, stopPending, stopPending, hrun]; rfl
    state := rfl
    running := rfl
    cycles := rfl
    enabled := rfl
    timing := rfl
    hardware := rfl
    replaced := rfl
    chip := rfl
    routine := ⟨hroutine.faults.symm, hroutine.actor.symm⟩
    deeds := deeds_unbind_iteration s .pump }

/-- A worker that is over stays where it is. -/
theorem advances_of_over {s : Watering} {w : Worker} (hrun : s.run = some w) {p : Point}
    (hp : w.point = p) (hnext : s.nextPoint p = p)
    (htouch : s.touch p = (s.iterationHardware, s.rig)) (hforgets : p.forgets = false)
    (hstate : s.stateAfter p = s.state) (hplain : p.isPlain = true)
    (hmarks : s.marksAt p = []) : s.Advances p s where
  point := by rw [point?, hrun, hnext, ← hp]; rfl
  stop := rfl
  state := hstate.symm
  running := (if_neg (Point.ne_lowering hplain)).symm
  cycles := (if_neg (Point.ne_counting hplain)).symm
  enabled := rfl
  timing := rfl
  hardware := by rw [htouch]; exact (hardware_of_iteration s).symm
  replaced := by
    rw [htouch, hforgets, if_neg Bool.false_ne_true]
    exact (replaced_of_iteration s).symm
  chip := by rw [htouch]
  routine := ⟨rfl, rfl⟩
  deeds := by rw [hmarks]; exact (List.append_nil _).symm

/-- **A step is what the tables say.** -/
theorem act_advances {s : Watering} {w : Worker} (hrun : s.run = some w)
    (hsafe : s.rig.faults.deadlyLine = none) : s.Advances w.point (s.act w.point) := by
  cases hp : w.point with
  | starting => exact advances_of_record (p := .starting) hrun rfl rfl rfl rfl rfl
  | loopHead =>
    refine advances_of_goto (p := .loopHead) hrun rfl rfl rfl rfl ?_
    rw [marksAt]
    split <;> rfl
  | takingHardware => exact advances_of_goto (p := .takingHardware) hrun rfl rfl rfl rfl rfl
  | takingTiming => exact advances_of_goto (p := .takingTiming) hrun rfl rfl rfl rfl rfl
  | readingValve => exact advances_of_goto (p := .readingValve) hrun rfl rfl rfl rfl rfl
  | readingPump valve =>
    exact advances_of_goto (p := .readingPump valve) hrun rfl rfl rfl rfl rfl
  | readingActivation on =>
    exact advances_of_record (p := .readingActivation on) hrun rfl rfl rfl rfl rfl
  | enteringIrrigation on ms =>
    exact advances_of_transition (p := .enteringIrrigation on ms) hrun rfl rfl rfl rfl rfl
  | openingValve on ms =>
    have hact : s.act (.openingValve on ms) =
        (if on.valve then s.switchDevice .valve true else s).goto (.startingPump on ms) := by
      rw [act, switchOn_eq hsafe]
      cases on.valve <;> rfl
    rw [hact]
    refine advances_of_choice (p := .openingValve on ms) hrun ?_ rfl rfl rfl ?_
    · simp only [touch, Point.calls]
      cases on.valve <;> rfl
    · rw [marksAt]
      cases on.valve <;> rfl
  | startingPump on ms =>
    have hact : s.act (.startingPump on ms) =
        (if on.pump then s.switchDevice .pump true else s).goto (.irrigating on ms) := by
      rw [act, switchOn_eq hsafe]
      cases on.pump <;> rfl
    rw [hact]
    refine advances_of_choice (p := .startingPump on ms) hrun ?_ rfl rfl rfl ?_
    · simp only [touch, Point.calls]
      cases on.pump <;> rfl
    · rw [marksAt]
      cases on.pump <;> rfl
  | irrigating on ms =>
    exact advances_of_record (p := .irrigating on ms) hrun rfl rfl rfl rfl rfl
  | enteringIdle on stopped =>
    exact advances_of_transition (p := .enteringIdle on stopped) hrun rfl rfl rfl rfl rfl
  | recheckingValve on =>
    exact advances_of_goto (p := .recheckingValve on) hrun rfl rfl rfl rfl rfl
  | recheckingPump on valve =>
    exact advances_of_goto (p := .recheckingPump on valve) hrun rfl rfl rfl rfl rfl
  | switchingOff on now r =>
    have hact : s.act (.switchingOff on now r) =
        (if on.get r && !now.get r then s.switchDevice r false else s).goto
          (s.nextPoint (.switchingOff on now r)) := by
      rw [act, nextPoint]
      cases on.get r && !now.get r <;> rfl
    rw [hact]
    refine advances_of_choice (p := .switchingOff on now r) hrun ?_ rfl rfl rfl ?_
    · simp only [touch, Point.calls]
      cases on.get r && !now.get r <;> rfl
    · rw [marksAt]
      cases on.get r && !now.get r <;> rfl
  | reportingOff on now r =>
    exact advances_of_report (p := .reportingOff on now r) hrun rfl rfl rfl rfl rfl
  | deciding on now =>
    rw [act]
    cases hon : now.any with
    | true =>
      have h := advances_of_goto (p := .deciding on now) hrun rfl rfl rfl rfl rfl
      rw [nextPoint, hon] at h
      exact h
    | false =>
      have h := advances_of_report (p := .deciding on now) (l := .info)
        (m := "both devices disabled, watering job ends") hrun rfl rfl rfl rfl rfl
      rw [nextPoint, hon] at h
      exact h
  | readingDeactivation on =>
    exact advances_of_record (p := .readingDeactivation on) hrun rfl rfl rfl rfl rfl
  | closingValve on rest =>
    have hact : s.act (.closingValve on rest) =
        (if on.valve then s.switchDevice .valve false else s).goto (.choosingGap on rest) := rfl
    rw [hact]
    refine advances_of_choice (p := .closingValve on rest) hrun ?_ rfl rfl rfl ?_
    · simp only [touch, Point.calls]
      cases on.valve <;> rfl
    · rw [marksAt]
      cases on.valve <;> rfl
  | choosingGap on rest =>
    exact advances_of_goto (p := .choosingGap on rest) hrun rfl rfl rfl rfl rfl
  | readingSeparation rest =>
    exact advances_of_record (p := .readingSeparation rest) hrun rfl rfl rfl rfl rfl
  | openingGap ms rest =>
    exact advances_of_goto (p := .openingGap ms rest) hrun rfl rfl rfl rfl rfl
  | sleepingGap ms rest =>
    exact advances_of_record (p := .sleepingGap ms rest) hrun rfl rfl rfl rfl rfl
  | waitingGap ms rest =>
    rw [act]
    cases hstop : s.stopPending with
    | false =>
      have h := advances_of_record (p := .waitingGap ms rest) (e := .waited .separation ms true)
        hrun rfl rfl rfl rfl (by rw [marksAt, hstop]; rfl)
      exact h
    | true =>
      have h := advances_of_talk (p := .waitingGap ms rest) hrun (record
        (log .debug "Watering: valve/pump separation cut short by stop" s.rig)
        (.waited .separation ms false)) rfl rfl rfl rfl rfl (by
          simp [marksAt, hstop, Rig.deeds_record, Mark.deed?, Effect.isDeed])
      exact h
  | stoppingPump on rest =>
    have hact : s.act (.stoppingPump on rest) =
        (if on then s.switchDevice .pump false else s).goto
          (s.nextPoint (.stoppingPump on rest)) := by
      cases rest <;> rfl
    rw [hact]
    refine advances_of_choice (p := .stoppingPump on rest) hrun ?_ rfl rfl rfl ?_
    · cases on <;> rfl
    · cases on <;> rfl
  | resting ms => exact advances_of_record (p := .resting ms) hrun rfl rfl rfl rfl rfl
  | counting =>
    refine advances_of_talk (p := .counting) hrun (notify (.cycleCompleted (s.cycles + 1))
      (log .debug s!"Watering: cycle {s.cycles + 1} completed" s.rig)) rfl rfl rfl rfl rfl ?_
    simp [marksAt, notify, Rig.deeds_record, Mark.deed?, Effect.isDeed]
  | lettingGo again => exact lettingGo_advances hrun again
  | lettingGoPump again => exact lettingGoPump_advances hrun again
  | enteringTearDown =>
    exact advances_of_transition (p := .enteringTearDown) hrun rfl rfl rfl rfl rfl
  | enteringDisabled =>
    exact advances_of_transition (p := .enteringDisabled) hrun rfl rfl rfl rfl rfl
  | finishing =>
    refine advances_of_talk (p := .finishing) hrun (notify (.stopped s.cycles)
      (log .info s!"Watering: worker finished after {s.cycles} cycle(s)" s.rig)) rfl rfl
      rfl rfl rfl ?_
    simp [marksAt, notify, Rig.deeds_record, Mark.deed?, Effect.isDeed]
  | lowering =>
    exact advances_of_talk (p := .lowering) hrun s.rig rfl rfl rfl rfl rfl
      (List.append_nil _).symm
  | ended => exact advances_of_over hrun hp rfl rfl rfl rfl rfl rfl
  | crashed => exact advances_of_over hrun hp rfl rfl rfl rfl rfl rfl

/-- A step of the worker, who acts in his own name. -/
theorem step_advances {s : Watering} {w : Worker} (hrun : s.run = some w)
    (hsafe : s.rig.faults.deadlyLine = none) :
    ∃ s', s.step = s'.actAs .caller ∧ (s.actAs .worker).Advances w.point s' := by
  refine ⟨(s.actAs .worker).act w.point, ?_, act_advances (s := s.actAs .worker) hrun hsafe⟩
  rw [step, point?, hrun]
  rfl

end Watering

end Irrigation
