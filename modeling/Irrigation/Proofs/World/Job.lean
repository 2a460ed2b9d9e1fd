import Irrigation.Proofs.World.Turns

/-!
# The state of a job

In every reachable world the state of the job is what the worker's point says (`Phase.Allows`), a
job is running until its worker is over, a stop is pending exactly while the caller waits for the
worker, and a replaced controller is in use by an iteration (`World.Steady`). `steady` is the
invariant, proved by cases on the turns. A job counts its cycles; `counts_fit` bounds the counts by
the number of moves.
-/

namespace Irrigation

/-- The count of cycles that an event tells. -/
def Event.count? : Event → Option Nat
  | .cycleCompleted n => some n
  | .stopped n => some n
  | _ => none

/-! ## Phases -/

/-- The parts of a job. -/
inductive Phase
  /-- Before the devices of an iteration are switched on. -/
  | heading
  | watering
  | idling
  /-- Before the job is torn down. -/
  | leaving
  | torn
  | ending
  deriving DecidableEq, Repr

/-- The part that a point belongs to. -/
def Point.phase : Point → Phase
  | .openingValve .. => .watering
  | .startingPump .. => .watering
  | .irrigating .. => .watering
  | .enteringIdle .. => .watering
  | .recheckingValve _ => .idling
  | .recheckingPump .. => .idling
  | .switchingOff .. => .idling
  | .reportingOff .. => .idling
  | .deciding .. => .idling
  | .readingDeactivation _ => .idling
  | .closingValve .. => .idling
  | .choosingGap .. => .idling
  | .readingSeparation _ => .idling
  | .openingGap .. => .idling
  | .sleepingGap .. => .idling
  | .waitingGap .. => .idling
  | .stoppingPump .. => .idling
  | .resting _ => .idling
  | .counting => .idling
  | .lettingGo again => if again then .heading else .idling
  | .lettingGoPump again => if again then .heading else .idling
  | .enteringTearDown => .leaving
  | .enteringDisabled => .torn
  | .finishing => .ending
  | .lowering => .ending
  | .ended => .ending
  | .crashed => .ending
  | _ => .heading

/-- The state between two iterations, after `n` cycles: the first one begins disabled. -/
def CycleState.between (n : Nat) : CycleState := if n = 0 then .disabled else .idling

/-- Whether a job can be in a state during a part of it, after `n` cycles. -/
def Phase.Allows (n : Nat) (state : CycleState) : Phase → Prop
  | .heading => state = .between n
  | .watering => state = .irrigating
  | .idling => state = .idling
  | .leaving => state = .disabled ∨ state = .idling
  | .torn => state = .tearingDown
  | .ending => state = .disabled

theorem CycleState.between_eq (n : Nat) :
    CycleState.between n = .disabled ∨ CycleState.between n = .idling := by
  unfold between
  split
  · exact .inl rfl
  · exact .inr rfl

namespace Watering

/-- The system is as the worker's point `p` says. -/
structure Settled (s : Watering) (p : Point) : Prop where
  alive : p ≠ .crashed
  running : s.running = !p.isOver
  state : p.phase.Allows s.cycles s.state
  inUse : s.replaced.isSome → p.holdsHardware ∨ p.forgets
  forgets : p.forgets → s.replaced.isSome

variable {s s' : Watering} {p : Point}

theorem not_isOver_afterRecheck (on now : Each Bool) (r : Role) :
    (afterRecheck on now r).isOver = false := by
  cases r <;> rfl

theorem not_isOver_afterIteration (again : Bool) : (afterIteration again).isOver = false := by
  cases again <;> rfl

theorem not_isOver_of_ne (h : p.isOver = false) : p ≠ .crashed ∧ p ≠ .ended := by
  constructor
  · rintro rfl
    cases h
  · rintro rfl
    cases h

/-- The worker is over when it has lowered the running flag, and not before. -/
theorem isOver_nextPoint (h : p.isOver = false) :
    (s.nextPoint p).isOver = decide (p = .lowering) := by
  fun_cases nextPoint s p <;>
    first
    | rfl
    | rw [not_isOver_afterRecheck]; rfl
    | rw [not_isOver_afterIteration]; rfl
    | cases h

theorem nextPoint_ne_crashed (h : p.isOver = false) : s.nextPoint p ≠ .crashed := by
  by_cases hp : p = .lowering
  · subst hp
    rintro ⟨⟩
  · have hover := isOver_nextPoint (s := s) h
    rw [decide_eq_false hp] at hover
    exact (not_isOver_of_ne hover).1

theorem allows_afterRecheck {n : Nat} {state : CycleState} (h : Phase.idling.Allows n state)
    (on now : Each Bool) (r : Role) : (afterRecheck on now r).phase.Allows n state := by
  cases r <;> exact h

theorem allows_afterIteration {n : Nat} {state : CycleState} {again : Bool}
    (h : (if again then Phase.heading else .idling).Allows n state) :
    (afterIteration again).phase.Allows n state := by
  cases again with
  | true => exact h
  | false => exact .inr h

/-- The state after a step is one that the next point allows. -/
theorem allows_nextPoint (h : p.phase.Allows s.cycles s.state) (hover : p.isOver = false) :
    (s.nextPoint p).phase.Allows (if p = .counting then s.cycles + 1 else s.cycles)
      (s.stateAfter p) := by
  fun_cases nextPoint s p <;>
    first
    | exact h
    | rfl
    | exact allows_afterRecheck h ..
    | exact allows_afterIteration h
    | skip
  · have hstate : s.state = .between s.cycles := h
    change s.state = .disabled ∨ s.state = .idling
    rw [hstate]
    exact CycleState.between_eq s.cycles

theorem holdsHardware_afterRecheck (on now : Each Bool) (r : Role) :
    (afterRecheck on now r).holdsHardware = true := by
  cases r <;> rfl

theorem not_forgets_afterRecheck (on now : Each Bool) (r : Role) :
    (afterRecheck on now r).forgets = false := by
  cases r <;> rfl

theorem not_forgets_afterIteration (again : Bool) : (afterIteration again).forgets = false := by
  cases again <;> rfl

/-- An iteration keeps its controller until it lets go of it. -/
theorem holdsHardware_nextPoint (h : p.holdsHardware = true) (hreplaced : s.replaced.isSome) :
    (s.nextPoint p).holdsHardware = true ∨ (s.nextPoint p).forgets = true := by
  fun_cases nextPoint s p <;>
    first
    | exact .inl rfl
    | exact .inr rfl
    | exact .inl (holdsHardware_afterRecheck ..)
    | exact absurd hreplaced ‹_›
    | cases h

/-- Only a replaced controller is let go of in two steps. -/
theorem forgets_nextPoint (h : (s.nextPoint p).forgets = true) :
    s.replaced.isSome ∧ p.forgets = false := by
  revert h
  fun_cases nextPoint s p <;> intro h <;>
    first
    | exact ⟨‹_›, rfl⟩
    | cases h
    | rw [not_forgets_afterRecheck] at h; cases h
    | rw [not_forgets_afterIteration] at h; cases h

theorem Settled.actAs (h : s.Settled p) (a : Actor) : (s.actAs a).Settled p :=
  ⟨h.alive, h.running, h.state, h.inUse, h.forgets⟩

theorem Settled.next (h : s.Settled p) (hover : p.isOver = false) (ha : s.Advances p s') :
    s'.Settled (s.nextPoint p) where
  alive := nextPoint_ne_crashed hover
  running := by
    rw [ha.running, isOver_nextPoint hover]
    by_cases hp : p = .lowering
    · rw [if_pos hp, decide_eq_true hp]
      rfl
    · rw [if_neg hp, decide_eq_false hp, h.running, hover]
  state := by
    rw [ha.cycles, ha.state]
    exact allows_nextPoint h.state hover
  inUse := by
    rw [ha.replaced]
    split
    · rintro ⟨⟩
    · next hp =>
      rw [Option.isSome_map]
      intro hr
      exact holdsHardware_nextPoint ((h.inUse hr).resolve_right hp) hr
  forgets := by
    intro hf
    obtain ⟨hr, hp⟩ := forgets_nextPoint hf
    rw [ha.replaced, hp, if_neg Bool.false_ne_true, Option.isSome_map]
    exact hr

end Watering

namespace World

/-! ## The invariant -/

/-- What is so in every reachable world. -/
structure Steady (w : World) : Prop where
  actor : w.system.rig.actor = .caller
  faults : w.system.rig.faults = {}
  stop : w.system.stopPending = true ↔ ∃ origin, w.caller = .waiting origin
  alone : w.system.point? = none →
    w.caller = .free ∧ w.system.running = false ∧ w.system.state = .disabled
  settled : ∀ p, w.system.point? = some p → w.system.Settled p

variable {w w' : World}

theorem point?_ne_none {s : Watering} (h : s.hasJob) : s.point? ≠ none := by
  rw [Watering.hasJob, Bool.and_eq_true] at h
  intro hnone
  rw [Option.map_eq_none_iff.mp hnone] at h
  exact Bool.false_ne_true h.2

/-- A worker that is there is at some point. -/
theorem exists_worker {s : Watering} {p : Point} (h : s.point? = some p) :
    ∃ worker, s.run = some worker ∧ worker.point = p :=
  Option.map_eq_some_iff.mp h

theorem isWorking_iff {s : Watering} :
    s.isWorking = true ↔ ∃ p, s.point? = some p ∧ p.isOver = false := by
  unfold Watering.isWorking
  cases s.point? with
  | none => simp
  | some p => simp

/-- Taking leave of a worker that did not die leaves the rest as it is. -/
theorem join_eq {s : Watering} (h : s.point? ≠ some .crashed) :
    s.join = { s with run := none } := by
  unfold Watering.join
  split
  · next hp => exact absurd hp h
  · rfl

theorem Steady.not_crashed (h : w.Steady) : w.system.point? ≠ some .crashed :=
  fun hp => (h.settled _ hp).alive rfl

/-- A worker that is over leaves a job that is not running. -/
theorem Steady.not_running (h : w.Steady) (hover : w.system.isWorking = false) :
    w.system.running = false ∧ w.system.state = .disabled := by
  cases hp : w.system.point? with
  | none => exact (h.alone hp).2
  | some p =>
    have hsettled := h.settled p hp
    have hpover : p.isOver = true := by
      rw [Watering.isWorking, hp] at hover
      simpa using hover
    refine ⟨by rw [hsettled.running, hpover]; rfl, ?_⟩
    have hstate := hsettled.state
    cases p <;> first | exact hstate | cases hpover

/-- No stop is pending for the worker of a caller who is free. -/
theorem Steady.no_stop (h : w.Steady) (hfree : w.caller = .free) :
    w.system.stopPending = false := by
  rw [Bool.eq_false_iff]
  intro hstop
  obtain ⟨origin, hwaiting⟩ := h.stop.mp hstop
  rw [hfree] at hwaiting
  cases hwaiting

/-- A step of the worker, as the tables have it. -/
theorem Steady.step (h : w.Steady) (hwork : w.system.isWorking) :
    ∃ p s', w.system.point? = some p ∧ p.isOver = false ∧
      w.system.marks = (w.system.actAs .worker).marksAt p ∧ w.system.step = s'.actAs .caller ∧
      (w.system.actAs .worker).Advances p s' := by
  obtain ⟨p, hp, hover⟩ := isWorking_iff.mp hwork
  have hmarks : w.system.marks = (w.system.actAs .worker).marksAt p := by
    rw [Watering.marks, hp]
    rfl
  obtain ⟨worker, hrun, rfl⟩ := exists_worker hp
  obtain ⟨s', hstep, ha⟩ := Watering.step_advances hrun (by rw [h.faults])
  exact ⟨worker.point, s', hp, hover, hmarks, hstep, ha⟩

theorem Steady.worked (h : w.Steady) (hwork : w.system.isWorking) (hs : w'.system = w.system.step)
    (hc : w'.caller = w.caller) : w'.Steady := by
  obtain ⟨p, s', hp, hover, -, hstep, ha⟩ := h.step hwork
  have hsettled := ((h.settled p hp).actAs .worker).next hover ha
  rw [hstep] at hs
  refine ⟨by rw [hs]; rfl, ?_, ?_, ?_, ?_⟩
  · rw [hs]
    exact ha.routine.1.symm.trans h.faults
  · rw [hs, hc, ← h.stop]
    exact iff_of_eq (congrArg (· = true) ha.stop)
  · intro hnone
    rw [hs] at hnone
    rw [show (s'.actAs .caller).point? = s'.point? from rfl, ha.point] at hnone
    cases hnone
  · intro q hq
    rw [hs] at hq ⊢
    rw [show (s'.actAs .caller).point? = s'.point? from rfl, ha.point] at hq
    obtain rfl := Option.some.inj hq
    exact hsettled.actAs .caller

theorem Steady.not_working (h : w.Steady) (hidle : w.system.running = false) :
    w.system.isWorking = false := by
  rw [Bool.eq_false_iff]
  intro hwork
  obtain ⟨p, hp, hover⟩ := isWorking_iff.mp hwork
  have hrunning := (h.settled p hp).running
  rw [hover, hidle] at hrunning
  cases hrunning

/-- A job is only started when none is running, by a new worker. -/
theorem Steady.start_eq (h : w.Steady) {flow : Option String}
    (hrefusal : w.system.refusal? flow = none) :
    w.system.running = false ∧ (w.system.start flow).2 = { w.system with
      rig := log .info s!"Watering: job started (flow '{cycledFlow}')"
        (notify .started w.system.rig)
      cycles := 0
      running := true
      run := some {} } := by
  constructor
  · unfold Watering.refusal? at hrefusal
    split at hrefusal
    · cases hrefusal
    · split at hrefusal
      · cases hrefusal
      · next hr => exact Bool.eq_false_iff.mpr hr
  · rw [Watering.start, hrefusal]
    simp only [join_eq h.not_crashed]
    rfl

/-- What a start that is accepted begins with. -/
structure BeginsAnew (s : Watering) : Prop where
  running : s.running = true
  cycles : s.cycles = 0
  run : s.run = some {}

theorem Steady.begins_anew (h : w.Steady) {flow : Option String}
    (haccepted : (w.system.start flow).1 = true) : BeginsAnew (w.system.start flow).2 := by
  cases hrefusal : w.system.refusal? flow with
  | some reason =>
    rw [Watering.start, hrefusal] at haccepted
    cases haccepted
  | none =>
    rw [(h.start_eq hrefusal).2]
    exact ⟨rfl, rfl, rfl⟩

theorem Steady.started (h : w.Steady) {flow : Option String}
    (hrefusal : w.system.refusal? flow = none) (hs : w'.system = (w.system.start flow).2)
    (hc : w'.caller = .free) : w'.Steady := by
  obtain ⟨hidle, hstart⟩ := h.start_eq hrefusal
  rw [hstart] at hs
  refine ⟨by rw [hs]; exact h.actor, by rw [hs]; exact h.faults, ?_, ?_, ?_⟩
  · rw [hs, hc]
    constructor
    · rintro ⟨⟩
    · rintro ⟨_, ⟨⟩⟩
  · rw [hs]
    rintro ⟨⟩
  · intro p hp
    rw [hs] at hp ⊢
    obtain rfl := Option.some.inj hp
    exact ⟨by rintro ⟨⟩, rfl, (h.not_running (h.not_working hidle)).2, by rintro ⟨⟩, by rintro ⟨⟩⟩

/-- The caller stops looking at a worker that is over. -/
theorem Steady.left (h : w.Steady) (hover : w.system.isWorking = false) (hc : w'.caller = .free)
    (hactor : w'.system.rig.actor = w.system.rig.actor)
    (hfaults : w'.system.rig.faults = w.system.rig.faults) (hrun : w'.system.run = none)
    (hrunning : w'.system.running = w.system.running)
    (hstate : w'.system.state = w.system.state) : w'.Steady := by
  obtain ⟨hidle, hdisabled⟩ := h.not_running hover
  have hpoint : w'.system.point? = none := by rw [Watering.point?, hrun]; rfl
  refine ⟨hactor.trans h.actor, hfaults.trans h.faults, ?_, ?_, ?_⟩
  · rw [hc, Watering.stopPending, hrun]
    constructor
    · rintro ⟨⟩
    · rintro ⟨_, ⟨⟩⟩
  · exact fun _ => ⟨hc, hrunning.trans hidle, hstate.trans hdisabled⟩
  · intro p hp
    rw [hpoint] at hp
    cases hp

/-- A stop without a job leaves a message and the worker that is over. -/
theorem Steady.declineStop_eq (h : w.Steady) (origin : StopOrigin) :
    w.system.declineStop origin = { w.system with
      run := none
      rig := if origin.reportsIdle then
        Irrigation.report "Watering" .warn
          s!"{origin.label} ignored, watering job is not running" w.system.rig
        else w.system.rig } := by
  unfold Watering.declineStop
  simp only [join_eq h.not_crashed]
  split <;> rfl

theorem Steady.concludeStop_eq (h : w.Steady) (origin : StopOrigin) :
    w.system.concludeStop origin = { w.system with
      run := none
      cycles := 0
      rig := log .info s!"Watering: {origin.label} complete" w.system.rig } := by
  rw [Watering.concludeStop, join_eq h.not_crashed]
  rfl

theorem Steady.not_working_of_no_job (h : w.Steady) (hjob : w.system.hasJob = false) :
    w.system.isWorking = false := by
  cases hr : w.system.running with
  | false => exact h.not_working hr
  | true =>
    rw [Watering.hasJob, hr, Bool.true_and, Option.isSome_eq_false_iff,
      Option.isNone_iff_eq_none] at hjob
    rw [Watering.isWorking, Watering.point?, hjob]
    rfl

theorem Steady.declined (h : w.Steady) {origin : StopOrigin} (hjob : w.system.hasJob = false)
    (hs : w'.system = w.system.declineStop origin) (hc : w'.caller = .free) : w'.Steady := by
  rw [h.declineStop_eq] at hs
  have hover := h.not_working_of_no_job hjob
  refine h.left hover hc ?_ ?_ (by rw [hs]) (by rw [hs]) (by rw [hs])
  · rw [hs]
    split <;> rfl
  · rw [hs]
    split <;> rfl

theorem Steady.joined (h : w.Steady) {origin : StopOrigin} (hover : w.system.isWorking = false)
    (hs : w'.system = w.system.concludeStop origin) (hc : w'.caller = .free) : w'.Steady := by
  rw [h.concludeStop_eq] at hs
  exact h.left hover hc (by rw [hs]; rfl) (by rw [hs]; rfl) (by rw [hs]) (by rw [hs]) (by rw [hs])

theorem Steady.asked (h : w.Steady) {origin : StopOrigin} (hfree : w.caller = .free)
    (hjob : w.system.hasJob) (hs : w'.system = w.system.announceStop origin)
    (hc : w'.caller = .raising origin) : w'.Steady := by
  refine ⟨by rw [hs]; exact h.actor, by rw [hs]; exact h.faults, ?_, ?_, ?_⟩
  · rw [hs, hc]
    refine h.stop.trans ?_
    rw [hfree]
    constructor
    · rintro ⟨_, ⟨⟩⟩
    · rintro ⟨_, ⟨⟩⟩
  · rw [hs]
    exact fun hnone => absurd hnone (point?_ne_none hjob)
  · intro p hp
    rw [hs] at hp ⊢
    obtain ⟨halive, hrunning, hstate, hinUse, hforgets⟩ := h.settled p hp
    exact ⟨halive, hrunning, hstate, hinUse, hforgets⟩

theorem point?_raiseStop (s : Watering) : s.raiseStop.point? = s.point? := by
  simp only [Watering.raiseStop, Watering.point?, Option.map_map, Function.comp_def]

/-- A caller in the middle of a stop has a worker. -/
theorem Steady.exists_run (h : w.Steady) (hc : w.caller ≠ .free) :
    ∃ worker, w.system.run = some worker := by
  cases hrun : w.system.run with
  | some worker => exact ⟨worker, rfl⟩
  | none => exact absurd (h.alone (by rw [Watering.point?, hrun]; rfl)).1 hc

theorem Steady.raised (h : w.Steady) {origin : StopOrigin} (hraising : w.caller = .raising origin)
    (hs : w'.system = w.system.raiseStop) (hc : w'.caller = .waiting origin) : w'.Steady := by
  obtain ⟨worker, hrun⟩ := h.exists_run (by rw [hraising]; rintro ⟨⟩)
  have hpoint : w'.system.point? = w.system.point? := by rw [hs, point?_raiseStop]
  have hreplaced : w'.system.replaced = w.system.replaced := by
    rw [hs, Watering.raiseStop, Watering.replaced, Watering.replaced, hrun]
    rfl
  refine ⟨by rw [hs]; exact h.actor, by rw [hs]; exact h.faults, ?_, ?_, ?_⟩
  · rw [hs, hc, Watering.raiseStop, Watering.stopPending, hrun]
    exact ⟨fun _ => ⟨origin, rfl⟩, fun _ => rfl⟩
  · rw [hpoint, Watering.point?, hrun]
    rintro ⟨⟩
  · intro p hp
    rw [hpoint] at hp
    obtain ⟨halive, hrunning, hstate, hinUse, hforgets⟩ := h.settled p hp
    rw [← hreplaced] at hinUse hforgets
    exact ⟨halive, by rw [hs]; exact hrunning, by rw [hs]; exact hstate, hinUse, hforgets⟩

theorem Steady.kept (h : w.Steady) (hs : w.system.SameJob w'.system)
    (hc : w'.caller = w.caller) : w'.Steady := by
  refine ⟨hs.routine.actor.trans h.actor, hs.routine.faults.trans h.faults, ?_, ?_, ?_⟩
  · rw [hs.stop, hc]
    exact h.stop
  · rw [hs.point, hc, hs.running, hs.state]
    exact h.alone
  · intro p hp
    rw [hs.point] at hp
    obtain ⟨halive, hrunning, hstate, hinUse, hforgets⟩ := h.settled p hp
    refine ⟨halive, hs.running.trans hrunning, by rw [hs.cycles, hs.state]; exact hstate, ?_, ?_⟩
    · rcases hs.replaced with he | ⟨huse, -⟩
      · rw [he]
        exact hinUse
      · obtain ⟨worker, hrun, rfl⟩ := exists_worker hp
        rw [Watering.hardwareInUse, hrun, Bool.and_eq_true] at huse
        exact fun _ => .inl huse.1
    · rcases hs.replaced with he | ⟨-, hnew⟩
      · rw [he]
        exact hforgets
      · exact fun _ => hnew

theorem Steady.next {m : Move} (h : w.Steady) (hm : w.next m = some w') : w'.Steady := by
  cases next_turn hm with
  | worked hwork hs hc ht => exact h.worked hwork hs hc
  | started flow hfree hrefusal hs hc ht => exact h.started hrefusal hs hc
  | asked origin hfree hjob hs hc ht => exact h.asked hfree hjob hs hc
  | declined origin hfree hjob hs hc ht => exact h.declined hjob hs hc
  | raised origin hraising hs hc ht => exact h.raised hraising hs hc
  | joined origin hwaiting hover hs hc ht => exact h.joined hover hs hc
  | kept hs hc ht => exact h.kept hs hc

theorem Steady.run (h : w.Steady) {moves : List Move} (hrun : World.run moves w = some w') :
    w'.Steady :=
  run_induction (A := fun _ => True) (fun h _ hm => h.next hm) h moves (fun _ _ => trivial) hrun

/-! ## The beginning -/

theorem routine_guests (before : List GuestMove) :
    ∀ (r : Rig) (held : List Output),
      r.Routine (before.foldl (fun x g => g.apply x) (r, held)).1 := by
  induction before with
  | nil => exact fun r _ => .refl r
  | cons g rest ih => exact fun r held => (Watering.routine_guest g r held).trans (ih ..)

/-- A wired system has a fresh job, and a controller on the rig it was wired on. -/
theorem wire_eq_ok {rig : Rig} {pins : Each Pin} {timing : Timing} {enabled : Each Bool}
    {s : Watering} (h : Watering.wire rig pins timing enabled = .ok s) :
    ∃ rig', Controller.wire pins rig = (.ok s.hardware, rig') ∧ rig'.Routine s.rig ∧
      s.rig.chip = rig'.chip ∧ s = { rig := s.rig, hardware := s.hardware, timing, enabled } := by
  unfold Watering.wire at h
  rcases hwire : Controller.wire pins rig with ⟨e | c, rig'⟩ <;> rw [hwire] at h
  · cases h
  · obtain rfl := Except.ok.inj h
    exact ⟨rig', rfl, (Rig.Routine.log ..).trans (.log ..), rfl, rfl⟩

/-- **The job of a reachable world is as its worker's point says.** -/
theorem Reachable.steady (h : w.Reachable) : w.Steady := by
  induction h with
  | @wired path lines pins timing enabled s before rig guests hbefore hwired =>
    obtain ⟨rig', hwire, hroutine, -, hs⟩ := wire_eq_ok hwired
    have hguests := routine_guests before (Rig.openChip path lines) []
    have hw := Rig.routine_wire pins rig
    rw [hbefore] at hguests
    rw [hwire] at hw
    have hall := (hguests.trans hw).trans hroutine
    refine ⟨hall.actor, hall.faults, ?_, ?_, ?_⟩
    · rw [hs]
      constructor
      · rintro ⟨⟩
      · rintro ⟨_, ⟨⟩⟩
    · rw [hs]
      exact fun _ => ⟨rfl, rfl, rfl⟩
    · rw [hs]
      rintro _ ⟨⟩
  | move _ hm ih => exact ih.next hm

/-! ## Counts fit

A count of cycles is a number without end here, and one of 64 bits in the program. They are the
same as long as a run has fewer moves than there are such numbers, because a move adds one at
most. -/

/-- The count of cycles and all counts that were told are at most `n`. -/
structure CountsTo (n : Nat) (w : World) : Prop where
  cycles : w.system.cycles ≤ n
  told : ∀ e k, .told e ∈ w.trace → e.count? = some k → k ≤ n

variable {n : Nat}

theorem CountsTo.mono {n' : Nat} (h : w.CountsTo n) (hn : n ≤ n') : w.CountsTo n' :=
  ⟨Nat.le_trans h.cycles hn, fun e k hmem hk => Nat.le_trans (h.told e k hmem hk) hn⟩

/-- Nothing is counted, and no count is told. -/
theorem CountsTo.stay (h : w.CountsTo n) (hcycles : w'.system.cycles = w.system.cycles)
    (ht : w'.trace = w.trace) : w'.CountsTo n := by
  constructor
  · rw [hcycles]
    exact h.cycles
  · rw [ht]
    exact h.told

/-- A count that a step tells is at most one more than the count before. -/
theorem count_le_of_mem_marksAt {s : Watering} {p : Point} {e : Event} {k : Nat}
    (hmem : .told e ∈ s.marksAt p) (hk : e.count? = some k) : k ≤ s.cycles + 1 := by
  cases p with
  | counting =>
    obtain rfl := Mark.told.inj (List.mem_singleton.mp hmem)
    exact Nat.le_of_eq (Option.some.inj hk).symm
  | finishing =>
    obtain rfl := Mark.told.inj (List.mem_singleton.mp hmem)
    exact Nat.le_succ_of_le (Nat.le_of_eq (Option.some.inj hk).symm)
  | _ =>
    simp only [Watering.marksAt, Watering.entering] at hmem
    (try split at hmem) <;> simp at hmem
    all_goals
      subst hmem
      cases hk

theorem CountsTo.worked (h : w.CountsTo n) (hsteady : w.Steady) (hwork : w.system.isWorking)
    (hs : w'.system = w.system.step) (ht : w'.trace = w.trace ++ w.system.marks) :
    w'.CountsTo (n + 1) := by
  obtain ⟨p, s', -, -, hmarks, hstep, ha⟩ := hsteady.step hwork
  constructor
  · have hcycles : w'.system.cycles = if p = .counting then w.system.cycles + 1
        else w.system.cycles := by
      rw [hs, hstep]
      exact ha.cycles
    have hbefore := h.cycles
    rw [hcycles]
    split <;> omega
  · intro e k hmem hk
    rw [ht, hmarks] at hmem
    rcases List.mem_append.mp hmem with hold | hnew
    · exact Nat.le_succ_of_le (h.told e k hold hk)
    · exact Nat.le_trans (count_le_of_mem_marksAt hnew hk) (Nat.succ_le_succ h.cycles)

/-- A move adds one at most. -/
theorem CountsTo.next (h : w.CountsTo n) (hsteady : w.Steady) {m : Move}
    (hm : w.next m = some w') : w'.CountsTo (n + 1) := by
  cases next_turn hm with
  | worked hwork hs hc ht => exact h.worked hsteady hwork hs ht
  | started flow hfree hrefusal hs hc ht =>
    refine ⟨?_, fun e k hmem hk => ?_⟩
    · rw [hs, (hsteady.start_eq hrefusal).2]
      exact Nat.zero_le _
    · rw [ht] at hmem
      rcases List.mem_append.mp hmem with hold | hnew
      · exact Nat.le_succ_of_le (h.told e k hold hk)
      · obtain rfl := Mark.told.inj (List.mem_singleton.mp hnew)
        cases hk
  | asked origin hfree hjob hs hc ht => exact (h.stay (by rw [hs]; rfl) ht).mono (Nat.le_succ n)
  | declined origin hfree hjob hs hc ht =>
    exact (h.stay (by rw [hs, hsteady.declineStop_eq]) ht).mono (Nat.le_succ n)
  | raised origin hraising hs hc ht => exact (h.stay (by rw [hs]; rfl) ht).mono (Nat.le_succ n)
  | joined origin hwaiting hover hs hc ht =>
    refine ⟨?_, fun e k hmem hk => Nat.le_succ_of_le (h.told e k (ht ▸ hmem) hk)⟩
    rw [hs, hsteady.concludeStop_eq]
    exact Nat.zero_le _
  | kept hs hc ht => exact (h.stay hs.cycles ht).mono (Nat.le_succ n)

theorem CountsTo.run (h : w.CountsTo n) (hsteady : w.Steady) {moves : List Move}
    (hrun : World.run moves w = some w') : w'.CountsTo (n + moves.length) := by
  induction moves generalizing w n with
  | nil =>
    obtain rfl := Option.some.inj hrun
    exact h
  | cons m rest ih =>
    obtain ⟨w₁, hm, hrest⟩ := Option.bind_eq_some_iff.mp hrun
    rw [List.length_cons, Nat.add_comm rest.length, ← Nat.add_assoc]
    exact ih (h.next hsteady hm) (hsteady.next hm) hrest

/-- **Counts fit in 64 bits** during so many moves from a world that has told nothing yet. -/
theorem counts_fit {moves : List Move} (h : w.Reachable) (hcycles : w.system.cycles = 0)
    (htrace : w.trace = []) (hmoves : moves.length < UInt64.size)
    (hrun : World.run moves w = some w') : w'.system.cycles < UInt64.size ∧
      ∀ e k, .told e ∈ w'.trace → e.count? = some k → k < UInt64.size := by
  have hnone : w.CountsTo 0 := by
    refine ⟨Nat.le_of_eq hcycles, fun e k hmem _ => ?_⟩
    rw [htrace] at hmem
    cases hmem
  have hcounts := hnone.run h.steady hrun
  rw [Nat.zero_add] at hcounts
  exact ⟨Nat.lt_of_le_of_lt hcounts.cycles hmoves,
    fun e k hmem hk => Nat.lt_of_le_of_lt (hcounts.told e k hmem hk) hmoves⟩

end World

end Irrigation
