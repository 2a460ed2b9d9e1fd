import Irrigation.Proofs.Worker.Hurry

/-!
# A worker with nothing to water

When both devices are disabled and nobody asks for a stop, the job ends by itself. How soon depends
on what the worker knows already: the flags that it has read for the iteration under way, and those
that it has read again after the activation. `Point.left` bounds the steps that it still takes. What
it shows on the way is bounded by budgets: it begins one more iteration if it found a device still
enabled when it read again (`Point.mayBegin`), counts one more cycle then (`Point.mayCount`), and
switches on what it had found enabled at the head (`Point.armed`).
-/

namespace Irrigation

variable {s : Watering} {p : Point} {role : Role}

/-- Both devices are disabled, and no stop is pending. -/
structure Watering.Fades (s : Watering) : Prop where
  enabled : s.enabled = .both false
  stop : s.stopPending = false

/-! ## To the end of the job -/

/-- How many steps the worker takes at most to its end, once it fades. -/
def Point.left : Point → Nat
  | .starting => 25
  | .loopHead => 24
  | .takingHardware => 23
  | .takingTiming => 22
  | .readingValve => 21
  | .readingPump _ => 20
  | .readingActivation _ => 19
  | .enteringIrrigation .. => 18
  | .openingValve .. => 17
  | .startingPump .. => 16
  | .irrigating .. => 15
  | .enteringIdle .. => 14
  | .recheckingValve _ => 13
  -- From here on the worker knows whether another iteration will follow, which is why it may have
  -- more steps left than at the head of this one.
  | .recheckingPump _ valve => if valve then 41 else 12
  | .switchingOff _ now r => (if now.any then 38 else 9) + if r = .valve then 2 else 0
  | .reportingOff _ now r => (if now.any then 37 else 8) + if r = .valve then 2 else 0
  | .deciding _ now => if now.any then 36 else 7
  | .readingDeactivation _ => 35
  | .closingValve _ rest => if rest.isSome then 34 else 12
  | .choosingGap _ rest => if rest.isSome then 33 else 11
  | .readingSeparation rest => if rest.isSome then 32 else 10
  | .openingGap _ rest => if rest.isSome then 31 else 9
  | .sleepingGap _ rest => if rest.isSome then 30 else 8
  | .waitingGap _ rest => if rest.isSome then 30 else 8
  | .stoppingPump _ rest => if rest.isSome then 29 else 7
  | .resting _ => 28
  | .counting => 27
  | .lettingGo again => if again then 26 else 6
  | .lettingGoPump again => if again then 25 else 5
  | .enteringTearDown => 4
  | .enteringDisabled => 3
  | .finishing => 2
  | .lowering => 1
  | .ended => 0
  | .crashed => 0

theorem left_afterRecheck (on now : Each Bool) (r : Role) :
    (Watering.afterRecheck on now r).left =
      (if now.any then 36 else 7) + if r = .valve then 2 else 0 := by
  cases r <;> cases h : now.any <;> simp [Watering.afterRecheck, Point.left, h]

theorem left_afterIteration (again : Bool) :
    (Watering.afterIteration again).left = if again then 24 else 4 := by
  cases again <;> rfl

/-- **Every step of a worker that fades brings it nearer to its end.** -/
theorem left_nextPoint (h : s.Fades) (hover : p.isOver = false) :
    (s.nextPoint p).left < p.left := by
  obtain ⟨henabled, hstop⟩ := h
  -- Where the worker reads a flag or the stop signal, it reads that of `h`; elsewhere it goes by
  -- what it has read before.
  fun_cases Watering.nextPoint s p <;>
    grind [Point.left, Point.isOver, left_afterRecheck, left_afterIteration, Each.both, Each.any]

theorem left_le (p : Point) : p.left ≤ 41 := by
  unfold Point.left
  split <;> grind

/-! ## What it still shows -/

/-- Whether the worker has decided for a deactivation wait, and has yet to count it. -/
def Point.mayRest : Point → Bool
  | .readingDeactivation _ => true
  | .closingValve _ rest => rest.isSome
  | .choosingGap _ rest => rest.isSome
  | .readingSeparation rest => rest.isSome
  | .openingGap _ rest => rest.isSome
  | .sleepingGap _ rest => rest.isSome
  | .waitingGap _ rest => rest.isSome
  | .stoppingPump _ rest => rest.isSome
  | .resting _ => true
  | p => p.counts

/-- Whether a device was still enabled when the flags were read again, or may have been. -/
def Point.mayCount : Point → Bool
  | .recheckingPump _ valve => valve
  | .switchingOff _ now _ => now.any
  | .reportingOff _ now _ => now.any
  | .deciding _ now => now.any
  | p => p.mayRest

/-- Whether one more iteration may begin. -/
def Point.mayBegin : Point → Bool
  | .starting => true
  | .loopHead => true
  | .lettingGo again => again
  | .lettingGoPump again => again
  | p => p.mayCount

/-- Whether an iteration has begun whose flags have not been read. -/
def Point.unread : Point → Bool
  | .takingHardware => true
  | .takingTiming => true
  | .readingValve => true
  | _ => false

/-- Whether the worker has found a device enabled at the head of its iteration, and has yet to
switch it on. -/
def Point.armed (role : Role) : Point → Bool
  | .readingPump valve => role = .valve && valve
  | .readingActivation on => on.get role
  | .enteringIrrigation on _ => on.get role
  | .openingValve on _ => on.get role
  | .startingPump on _ => role = .pump && on.pump
  | _ => false

/-- Whether a mark says that a device is switched on. -/
def Mark.activates (role : Role) : Mark → Bool
  | .call r on _ => on && r = role
  | _ => false

/-- The step that begins an iteration. -/
def Point.begins : Point → Bool
  | .loopHead => true
  | _ => false

/-- The step that switches a device on. -/
def Point.strikes (role : Role) : Point → Bool
  | .openingValve on _ => role = .valve && on.valve
  | .startingPump on _ => role = .pump && on.pump
  | _ => false

theorem mayCount_afterRecheck (on now : Each Bool) (r : Role) :
    (Watering.afterRecheck on now r).mayCount = now.any := by
  cases r <;> rfl

theorem mayBegin_afterRecheck (on now : Each Bool) (r : Role) :
    (Watering.afterRecheck on now r).mayBegin = now.any := by
  cases r <;> rfl

theorem not_mayCount_afterIteration (again : Bool) :
    (Watering.afterIteration again).mayCount = false := by
  cases again <;> rfl

theorem mayBegin_afterIteration (again : Bool) :
    (Watering.afterIteration again).mayBegin = again := by
  cases again <;> rfl

theorem not_armed_afterRecheck (on now : Each Bool) (r : Role) :
    (Watering.afterRecheck on now r).armed role = false := by
  cases r <;> rfl

theorem not_armed_afterIteration (again : Bool) :
    (Watering.afterIteration again).armed role = false := by
  cases again <;> rfl

/-- An iteration may still begin only if it might have begun already, but did not. -/
theorem mayBegin_nextPoint (h : s.Fades) :
    (s.nextPoint p).mayBegin = true → p.mayBegin = true ∧ p.begins = false := by
  obtain ⟨henabled, hstop⟩ := h
  fun_cases Watering.nextPoint s p <;>
    grind [Point.mayBegin, Point.mayCount, Point.mayRest, Point.counts, Point.begins,
      mayBegin_afterRecheck, mayBegin_afterIteration, Each.both, Each.any]

/-- At most one more iteration begins. -/
theorem budget_began : Budget Watering.Fades (· == .began) Point.mayBegin := by
  refine budget_of Point.begins ?_ (fun _ _ => mayBegin_nextPoint) ?_
  · rintro s p ⟨-, hstop⟩
    fun_cases Watering.marksAt s p <;> grind [Watering.entering, Point.begins]
  · intro p hp
    unfold Point.begins at hp
    split at hp
    · rfl
    · cases hp

/-- A cycle may still be counted only if it might have been already, but was not. -/
theorem mayCount_nextPoint (h : s.Fades) :
    (s.nextPoint p).mayCount = true → p.mayCount = true ∧ p.counts = false := by
  obtain ⟨henabled, hstop⟩ := h
  fun_cases Watering.nextPoint s p <;>
    grind [Point.mayCount, Point.mayRest, Point.counts, mayCount_afterRecheck,
      not_mayCount_afterIteration, Each.both, Each.any]

/-- At most one more cycle is counted. -/
theorem budget_counted : Budget Watering.Fades Mark.completes Point.mayCount := by
  refine budget_of Point.counts ?_ (fun _ _ => mayCount_nextPoint) ?_
  · rintro s p ⟨-, -⟩
    fun_cases Watering.marksAt s p <;>
      grind [Watering.entering, Point.counts, Mark.completes, Event.completes]
  · intro p hp
    unfold Point.counts at hp
    split at hp
    · rfl
    · cases hp

/-- A device may still be switched on only if it might have been already, but was not. -/
theorem armed_nextPoint (h : s.Fades) :
    (s.nextPoint p).armed role = true → p.armed role = true ∧ p.strikes role = false := by
  obtain ⟨henabled, hstop⟩ := h
  cases role <;> fun_cases Watering.nextPoint s p <;>
    grind [Point.armed, Point.strikes, not_armed_afterRecheck, not_armed_afterIteration,
      Each.both, Each.get]

/-- A device is switched on at most once more, and only if it was found enabled at the head of the
iteration under way. -/
theorem budget_activates (role : Role) :
    Budget Watering.Fades (Mark.activates role) (Point.armed role) := by
  refine budget_of (Point.strikes role) ?_ (fun _ _ => armed_nextPoint) ?_
  · rintro s p ⟨-, -⟩
    fun_cases Watering.marksAt s p <;>
      grind [Watering.entering, Point.strikes, Mark.activates]
  · intro p hp
    unfold Point.strikes at hp
    split at hp
    · cases role
      · exact hp
      · cases hp
    · cases role
      · cases hp
      · exact hp
    · cases hp

/-- No iteration may begin after one that has begun and whose flags have not been read. -/
theorem not_mayBegin_of_unread (h : p.unread = true) : p.mayBegin = false := by
  cases p <;> first | rfl | cases h

/-- Nor after one that has a device yet to be switched on. -/
theorem not_mayBegin_of_armed (h : p.armed role = true) : p.mayBegin = false := by
  cases p <;> first | rfl | cases h

/-- A step counts a cycle if it shows one. -/
theorem countP_completes_marksAt (s : Watering) (p : Point) :
    (s.marksAt p).countP Mark.completes = if p = .counting then 1 else 0 := by
  fun_cases Watering.marksAt s p <;> grind [Watering.entering, Mark.completes, Event.completes]

end Irrigation
