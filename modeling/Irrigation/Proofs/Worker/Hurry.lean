import Irrigation.Proofs.Worker.Marks

/-!
# How long the worker takes

The worker keeps the lines for a few steps only (`Point.heldFor`). Once a stop is pending it is not
far from its end either: `Point.toGo` bounds the steps that it still takes. What it shows on the
way is bounded too. A budget says for each point whether a mark of a kind may still come, and a
worker in a hurry keeps to it (`Affords`).
-/

namespace Irrigation

variable {s : Watering} {p : Point}

/-! ## To the end of a sequence -/

/-- How many steps the worker takes at most until it lets go of the lines. -/
def Point.heldFor : Point → Nat
  | .startingPump .. => 1
  | .choosingGap .. => 5
  | .readingSeparation _ => 4
  | .openingGap .. => 3
  | .sleepingGap .. => 2
  | .waitingGap .. => 2
  | .stoppingPump .. => 1
  | .lettingGoPump _ => 1
  | _ => 0

theorem not_isOver_of_holdsLock (h : p.holdsLock = true) : p.isOver = false := by
  cases p <;> first | rfl | cases h

theorem heldFor_pos (h : p.holdsLock = true) : 0 < p.heldFor := by
  cases p <;> first | exact Nat.succ_pos _ | cases h

theorem heldFor_le (p : Point) : p.heldFor ≤ 5 := by
  unfold Point.heldFor
  split <;> decide

/-- Every step of a worker that keeps the lines brings it nearer to letting go of them. -/
theorem heldFor_nextPoint (h : p.holdsLock = true) : (s.nextPoint p).heldFor < p.heldFor := by
  cases p with
  | choosingGap on rest =>
    rw [Watering.nextPoint]
    split
    · exact Nat.lt_succ_self 4
    · exact (by decide : 1 < 5)
  | openingGap ms rest =>
    rw [Watering.nextPoint]
    split <;> exact Nat.lt_succ_self 2
  | stoppingPump on rest => cases rest <;> exact Nat.one_pos
  | lettingGoPump again => cases again <;> exact Nat.one_pos
  | startingPump on ms => exact Nat.one_pos
  | readingSeparation rest => exact Nat.lt_succ_self 3
  | sleepingGap ms rest => exact Nat.lt_succ_self 1
  | waitingGap ms rest => exact Nat.lt_succ_self 1
  | _ => cases h

/-! ## To the end of a stopped job -/

/-- How many steps a worker in a hurry takes at most to its end. -/
def Point.toGo : Point → Nat
  | .starting => 6
  | .loopHead => 5
  | .takingHardware => 32
  | .takingTiming => 31
  | .readingValve => 30
  | .readingPump _ => 29
  | .readingActivation _ => 28
  | .enteringIrrigation .. => 27
  | .openingValve .. => 26
  | .startingPump .. => 25
  | .irrigating .. => 24
  | .enteringIdle .. => 23
  | .recheckingValve _ => 22
  | .recheckingPump .. => 21
  | .switchingOff _ _ r => if r = .valve then 20 else 18
  | .reportingOff _ _ r => if r = .valve then 19 else 17
  | .deciding .. => 16
  | .readingDeactivation _ => 15
  | .closingValve .. => 14
  | .choosingGap .. => 13
  | .readingSeparation _ => 12
  | .openingGap .. => 11
  | .sleepingGap .. => 10
  | .waitingGap .. => 10
  | .stoppingPump .. => 9
  | .resting _ => 8
  | .counting => 8
  | .lettingGo _ => 7
  | .lettingGoPump _ => 6
  | .enteringTearDown => 4
  | .enteringDisabled => 3
  | .finishing => 2
  | .lowering => 1
  | .ended => 0
  | .crashed => 0

/-- Whether devices may still be switched on when a stop comes: the test at the head of the
iteration is passed. -/
def Point.mayActivate : Point → Bool
  | .takingHardware => true
  | .takingTiming => true
  | .readingValve => true
  | .readingPump _ => true
  | .readingActivation _ => true
  | .enteringIrrigation .. => true
  | .openingValve .. => true
  | _ => false

/-- Whether a gap that nothing cuts short may still come when a stop comes. -/
def Point.maySleep : Point → Bool
  | .irrigating .. => true
  | .startingPump .. => true
  | .enteringIdle .. => true
  | .recheckingValve _ => true
  | .recheckingPump .. => true
  | .switchingOff .. => true
  | .reportingOff .. => true
  | .deciding .. => true
  | .readingDeactivation _ => true
  | .closingValve .. => true
  | .choosingGap .. => true
  | .readingSeparation _ => true
  | .openingGap .. => true
  | .sleepingGap .. => true
  | p => p.mayActivate

/-- Whether a mark says that something was waited for in full. -/
def Mark.isFullWait : Mark → Bool
  | .waited _ _ _ full => full
  | _ => false

/-- Whether a mark says that one of the long waits lasted its length. -/
def Mark.isLongWait : Mark → Bool
  | .waited which _ _ full => full && which != .separation
  | _ => false

theorem toGo_afterRecheck (on now : Each Bool) (r : Role) :
    (Watering.afterRecheck on now r).toGo = if r = .valve then 18 else 16 := by
  cases r <;> rfl

theorem toGo_afterIteration (again : Bool) : (Watering.afterIteration again).toGo < 6 := by
  cases again <;> decide

/-- **Every step of a worker in a hurry brings it nearer to its end.** -/
theorem toGo_nextPoint (hstop : s.stopPending = true) (h : p.isOver = false) :
    (s.nextPoint p).toGo < p.toGo := by
  fun_cases Watering.nextPoint s p <;>
    grind [Point.toGo, Point.isOver, toGo_afterRecheck, toGo_afterIteration]

theorem toGo_le (p : Point) : p.toGo ≤ 32 := by
  unfold Point.toGo
  split <;> first | decide | (split <;> decide)

/-! ## Budgets -/

/-- While `holds` is so, a worker shows at most one more mark of a kind, and none unless `may`
holds of its point. -/
def Budget (holds : Watering → Prop) (counts : Mark → Bool) (may : Point → Bool) : Prop :=
  ∀ (s : Watering) (p : Point), holds s →
    (s.marksAt p).countP counts + (may (s.nextPoint p)).toNat ≤ (may p).toNat

/-- The mark is shown at the points `pays`, after which it may not be shown again. -/
theorem budget_of {holds : Watering → Prop} {counts : Mark → Bool} {may : Point → Bool}
    (pays : Point → Bool)
    (hshows : ∀ (s : Watering) p, holds s → (s.marksAt p).countP counts ≤ (pays p).toNat)
    (hnext : ∀ (s : Watering) p, holds s → may (s.nextPoint p) = true →
      may p = true ∧ pays p = false)
    (hpays : ∀ p, pays p = true → may p = true) : Budget holds counts may := by
  intro s p hs
  have hle := hshows s p hs
  cases hp : pays p with
  | true =>
    rw [hp] at hle
    cases hn : may (s.nextPoint p) with
    | true =>
      rw [(hnext s p hs hn).2] at hp
      cases hp
    | false =>
      rw [hpays p hp]
      exact hle
  | false =>
    rw [hp] at hle
    cases hn : may (s.nextPoint p) with
    | true =>
      rw [(hnext s p hs hn).1, Nat.le_zero.mp hle]
      exact Nat.le_refl 1
    | false =>
      rw [Nat.le_zero.mp hle]
      exact Nat.zero_le _

/-- A worker in a hurry shows at most one more mark of a kind, and none unless `may` holds of its
point. -/
def Affords (counts : Mark → Bool) (may : Point → Bool) : Prop :=
  ∀ (s : Watering) (p : Point), s.stopPending = true →
    (s.marksAt p).countP counts + (may (s.nextPoint p)).toNat ≤ (may p).toNat

theorem affords_of {counts : Mark → Bool} {may : Point → Bool} (pays : Point → Bool)
    (hshows : ∀ (s : Watering) p, s.stopPending = true →
      (s.marksAt p).countP counts ≤ (pays p).toNat)
    (hnext : ∀ (s : Watering) p, s.stopPending = true → may (s.nextPoint p) = true →
      may p = true ∧ pays p = false)
    (hpays : ∀ p, pays p = true → may p = true) : Affords counts may :=
  budget_of pays hshows hnext hpays

/-- No iteration begins. -/
theorem affords_began : Affords (· == .began) fun _ => false := by
  intro s p hstop
  have hnone : (s.marksAt p).countP (· == .began) = 0 := by
    fun_cases Watering.marksAt s p <;> grind [Watering.entering]
  exact Nat.le_of_eq hnone

/-- None of the long waits lasts its length. -/
theorem affords_longWait : Affords Mark.isLongWait fun _ => false := by
  intro s p hstop
  have hnone : (s.marksAt p).countP Mark.isLongWait = 0 := by
    fun_cases Watering.marksAt s p <;> grind [Watering.entering, Mark.isLongWait]
  exact Nat.le_of_eq hnone

/-- The step that switches the first device on. -/
def Point.activates : Point → Bool
  | .openingValve .. => true
  | _ => false

theorem not_mayActivate_afterRecheck (on now : Each Bool) (r : Role) :
    (Watering.afterRecheck on now r).mayActivate = false := by
  cases r <;> rfl

theorem not_mayActivate_afterIteration (again : Bool) :
    (Watering.afterIteration again).mayActivate = false := by
  cases again <;> rfl

/-- Devices are switched on at most once more, and only past the head of the iteration. -/
theorem affords_activating : Affords (· == .activating) Point.mayActivate := by
  refine affords_of Point.activates ?_ ?_ ?_
  · intro s p _
    fun_cases Watering.marksAt s p <;> grind [Watering.entering, Point.activates]
  · intro s p hstop
    fun_cases Watering.nextPoint s p <;>
      grind [Point.mayActivate, Point.activates, not_mayActivate_afterRecheck,
        not_mayActivate_afterIteration]
  · intro p hp
    cases p <;> first | rfl | cases hp

/-- The worker is about to count a cycle. -/
def Point.counts : Point → Bool
  | .counting => true
  | _ => false

theorem not_counts_afterRecheck (on now : Each Bool) (r : Role) :
    (Watering.afterRecheck on now r).counts = false := by
  cases r <;> rfl

theorem not_counts_afterIteration (again : Bool) :
    (Watering.afterIteration again).counts = false := by
  cases again <;> rfl

/-- A cycle is counted only if its deactivation wait is over. -/
theorem affords_completes : Affords Mark.completes Point.counts := by
  refine affords_of Point.counts ?_ ?_ fun _ => id
  · intro s p _
    fun_cases Watering.marksAt s p <;>
      grind [Watering.entering, Point.counts, Mark.completes, Event.completes]
  · intro s p hstop
    fun_cases Watering.nextPoint s p <;>
      grind [Point.counts, not_counts_afterRecheck, not_counts_afterIteration]

/-- The worker is in a gap that nothing cuts short. -/
def Point.sleeps : Point → Bool
  | .sleepingGap .. => true
  | _ => false

theorem not_maySleep_afterIteration (again : Bool) :
    (Watering.afterIteration again).maySleep = false := by
  cases again <;> rfl

/-- Nothing is waited for in full but one gap. -/
theorem affords_fullWait : Affords Mark.isFullWait Point.maySleep := by
  refine affords_of Point.sleeps ?_ ?_ ?_
  · intro s p hstop
    fun_cases Watering.marksAt s p <;>
      grind [Watering.entering, Point.sleeps, Mark.isFullWait]
  · intro s p hstop
    fun_cases Watering.nextPoint s p <;>
      grind [Point.maySleep, Point.mayActivate, Point.sleeps, not_maySleep_afterIteration]
  · intro p hp
    cases p <;> first | rfl | cases hp

end Irrigation
