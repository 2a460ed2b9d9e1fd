import Irrigation.Proofs.Worker.Hurry
import Irrigation.Proofs.Worker.Iteration
import Irrigation.Proofs.World.Record

/-!
# Iterations among other moves

Where an iteration begins and where it ends (`outside_next`, `Iteration.letsGo_of_end`), and what
others can do meanwhile: nobody takes the controller of an iteration away between two calls of one
sequence (`Steady.iterationHardware_of_held`), and a move of lines waits for the end of the sequence
(`Steady.awaitLines`).
-/

namespace Irrigation

/-- Whether an iteration is under way. -/
def Point.inIteration : Point → Bool
  | .takingHardware => true
  | p => p.holdsHardware || p.forgets

/-- Outside of iterations no controller is in use. -/
theorem Point.of_not_inIteration {p : Point} (h : p.inIteration = false) :
    p.holdsHardware = false ∧ p.forgets = false := by
  cases p <;> first | exact ⟨rfl, rfl⟩ | cases h

/-- An iteration of which nothing is known yet. -/
def Iteration.blank : Iteration :=
  ⟨.both true, 0, false, .both true, ⟨0, false, false⟩, 0, false, 0, false⟩

/-- An iteration is at a point of an iteration. -/
theorem Iteration.At.inIteration {i : Iteration} {p : Point} {part : List Mark}
    (h : i.At p part) : p.inIteration = true := by
  cases h <;> rfl

/-- An iteration ends where it lets go of its controller. -/
theorem Iteration.letsGo_of_end {s : Watering} {p : Point} (hin : p.inIteration = true)
    (hoff : (s.nextPoint p).inIteration = false) :
    (∃ again, p = .lettingGo again) ∨ ∃ again, p = .lettingGoPump again := by
  revert hoff
  fun_cases Watering.nextPoint s p <;> intro hoff <;>
    first
    | exact .inl ⟨_, rfl⟩
    | exact .inr ⟨_, rfl⟩
    | exact absurd hin Bool.false_ne_true
    | exact absurd hoff.symm Bool.false_ne_true
    | next r _ => cases r <;> exact absurd hoff.symm Bool.false_ne_true
    | next r => cases r <;> exact absurd hoff.symm Bool.false_ne_true

namespace World

variable {w w' : World}

/-- Outside of iterations nothing is shown, and an iteration begins with its first mark. -/
theorem outside_next {s : Watering} {p : Point} (h : p.inIteration = false)
    (hover : p.isOver = false) :
    (shape (s.marksAt p) = [] ∧ (s.nextPoint p).inIteration = false) ∨
      (shape (s.marksAt p) = [.began] ∧ s.nextPoint p = .takingHardware) := by
  cases p with
  | starting => exact .inl ⟨rfl, rfl⟩
  | loopHead =>
    rw [Watering.marksAt, Watering.nextPoint]
    split
    · exact .inl ⟨rfl, rfl⟩
    · exact .inr ⟨rfl, rfl⟩
  | enteringTearDown => exact .inl ⟨Iteration.shape_entering .., rfl⟩
  | enteringDisabled => exact .inl ⟨Iteration.shape_entering .., rfl⟩
  | finishing => exact .inl ⟨rfl, rfl⟩
  | lowering => exact .inl ⟨rfl, rfl⟩
  | ended => cases hover
  | crashed => cases hover
  | _ => cases h

theorem not_inIteration_afterIteration (again : Bool) :
    (Watering.afterIteration again).inIteration = false := by
  cases again <;> rfl

/-! ## The lines are the worker's during a sequence -/

theorem exists_point_of_linesHeld {s : Watering} (h : s.linesHeld = true) :
    ∃ p, s.point? = some p ∧ p.holdsLock = true := by
  unfold Watering.linesHeld at h
  cases hp : s.point? with
  | none =>
    rw [hp] at h
    cases h
  | some p =>
    rw [hp] at h
    exact ⟨p, rfl, h⟩

theorem isWorking_of_linesHeld {s : Watering} (h : s.linesHeld = true) : s.isWorking = true := by
  obtain ⟨p, hp, hlock⟩ := exists_point_of_linesHeld h
  exact isWorking_iff.mpr ⟨p, hp, not_isOver_of_holdsLock hlock⟩

/-- A job whose worker holds the lines is running. -/
theorem Steady.running_of_held (h : w.Steady) (hheld : w.system.linesHeld = true) :
    w.system.running = true ∧ w.system.hasJob = true := by
  obtain ⟨p, hp, hlock⟩ := exists_point_of_linesHeld hheld
  obtain ⟨worker, hrun, -⟩ := exists_worker hp
  have hrunning : w.system.running = true := by
    rw [(h.settled p hp).running, not_isOver_of_holdsLock hlock]
    rfl
  refine ⟨hrunning, ?_⟩
  rw [Watering.hasJob, hrunning, hrun]
  rfl

/-- A call of the caller leaves the controller of the iteration alone during a sequence. -/
theorem Steady.call_of_held (h : w.Steady) {c : Call} (hc : w.call c = some w')
    (hheld : w.system.linesHeld = true) :
    w'.system.iterationHardware = w.system.iterationHardware := by
  obtain ⟨hrunning, hjob⟩ := h.running_of_held hheld
  cases c with
  | start flow =>
    obtain rfl := Option.some.inj hc
    cases hrefusal : w.system.refusal? flow with
    | none =>
      rw [(h.start_eq hrefusal).1] at hrunning
      cases hrunning
    | some reason =>
      rw [Watering.start, hrefusal]
      rfl
  | askStop origin =>
    obtain ⟨-, rfl⟩ | ⟨hnone, -⟩ := call_askStop hc
    · rfl
    · rw [hjob] at hnone
      cases hnone
  | enable role on =>
    obtain rfl := Option.some.inj hc
    rfl
  | setDuration i ms =>
    obtain rfl := Option.some.inj hc
    rfl
  | replaceTiming t =>
    obtain rfl := Option.some.inj hc
    rw [Watering.replaceTiming]
    split
    · simp only [log, record, Watering.iterationHardware, Option.bind_map, Function.comp_def]
    · rfl
  | rebind wanted =>
    rw [(call_rebind hc).1] at hheld
    cases hheld
  | build pins =>
    simp only [call] at hc
    split at hc <;> obtain rfl := Option.some.inj hc <;> rfl
  | install i =>
    obtain ⟨c, -, hwait, rfl⟩ := call_install hc
    have huse := hwait.resolve_right (by rw [hheld]; rintro ⟨⟩)
    obtain ⟨-, hold, -, -, -, hnone⟩ := Watering.replaceHardware_of_use huse c
    rw [Watering.iterationHardware_eq, Watering.iterationHardware_eq, hold, hnone]
    rfl
  | discard i =>
    obtain ⟨c, -, rfl⟩ := call_discard hc
    rfl
  | closeChip =>
    obtain rfl := Option.some.inj hc
    rfl
  | say e =>
    obtain ⟨-, rfl⟩ := call_say hc
    rfl

/-- Nobody but the worker does anything to the controller of the iteration during a sequence. -/
theorem Steady.iterationHardware_of_held (h : w.Steady) {m : Move} (hm : w.next m = some w')
    (hne : m ≠ .work) (hheld : w.system.linesHeld = true) :
    w'.system.iterationHardware = w.system.iterationHardware := by
  have hwork := isWorking_of_linesHeld hheld
  cases m with
  | work => exact absurd rfl hne
  | raiseStop =>
    obtain ⟨origin, -, rfl⟩ := next_raiseStop hm
    simp only [Watering.raiseStop, Watering.iterationHardware, Option.bind_map, Function.comp_def]
  | joinWorker =>
    obtain ⟨origin, -, hover, -⟩ := next_joinWorker hm
    rw [hwork] at hover
    cases hover
  | guest g =>
    obtain rfl := Option.some.inj hm
    rfl
  | call c => exact h.call_of_held (next_call hm).2 hheld

/-! ## A move of lines waits for the end of a sequence -/

/-- The world after a step of the worker. -/
def worked (w : World) : World :=
  { w with system := w.system.step, trace := w.trace ++ w.system.marks }

theorem Steady.awaitWithin (n : Nat) : ∀ {w : World}, w.Steady →
    (∀ p, w.system.point? = some p → p.holdsLock = true → p.heldFor ≤ n) →
    (w.system.awaitWithin n).linesHeld = false := by
  induction n with
  | zero =>
    intro w _ hn
    rw [Bool.eq_false_iff]
    intro hheld
    obtain ⟨p, hp, hlock⟩ := exists_point_of_linesHeld hheld
    exact absurd (hn p hp hlock) (Nat.not_le.mpr (heldFor_pos hlock))
  | succ n ih =>
    intro w hw hn
    rw [Watering.awaitWithin]
    split
    · next hheld =>
      have hheld : w.system.linesHeld = true := hheld
      have hwork := isWorking_of_linesHeld hheld
      have hworked : w.worked.Steady := hw.worked hwork rfl rfl
      refine ih (w := w.worked) hworked fun q hq _ => ?_
      obtain ⟨p, s', hp, -, -, hstep, ha⟩ := hw.step hwork
      obtain ⟨p', hp', hlock⟩ := exists_point_of_linesHeld hheld
      obtain rfl := Option.some.inj (hp.symm.trans hp')
      have hq' : (s'.actAs .caller).point? = some q := by rw [← hstep]; exact hq
      obtain rfl := Option.some.inj (ha.point.symm.trans hq')
      exact Nat.le_of_lt_succ (Nat.lt_of_lt_of_le (heldFor_nextPoint hlock) (hn p hp hlock))
    · next hfree => exact Bool.eq_false_iff.mpr hfree

/-- A move of lines finds them free: it waits until the sequence under way is over. -/
theorem Steady.awaitLines (h : w.Steady) : w.system.awaitLines.linesHeld = false :=
  Steady.awaitWithin 8 h fun p _ _ => Nat.le_trans (heldFor_le p) (by decide)

theorem awaitLines_rebind {s : Watering} (h : s.awaitLines.linesHeld = false)
    (wanted : Each (Option Offset)) : s.rebind wanted = s.awaitLines.rebind wanted := by
  rw [Watering.rebind, Watering.rebind, Watering.awaitLines_of_free h]

end World

end Irrigation
