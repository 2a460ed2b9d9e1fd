import Irrigation.Proofs.Exchange.Readings
import Irrigation.Proofs.Exchange.Trades

/-!
# What an iteration holds on to

An iteration refers to the controller and to the durations that it took at its head until it lets go
of them at its end (`Watering.usesHardware_nextPoint`, `Watering.ownTiming_step`), and moves of
those who refer to nothing leave both to themselves (`World.Steady.bystands`).
-/

namespace Irrigation

/-! ## The worker's references -/

namespace Point

/-- Whether the worker's iteration has taken a controller. -/
def usesHardware (p : Point) : Bool := p.holdsHardware || p.forgets

/-- Whether the worker's iteration has taken durations. -/
def usesTiming (p : Point) : Bool := p.holdsTiming || p.forgets

variable {p : Point}

theorem inIteration_of_usesHardware (h : p.usesHardware = true) : p.inIteration = true := by
  cases p <;> first | rfl | cases h

theorem inIteration_of_usesTiming (h : p.usesTiming = true) : p.inIteration = true := by
  cases p <;> first | rfl | cases h

/-- Outside of iterations nothing is used. -/
theorem uses_nothing (h : p.inIteration = false) :
    p.usesHardware = false ∧ p.usesTiming = false := by
  cases p <;> first | exact ⟨rfl, rfl⟩ | cases h

/-- Durations are taken last at the head of an iteration. -/
theorem ne_head_of_usesTiming (h : p.usesTiming = true) :
    p ≠ .takingHardware ∧ p ≠ .takingTiming := by
  constructor <;> rintro rfl <;> cases h

end Point

namespace Watering

variable {s : Watering} {p : Point}

/-- A worker that is over is in no iteration. -/
theorem outside_of_over (h : s.isWorking = false) (hp : s.point? = some p) :
    p.inIteration = false := by
  rw [isWorking, hp] at h
  cases p <;> first | rfl | cases h

/-- An iteration takes a controller at its head, and lets go of it at its end. -/
theorem usesHardware_nextPoint (s : Watering) (p : Point) :
    (s.nextPoint p).usesHardware =
      ((s.nextPoint p).inIteration && (decide (p = .takingHardware) || p.usesHardware)) := by
  fun_cases nextPoint s p <;>
    first
    | rfl
    | next r _ => cases r <;> rfl
    | next r => cases r <;> rfl

/-- So it does with durations. -/
theorem usesTiming_nextPoint (s : Watering) (p : Point) :
    (s.nextPoint p).usesTiming =
      ((s.nextPoint p).inIteration && (decide (p = .takingTiming) || p.usesTiming)) := by
  fun_cases nextPoint s p <;>
    first
    | rfl
    | next r _ => cases r <;> rfl
    | next r => cases r <;> rfl

/-! ### The durations that were replaced -/

@[simp] theorem ownTiming_goto (p : Point) (s : Watering) : (s.goto p).ownTiming = s.ownTiming := by
  simp only [goto, ownTiming, Option.bind_map, Function.comp_def]

@[simp] theorem ownTiming_record (e : Effect) (s : Watering) :
    (record s e).ownTiming = s.ownTiming := rfl

@[simp] theorem ownTiming_log (l : Level) (m : String) (s : Watering) :
    (log l m s).ownTiming = s.ownTiming := rfl

@[simp] theorem ownTiming_report (l : Level) (m : String) (s : Watering) :
    (s.report l m).ownTiming = s.ownTiming := rfl

theorem ownTiming_setIterationHardware (c : Controller) (s : Watering) :
    (s.setIterationHardware c).ownTiming = s.ownTiming := by
  unfold setIterationHardware
  split
  · simp only [ownTiming, Option.bind_map, Function.comp_def]
  · rfl

@[simp] theorem ownTiming_switchDevice (r : Role) (on : Bool) (s : Watering) :
    (s.switchDevice r on).ownTiming = s.ownTiming := by
  unfold switchDevice
  split
  · exact ownTiming_setIterationHardware ..
  · rfl

@[simp] theorem ownTiming_letGoOf (r : Role) (s : Watering) :
    (s.letGoOf r).ownTiming = s.ownTiming := ownTiming_setIterationHardware ..

@[simp] theorem ownTiming_transition (next : CycleState) (s : Watering) :
    (s.transition next).ownTiming = s.ownTiming := by
  unfold transition
  split <;> rfl

@[simp] theorem ownTiming_endIteration (s : Watering) : s.endIteration.ownTiming = none := by
  unfold endIteration ownTiming
  cases s.run <;> rfl

/-- An iteration keeps its durations until it lets go of its controller. -/
theorem ownTiming_act (hsafe : s.rig.faults.deadlyLine = none) (hgoes : p.letsGo = false)
    (hforgets : p.forgets = false) : (s.act p).ownTiming = s.ownTiming := by
  have hon (r : Role) (q : Point) : (s.switchOn r q).ownTiming = s.ownTiming := by
    rw [switchOn_eq hsafe, ownTiming_goto, ownTiming_switchDevice]
  have hchoice (on : Bool) (r : Role) (b : Bool) :
      (if on then s.switchDevice r b else s).ownTiming = s.ownTiming := by
    cases on <;> simp
  cases p with
  | openingValve on ms => rw [act]; split <;> simp [hon]
  | startingPump on ms => rw [act]; split <;> simp [hon]
  | switchingOff on now r => rw [act]; split <;> simp
  | deciding on now => rw [act]; split <;> simp
  | closingValve on rest => simp [act, hchoice]
  | waitingGap ms rest => simp only [act, ownTiming_goto, ownTiming_record]; split <;> rfl
  | stoppingPump on rest => cases rest <;> simp [act, hchoice]
  | counting => simp only [act, ownTiming_goto]; rfl
  | finishing => simp only [act, ownTiming_goto]; rfl
  | lowering => simp only [act, ownTiming_goto]; rfl
  | lettingGo again => cases hgoes
  | lettingGoPump again => cases hforgets
  | ended => rfl
  | crashed => rfl
  | _ => simp [act, readDuration]

/-- Then it lets go of both. -/
theorem ownTiming_act_lettingGo (s : Watering) (again : Bool) :
    (s.act (.lettingGo again)).ownTiming = if s.replaced.isSome then s.ownTiming else none := by
  cases hreplaced : s.replaced with
  | some c =>
    rw [act, show (s.run.bind fun w => w.hardware) = some c from hreplaced]
    simp
  | none =>
    rw [act, show (s.run.bind fun w => w.hardware) = none from hreplaced]
    simp

theorem ownTiming_act_lettingGoPump (s : Watering) (again : Bool) :
    (s.act (.lettingGoPump again)).ownTiming = none := by
  simp [act]

/-- **The durations that an iteration keeps**, after a step. -/
theorem ownTiming_step {w : Worker} (hrun : s.run = some w)
    (hsafe : s.rig.faults.deadlyLine = none) :
    s.step.ownTiming =
      if w.point.inIteration && !(s.nextPoint w.point).inIteration then none else s.ownTiming := by
  have hstep : s.step = ((s.actAs .worker).act w.point).actAs .caller := by
    rw [step, point?, hrun]
    rfl
  rw [hstep]
  change ((s.actAs .worker).act w.point).ownTiming = _
  by_cases hgoes : w.point.letsGo = false ∧ w.point.forgets = false
  · rw [ownTiming_act (s := s.actAs .worker) hsafe hgoes.1 hgoes.2]
    split
    · next hends =>
      rw [Bool.and_eq_true, Bool.not_eq_true'] at hends
      obtain ⟨again, hp⟩ | ⟨again, hp⟩ := Iteration.letsGo_of_end hends.1 hends.2 <;>
        rw [hp] at hgoes
      · cases hgoes.1
      · cases hgoes.2
    · rfl
  · cases hp : w.point with
    | lettingGo again =>
      rw [ownTiming_act_lettingGo, nextPoint]
      change (if s.replaced.isSome = true then s.ownTiming else none) = _
      split
      · rfl
      · cases again <;> rfl
    | lettingGoPump again =>
      rw [ownTiming_act_lettingGoPump, nextPoint]
      cases again <;> rfl
    | _ => exact absurd ⟨by rw [hp]; rfl, by rw [hp]; rfl⟩ hgoes

end Watering

namespace World

/-! ## Moves of those who refer to nothing -/

/-- A move has left controllers and durations to themselves. The worker stays where it is, or it is
over and makes way. -/
structure Bystands (w w' : World) : Prop where
  hardware : w'.system.hardware = w.system.hardware
  timing : w'.system.timing = w.system.timing
  houses : ∀ live, w.system.rig.Houses live w.guests → w'.system.rig.Houses live w'.guests
  deeds : w'.trace.filterMap Mark.workerDeed? = w.trace.filterMap Mark.workerDeed?
  worker : (w'.system.point? = w.system.point? ∧ w'.system.replaced = w.system.replaced ∧
      w'.system.ownTiming = w.system.ownTiming) ∨
    (w.system.isWorking = false ∧ w'.system.replaced = none ∧ w'.system.ownTiming = none ∧
      (w'.system.point? = none ∨ w'.system.point? = some .starting))

variable {w w' : World}

/-- Only the journal changes, or what nobody looks at here. -/
theorem Bystands.still (hhardware : w'.system.hardware = w.system.hardware)
    (htiming : w'.system.timing = w.system.timing) (hrun : w'.system.run = w.system.run)
    (hguests : w'.guests = w.guests) (hchip : w'.system.rig.chip = w.system.rig.chip)
    (hfaults : w'.system.rig.faults = w.system.rig.faults) (htrace : w'.trace = w.trace) :
    w.Bystands w' := by
  refine ⟨hhardware, htiming, fun _ h => hguests ▸ h.of_eq hchip hfaults, by rw [htrace],
    .inl ⟨?_, ?_, ?_⟩⟩
  · rw [Watering.point?, Watering.point?, hrun]
  · rw [Watering.replaced, Watering.replaced, hrun]
  · rw [Watering.ownTiming, Watering.ownTiming, hrun]

theorem Steady.bystands (h : w.Steady) {m : Move} (hplain : m.isPlain = true)
    (hm : w.next m = some w') : w.Bystands w' := by
  cases m with
  | work => cases hplain
  | guest g =>
    obtain rfl := Option.some.inj hm
    exact ⟨rfl, rfl, fun _ hhouses => houses_guest hhouses g, rfl, .inl ⟨rfl, rfl, rfl⟩⟩
  | raiseStop =>
    obtain ⟨origin, -, rfl⟩ := next_raiseStop hm
    refine ⟨rfl, rfl, fun _ hhouses => hhouses, rfl, .inl ⟨point?_raiseStop _, ?_, ?_⟩⟩
    · simp only [Watering.raiseStop, Watering.replaced, Option.bind_map, Function.comp_def]
    · simp only [Watering.raiseStop, Watering.ownTiming, Option.bind_map, Function.comp_def]
  | joinWorker =>
    obtain ⟨origin, -, hover, rfl⟩ := next_joinWorker hm
    rw [h.concludeStop_eq]
    exact ⟨rfl, rfl, fun _ hhouses => hhouses.of_eq rfl rfl, rfl,
      .inr ⟨hover, rfl, rfl, .inl rfl⟩⟩
  | call c =>
    obtain ⟨-, hc⟩ := next_call hm
    cases c with
    | start flow =>
      obtain ⟨reason, -, hstart, rfl⟩ | ⟨hrefusal, -, rfl⟩ := call_start hc
      · exact .still rfl rfl rfl rfl rfl rfl rfl
      · obtain ⟨hidle, hstart⟩ := h.start_eq hrefusal
        rw [hstart]
        refine ⟨rfl, rfl, fun _ hhouses => hhouses.of_eq rfl rfl, ?_,
          .inr ⟨h.not_working hidle, rfl, rfl, .inr rfl⟩⟩
        rw [List.filterMap_append]
        exact List.append_nil _
    | askStop origin =>
      obtain ⟨-, rfl⟩ | ⟨hjob, rfl⟩ := call_askStop hc
      · exact .still rfl rfl rfl rfl rfl rfl rfl
      · rw [h.declineStop_eq]
        refine ⟨rfl, rfl, fun _ hhouses => hhouses.of_eq ?_ ?_, rfl,
          .inr ⟨h.not_working_of_no_job hjob, rfl, rfl, .inl rfl⟩⟩ <;> simp only <;> split <;> rfl
    | enable role on =>
      obtain rfl := Option.some.inj hc
      exact .still rfl rfl rfl rfl rfl rfl rfl
    | closeChip =>
      obtain rfl := Option.some.inj hc
      exact ⟨rfl, rfl, fun _ hhouses => hhouses.close, rfl, .inl ⟨rfl, rfl, rfl⟩⟩
    | say e =>
      obtain ⟨-, rfl⟩ := call_say hc
      exact .still rfl rfl rfl rfl rfl rfl rfl
    | _ => cases hplain

end World

end Irrigation
