import Irrigation.Proofs.Hardware.Transfer
import Irrigation.Proofs.Worker.Marks

/-!
# The worker does not read its journal

What was journaled before does not matter for what the worker does: with other entries in front of
the journal (`Watering.prefixed`) a step does the same, and puts the same entries behind them
(`step_prefixed`). So does a caller who waits for the lines and moves them (`rebind_prefixed`).
-/

namespace Irrigation

namespace Rig

/-- The rig with entries in front of its journal. -/
def prefixed (entries : List (Actor × Effect)) (r : Rig) : Rig :=
  { r with journal := entries ++ r.journal }

variable (entries : List (Actor × Effect))

theorem record_prefixed (r : Rig) (e : Effect) :
    record (r.prefixed entries) e = Rig.prefixed entries (record r e) :=
  congrArg (fun journal => { r with journal }) (List.append_assoc entries r.journal _)

theorem request_prefixed (r : Rig) (who : String) (offset : Offset) (d : Direction)
    (p : Polarity) :
    (r.prefixed entries).request who offset d p =
      (r.request who offset d p).map id (Rig.prefixed entries) := by
  have hchip : (r.prefixed entries).chip.refusal? offset = r.chip.refusal? offset := rfl
  rw [request, request, hchip]
  cases r.chip.refusal? offset with
  | some e => rfl
  | none =>
    let claimed : Rig := { r with chip := r.chip.claim offset who }
    have hlog : ∀ text, log .debug text (claimed.prefixed entries) =
        Rig.prefixed entries (log .debug text claimed) := fun _ => record_prefixed ..
    cases d with
    | input =>
      exact Prod.ext rfl ((congrArg (log .warn _) (hlog _)).trans (record_prefixed ..))
    | output =>
      exact Prod.ext rfl
        (congrArg (fun r => (Lines.write r offset (p.level false)).2) (hlog _))

theorem release_prefixed (r : Rig) (offsets : List Offset) :
    (r.prefixed entries).release offsets = (r.release offsets).map id (Rig.prefixed entries) := by
  unfold release
  change (if (r.faults.refusesRelease || !r.chip.canRelease offsets) = true then _ else _) = _
  split
  · rfl
  · exact Prod.ext rfl (record_prefixed entries { r with chip := r.chip.unclaim offsets } _)

/-- The entries in front stay there. -/
theorem carries_prefixed : Carries (Rig.prefixed entries) where
  record r e := (record_prefixed entries r e).symm
  write := fun _ _ _ => rfl
  request := request_prefixed entries
  release := release_prefixed entries

end Rig

namespace Watering

/-- The system with entries in front of its journal. -/
def prefixed (entries : List (Actor × Effect)) (s : Watering) : Watering :=
  { s with rig := s.rig.prefixed entries }

variable (entries : List (Actor × Effect)) (s : Watering)

theorem prefixed_record (e : Effect) :
    record (s.prefixed entries) e = (record s e).prefixed entries :=
  congrArg (fun rig => { s with rig }) (Rig.record_prefixed entries s.rig e)

theorem prefixed_log (l : Level) (text : String) :
    log l text (s.prefixed entries) = (log l text s).prefixed entries :=
  prefixed_record ..

theorem prefixed_notify (event : Event) :
    notify event (s.prefixed entries) = (notify event s).prefixed entries :=
  prefixed_record ..

theorem prefixed_report (l : Level) (message : String) :
    (s.prefixed entries).report l message = (s.report l message).prefixed entries := by
  simp only [report, Irrigation.report, prefixed_log, prefixed_notify]

theorem prefixed_transition (next : CycleState) :
    (s.prefixed entries).transition next = (s.transition next).prefixed entries := by
  unfold transition
  change (if s.state = next then _ else _) = _
  split
  · rfl
  · change notify _ (log _ _ (prefixed entries { s with state := next })) = _
    rw [prefixed_log, prefixed_notify]
    rfl

theorem prefixed_setIterationHardware (c : Controller) :
    (s.prefixed entries).setIterationHardware c =
      (s.setIterationHardware c).prefixed entries := by
  have hreplaced : ((s.prefixed entries).run.bind fun w => w.hardware) = s.replaced := rfl
  rw [setIterationHardware, setIterationHardware, hreplaced, ← replaced]
  cases s.replaced <;> rfl

theorem prefixed_switchDevice (r : Role) (on : Bool) :
    (s.prefixed entries).switchDevice r on = (s.switchDevice r on).prefixed entries := by
  have hswitch : (s.prefixed entries).iterationHardware.switch r on (s.prefixed entries).rig =
      Prod.map id (Prod.map id (Rig.prefixed entries)) (s.iterationHardware.switch r on s.rig) :=
    (Rig.carries_prefixed entries).switch ..
  rw [switchDevice, switchDevice, hswitch]
  rcases s.iterationHardware.switch r on s.rig with ⟨_ | _, c, rig⟩
  · exact prefixed_report ..
  · exact prefixed_setIterationHardware entries { s with rig } c

theorem prefixed_letGoOf (r : Role) :
    (s.prefixed entries).letGoOf r = (s.letGoOf r).prefixed entries := by
  have hunbind : (s.prefixed entries).iterationHardware.unbind r (s.prefixed entries).rig =
      Prod.map id (Rig.prefixed entries) (s.iterationHardware.unbind r s.rig) :=
    (Rig.carries_prefixed entries).unbind ..
  rw [letGoOf, letGoOf, hunbind]
  exact prefixed_setIterationHardware entries { s with rig := _ } _

theorem prefixed_switchOn {s : Watering} (hsafe : s.rig.faults.deadlyLine = none) (r : Role)
    (p : Point) : (s.prefixed entries).switchOn r p = (s.switchOn r p).prefixed entries := by
  rw [switchOn_eq hsafe, switchOn_eq (s := s.prefixed entries) hsafe, prefixed_switchDevice]
  rfl

/-- A step does the same, whatever is in front of the journal. -/
theorem act_prefixed {s : Watering} (hsafe : s.rig.faults.deadlyLine = none) (p : Point) :
    (s.prefixed entries).act p = (s.act p).prefixed entries := by
  cases p with
  | starting => exact congrArg (goto _) (prefixed_log ..)
  | readingActivation on => exact congrArg (goto _) (prefixed_record ..)
  | enteringIrrigation on ms => exact congrArg (goto _) (prefixed_transition ..)
  | openingValve on ms =>
    rw [act, act]
    split
    · exact prefixed_switchOn entries hsafe ..
    · rfl
  | startingPump on ms =>
    rw [act, act]
    split
    · exact prefixed_switchOn entries hsafe ..
    · rfl
  | irrigating on ms => exact congrArg (goto _) (prefixed_record ..)
  | enteringIdle on stopped => exact congrArg (goto _) (prefixed_transition ..)
  | switchingOff on now r =>
    rw [act, act]
    split
    · exact congrArg (goto _) (prefixed_switchDevice ..)
    · rfl
  | reportingOff on now r => exact congrArg (goto _) (prefixed_report ..)
  | deciding on now =>
    rw [act, act]
    split
    · rfl
    · exact congrArg (goto _) (prefixed_report ..)
  | readingDeactivation on => exact congrArg (goto _) (prefixed_record ..)
  | closingValve on rest =>
    rw [act, act]
    split
    · exact congrArg (goto _) (prefixed_switchDevice ..)
    · rfl
  | readingSeparation rest => exact congrArg (goto _) (prefixed_record ..)
  | sleepingGap ms rest => exact congrArg (goto _) (prefixed_record ..)
  | waitingGap ms rest =>
    unfold act
    change goto _ (record (if s.stopPending then log _ _ (s.prefixed entries) else _) _) =
      prefixed entries (goto _ (record (if s.stopPending then _ else _) _))
    split
    · exact congrArg (goto _)
        ((congrArg (record · _) (prefixed_log ..)).trans (prefixed_record ..))
    · exact congrArg (goto _) (prefixed_record ..)
  | stoppingPump on rest =>
    cases on with
    | true => cases rest <;> exact congrArg (goto _) (prefixed_switchDevice ..)
    | false => cases rest <;> rfl
  | resting ms => exact congrArg (goto _) (prefixed_record ..)
  | counting =>
    refine congrArg (goto _) (.trans ?_ (prefixed_notify ..))
    exact congrArg (notify _) (prefixed_log entries { s with cycles := s.cycles + 1 } _ _)
  | lettingGo again =>
    have hreplaced : ((s.prefixed entries).run.bind fun w => w.hardware) = s.replaced := rfl
    rw [act, act, hreplaced, ← replaced]
    cases s.replaced with
    | some c => exact congrArg (goto _) (prefixed_letGoOf ..)
    | none => rfl
  | lettingGoPump again =>
    exact congrArg (fun s => goto _ (endIteration s)) (prefixed_letGoOf ..)
  | enteringTearDown => exact congrArg (goto _) (prefixed_transition ..)
  | enteringDisabled => exact congrArg (goto _) (prefixed_transition ..)
  | finishing =>
    refine congrArg (goto _) (.trans ?_ (prefixed_notify ..))
    exact congrArg (notify _) (prefixed_log ..)
  | _ => rfl

/-- **What was journaled before does not matter for a step.** -/
theorem step_prefixed {s : Watering} (hsafe : s.rig.faults.deadlyLine = none) :
    (s.prefixed entries).step = s.step.prefixed entries := by
  have hpoint : (s.prefixed entries).point? = s.point? := rfl
  rw [step, step, hpoint]
  cases s.point? with
  | some p =>
    exact congrArg (actAs .caller) (act_prefixed entries (s := s.actAs .worker) hsafe p)
  | none => rfl

theorem faults_step {s : Watering} (hsafe : s.rig.faults.deadlyLine = none) :
    s.step.rig.faults = s.rig.faults := by
  cases hrun : s.run with
  | none =>
    have hstep : s.step = s := by rw [step, point?, hrun]; rfl
    rw [hstep]
  | some worker =>
    obtain ⟨s', hstep, ha⟩ := step_advances hrun hsafe
    rw [hstep]
    exact ha.routine.1.symm

/-- The worker lets go of the lines in the same way. -/
theorem awaitWithin_prefixed (n : Nat) : ∀ {s : Watering}, s.rig.faults.deadlyLine = none →
    (s.prefixed entries).awaitWithin n = (s.awaitWithin n).prefixed entries := by
  induction n with
  | zero => exact fun _ => rfl
  | succ n ih =>
    intro s hsafe
    have hpoint : (s.prefixed entries).point? = s.point? := rfl
    rw [awaitWithin, awaitWithin, hpoint]
    split
    · rw [step_prefixed entries hsafe]
      exact ih (by rw [faults_step hsafe]; exact hsafe)
    · rfl

/-- **A move of lines does the same**, whatever is in front of the journal. -/
theorem rebind_prefixed {s : Watering} (hsafe : s.rig.faults.deadlyLine = none)
    (wanted : Each (Option Offset)) :
    (s.prefixed entries).rebind wanted = (s.rebind wanted).map id (prefixed entries) := by
  have hmove : s.awaitLines.hardware.rebind wanted (s.awaitLines.prefixed entries).rig =
      (s.awaitLines.hardware.rebind wanted s.awaitLines.rig).map id
        (Prod.map id (Rig.prefixed entries)) :=
    (Rig.carries_prefixed entries).rebind ..
  have hwait : (s.prefixed entries).awaitLines = s.awaitLines.prefixed entries :=
    awaitWithin_prefixed entries 8 hsafe
  rw [rebind, rebind, hwait]
  change _ = Prod.map id (prefixed entries) _
  simp only [show (s.awaitLines.prefixed entries).hardware = s.awaitLines.hardware from rfl, hmove]
  rfl

end Watering

end Irrigation
