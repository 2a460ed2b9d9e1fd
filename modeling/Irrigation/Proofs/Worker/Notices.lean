import Irrigation.Proofs.Hardware.Handling
import Irrigation.Proofs.Text.Rendering
import Irrigation.Scheduler

/-!
# What the system tells

An event is told as one line of text, unless it is a notice with a message that is none. Whatever
its state, the events that the worker tells in a step are lines (`Watering.tellsLines_step`), and so
are those of the calls: of a stop, a move, and a start whose flow has a name of one line
(`Watering.tellsLines_start`). Nothing of this depends on the state, so it does not matter how the
steps of the worker and the calls follow one another.
-/

namespace Irrigation

open Text (OneLine)

/-- If an entry tells an event, this is a line. -/
def Effect.TellsLine : Effect → Prop
  | .emitted e => OneLine e.render
  | _ => True

theorem Effect.IsRoutine.tellsLine {e : Effect} (h : e.IsRoutine) : e.TellsLine := by
  cases e with
  | emitted event =>
    cases event with
    | notice => exact Event.oneLine_render_notice.mpr h
    | _ => exact h.elim
  | _ => trivial

/-- Entries tell nothing but lines. -/
def Rig.TellsLines (r r' : Rig) : Prop := r.Adds (fun x => x.2.TellsLine) r'

theorem Rig.Handled.tellsLines {r r' : Rig} (h : r.Handled r') : r.TellsLines r' :=
  h.adds.mono fun _ hx => hx.2.tellsLine

@[simp] theorem StopOrigin.oneLine_label (origin : StopOrigin) : OneLine origin.label := by
  cases origin <;> decide

namespace Watering

variable {s s₁ s₂ : Watering}

/-- The system has told nothing but lines on the way. -/
def TellsLines (s s' : Watering) : Prop := s.rig.TellsLines s'.rig

namespace TellsLines

theorem refl (s : Watering) : s.TellsLines s := Rig.Adds.refl s.rig

theorem trans (h : s.TellsLines s₁) (h' : s₁.TellsLines s₂) : s.TellsLines s₂ := Rig.Adds.trans h h'

theorem record {e : Effect} (he : e.TellsLine) (s : Watering) :
    s.TellsLines (Irrigation.record s e) := Rig.Adds.record he

theorem log (level : Level) (text : String) (s : Watering) :
    s.TellsLines (Irrigation.log level text s) := record (e := .log level text) trivial s

theorem notify {e : Event} (he : OneLine e.render) (s : Watering) :
    s.TellsLines (Irrigation.notify e s) := record (e := .emitted e) he s

theorem read (which : Interval) (ms : UInt64) (s : Watering) :
    s.TellsLines (Irrigation.record s (.read which ms)) := record (e := .read which ms) trivial s

theorem waited (which : Interval) (ms : UInt64) (full : Bool) (s : Watering) :
    s.TellsLines (Irrigation.record s (.waited which ms full)) :=
  record (e := .waited which ms full) trivial s

theorem reported (who : String) (level : Level) {message : String} (h : OneLine message)
    (s : Watering) : s.TellsLines (Irrigation.report who level message s) :=
  (log ..).trans (notify (Event.oneLine_render_notice.mpr h) _)

theorem report (level : Level) {message : String} (h : OneLine message) (s : Watering) :
    s.TellsLines (s.report level message) := reported "Watering" level h s

end TellsLines

/-! ## The worker -/

theorem tellsLines_transition (s : Watering) (next : CycleState) :
    s.TellsLines (s.transition next) := by
  unfold transition
  split
  · exact .refl s
  · have hmove : OneLine (Event.stateChanged s.state next).render :=
      Event.oneLine_render fun _ _ h => by cases h
    exact (TellsLines.log .debug _ s).trans (.notify hmove _)

theorem tellsLines_setIterationHardware (s : Watering) (c : Controller) :
    s.TellsLines (s.setIterationHardware c) := by
  unfold setIterationHardware
  split <;> exact .refl s

theorem tellsLines_switchDevice (s : Watering) (r : Role) (on : Bool) :
    s.TellsLines (s.switchDevice r on) := by
  have h := (Rig.handled_controllerSwitch s.iterationHardware r on s.rig).tellsLines
  unfold switchDevice
  split
  · next c rig hswitch =>
    rw [hswitch] at h
    have hswitched : s.TellsLines { s with rig } := h
    exact hswitched.trans (tellsLines_setIterationHardware ..)
  · exact .report .warn (by simp +decide) s

theorem tellsLines_letGoOf (s : Watering) (r : Role) : s.TellsLines (s.letGoOf r) := by
  have h := (Rig.handled_unbind s.iterationHardware r s.rig).tellsLines
  unfold letGoOf
  rcases hunbind : s.iterationHardware.unbind r s.rig with ⟨c, rig⟩
  rw [hunbind] at h
  have hunbound : s.TellsLines { s with rig } := h
  exact hunbound.trans (tellsLines_setIterationHardware ..)

theorem tellsLines_die (s : Watering) : s.TellsLines s.die := by
  unfold die
  simp only
  split
  · next c _ _ => exact (Rig.handled_unbindAll Role.all c s.rig).tellsLines
  · exact .refl s

theorem tellsLines_switchOn (s : Watering) (r : Role) (next : Point) :
    s.TellsLines (s.switchOn r next) := by
  unfold switchOn
  split
  · next offset _ =>
    exact (TellsLines.record (e := .driven offset true) trivial s).trans (tellsLines_die _)
  · exact tellsLines_switchDevice s r true

/-- **What the worker does at a point** tells lines only. -/
theorem tellsLines_act (s : Watering) (p : Point) : s.TellsLines (s.act p) := by
  cases p with
  | starting => exact .log ..
  | readingActivation | readingDeactivation | readingSeparation => exact .read ..
  | irrigating | sleepingGap | resting => exact .waited ..
  | enteringIrrigation | enteringIdle | enteringTearDown | enteringDisabled =>
    exact tellsLines_transition ..
  | openingValve on ms =>
    rw [act]
    split
    · exact tellsLines_switchOn ..
    · exact .refl s
  | startingPump on ms =>
    rw [act]
    split
    · exact tellsLines_switchOn ..
    · exact .refl s
  | switchingOff on now r =>
    rw [act]
    split
    · exact tellsLines_switchDevice s r false
    · exact .refl s
  | reportingOff on now r => exact .report .info (by simp +decide) s
  | deciding on now =>
    rw [act]
    split
    · exact .refl s
    · exact .report .info (by decide) s
  | closingValve on rest =>
    rw [act]
    split
    · exact tellsLines_switchDevice s .valve false
    · exact .refl s
  | waitingGap ms rest =>
    rw [act]
    split
    · exact (TellsLines.log .debug _ s).trans (.waited ..)
    · exact .waited ..
  | stoppingPump on rest =>
    cases on <;> cases rest <;>
      first | exact .refl s | exact tellsLines_switchDevice s .pump false
  | counting =>
    refine (TellsLines.log .debug _ s).trans (.notify ?_ _)
    exact Event.oneLine_render fun _ _ h => by cases h
  | lettingGo again =>
    rw [act]
    split
    · exact tellsLines_letGoOf s .valve
    · exact .refl s
  | lettingGoPump again => exact tellsLines_letGoOf s .pump
  | finishing =>
    refine (TellsLines.log .info _ s).trans (.notify ?_ _)
    exact Event.oneLine_render fun _ _ h => by cases h
  | _ => exact .refl s

/-- **A step of the worker tells lines only.** -/
theorem tellsLines_step (s : Watering) : s.TellsLines s.step := by
  unfold step
  split
  · exact tellsLines_act (s.actAs .worker) _
  · exact .refl s

theorem tellsLines_steps (n : Nat) (s : Watering) : s.TellsLines (s.steps n) := by
  induction n generalizing s with
  | zero => exact .refl s
  | succ n ih => exact (tellsLines_step s).trans (ih s.step)

theorem tellsLines_awaitWithin (n : Nat) (s : Watering) : s.TellsLines (s.awaitWithin n) := by
  induction n generalizing s with
  | zero => exact .refl s
  | succ n ih =>
    rw [awaitWithin]
    split
    · exact (tellsLines_step s).trans (ih s.step)
    · exact .refl s

/-! ## The calls -/

theorem tellsLines_join (s : Watering) : s.TellsLines s.join := by
  unfold join
  split
  · have hmessage : OneLine "watering worker panicked, forcing outputs off" := by decide
    refine (TellsLines.report .error hmessage { s with run := none }).trans ?_
    unfold forceOff
    exact ((Rig.handled_controllerSwitch ..).trans (Rig.handled_controllerSwitch ..)).tellsLines
  · exact .refl s

/-- **A stop tells lines only**, and so does the worker while it is waited for. -/
theorem tellsLines_stop (origin : StopOrigin) (s : Watering) : s.TellsLines (s.stop origin) := by
  unfold stop
  split
  · have hasked : s.TellsLines (s.announceStop origin).raiseStop := .log ..
    have hrun : s.TellsLines (s.announceStop origin).raiseStop.runFreely :=
      hasked.trans (tellsLines_steps patience _)
    generalize runFreely _ = after at hrun ⊢
    exact (hrun.trans (tellsLines_join after)).trans (.log .info _ { after.join with cycles := 0 })
  · unfold declineStop
    refine (tellsLines_join s).trans ?_
    simp only
    split
    · exact .report .warn (by simp +decide) _
    · exact .refl _

theorem oneLine_of_refusal? {flow : Option String} (hflow : ∀ name, flow = some name → OneLine name)
    {reason : String} (h : s.refusal? flow = some reason) : OneLine reason := by
  unfold refusal? at h
  split at h
  · next name hname =>
    obtain rfl := Option.some.inj h
    have hone : OneLine name := hflow name (Option.filter_eq_some_iff.mp hname).1
    have hwords : OneLine "unknown watering flow '" ∧ OneLine "', only '" ∧ OneLine cycledFlow ∧
        OneLine "' is supported" := by decide
    simp [hone, hwords]
  · split at h
    · obtain rfl := Option.some.inj h
      decide
    · split at h
      · obtain rfl := Option.some.inj h
        decide
      · cases h

/-- **A start tells lines only**, if the name of the flow is one. -/
theorem tellsLines_start {flow : Option String} (hflow : ∀ name, flow = some name → OneLine name)
    (s : Watering) : s.TellsLines (s.start flow).2 := by
  unfold start
  split
  · next reason hreason => exact .report .warn (oneLine_of_refusal? hflow hreason) s
  · refine (tellsLines_join s).trans (TellsLines.trans ?_ (.log .info _ _))
    exact .notify (e := .started) (by decide) { s.join with cycles := 0, running := true }

/-- **A move tells lines only**, and so does the worker while the lines are waited for. -/
theorem tellsLines_rebind (wanted : Each (Option Offset)) (s : Watering) :
    s.TellsLines (s.rebind wanted).2 :=
  (tellsLines_awaitWithin 8 s).trans (Rig.handled_rebind ..).tellsLines

theorem tellsLines_enable (r : Role) (on : Bool) (s : Watering) : s.TellsLines (s.enable r on) :=
  .log ..

theorem tellsLines_retire (s : Watering) : s.TellsLines s.retire :=
  (tellsLines_stop .teardown s).trans (Rig.handled_unbindAll Role.all _ _).tellsLines

end Watering

end Irrigation
