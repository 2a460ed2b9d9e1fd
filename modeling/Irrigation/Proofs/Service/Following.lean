import Irrigation.Proofs.Console.Encoding
import Irrigation.Proofs.Project.AllOrNothing
import Irrigation.Proofs.World.OneWorker
import Irrigation.Proofs.World.SelfEnding

/-!
# Several commands, one after the other

Somebody who carries out commands makes one call for each, until one of them fails
(`World.Follows`). Before, between and after these calls anything else can happen: the worker and
third parties make their moves, and the caller says things and completes a stop.

If no command fails, each of them has been called for, and it is as the last of them that is about
it says (`Follows.settled`). The only commands that fail are moves. Stops and moves leave flags and
durations as they are and start no job, whatever the others do meanwhile (`Steady.quiet_run`).
-/

namespace Irrigation

/-- What the caller does by a move, if that is more than to say something. -/
def Move.act? : Move → Option Call
  | .call (.say _) => none
  | .call c => some c
  | _ => none

namespace World

open Watering

variable {w w₁ w' : World} {limits : Limits} {c : WateringCommand} {cs : List WateringCommand}
  {moves more : List Move} {r : Except LineError Unit} {e : LineError}

/-- How a call ends. Only moves of lines can fail. -/
def outcome (w : World) : Call → Except LineError Unit
  | .rebind wanted => (w.system.rebind wanted).1
  | _ => .ok ()

/-- By these moves the commands are carried out in order, up to and including the first that
fails. -/
inductive Follows (limits : Limits) :
    List WateringCommand → World → List Move → Except LineError Unit → World → Prop
  /-- All is done. -/
  | done (w : World) : Follows limits [] w [] (.ok ()) w
  /-- Something else happens. -/
  | aside {cs : List WateringCommand} {w w₁ w' : World} {m : Move} {moves : List Move}
      {r : Except LineError Unit} (hm : m.act? = none) (hnext : w.next m = some w₁)
      (h : Follows limits cs w₁ moves r w') : Follows limits cs w (m :: moves) r w'
  /-- A command is carried out. -/
  | command {c : WateringCommand} {cs : List WateringCommand} {w w₁ w' : World}
      {moves : List Move} {r : Except LineError Unit}
      (hnext : w.next (.call (c.call limits)) = some w₁)
      (hok : w.outcome (c.call limits) = .ok ()) (h : Follows limits cs w₁ moves r w') :
      Follows limits (c :: cs) w (.call (c.call limits) :: moves) r w'
  /-- A command fails, and no other is carried out. -/
  | failure {c : WateringCommand} {cs : List WateringCommand} {w w₁ w' : World}
      {moves : List Move} {e : LineError} (hnext : w.next (.call (c.call limits)) = some w₁)
      (herror : w.outcome (c.call limits) = .error e)
      (h : Follows limits [] w₁ moves (.ok ()) w') :
      Follows limits (c :: cs) w (.call (c.call limits) :: moves) (.error e) w'

theorem run_cons {m : Move} (hnext : w.next m = some w₁) (hrun : World.run moves w₁ = some w') :
    World.run (m :: moves) w = some w' := by
  rw [World.run, hnext]
  exact hrun

namespace Follows

theorem run (h : Follows limits cs w moves r w') : World.run moves w = some w' := by
  induction h with
  | done => rfl
  | aside _ hnext _ ih => exact run_cons hnext ih
  | command hnext _ _ ih => exact run_cons hnext ih
  | failure hnext _ _ ih => exact run_cons hnext ih

theorem prepend (hmore : ∀ m ∈ more, m.act? = none) (hrun : World.run more w = some w₁)
    (h : Follows limits cs w₁ moves r w') : Follows limits cs w (more ++ moves) r w' := by
  induction more generalizing w with
  | nil =>
    obtain rfl := Option.some.inj hrun
    exact h
  | cons m rest ih =>
    obtain ⟨w₂, hm, hrest⟩ := Option.bind_eq_some_iff.mp hrun
    rw [List.forall_mem_cons] at hmore
    exact .aside hmore.1 hm (ih hmore.2 hrest)

theorem act?_call (c : WateringCommand) (limits : Limits) :
    (Move.call (c.call limits)).act? = some (c.call limits) := by
  cases c <;> rfl

/-- **If none fails, each command has been called for.** -/
theorem acts (h : Follows limits cs w moves r w') (hr : r = .ok ()) :
    moves.filterMap Move.act? = cs.map (·.call limits) := by
  induction h with
  | done => rfl
  | aside hm _ _ ih => rw [List.filterMap_cons_none hm, ih hr]
  | command _ _ _ ih => rw [List.filterMap_cons_some (act?_call ..), ih hr, List.map_cons]
  | failure => cases hr

/-- The commands that can fail are moves. -/
theorem exists_of_outcome (h : w.outcome (c.call limits) = .error e) :
    ∃ role line, c = .setLine role line := by
  cases c with
  | setLine role line => exact ⟨role, line, rfl⟩
  | _ => cases h

/-- **If one fails, it is the last that has been called for**, and it is a move. -/
theorem failed (h : Follows limits cs w moves r w') (hr : r = .error e) :
    ∃ before role line after, cs = before ++ .setLine role line :: after ∧
      moves.filterMap Move.act? = (before ++ [.setLine role line]).map (·.call limits) := by
  induction h with
  | done => cases hr
  | aside hm _ _ ih =>
    obtain ⟨before, role, line, after, hcs, hacts⟩ := ih hr
    exact ⟨before, role, line, after, hcs, (List.filterMap_cons_none hm).trans hacts⟩
  | command _ _ _ ih =>
    obtain ⟨before, role, line, after, rfl, hacts⟩ := ih hr
    refine ⟨_ :: before, role, line, after, rfl, ?_⟩
    rw [List.filterMap_cons_some (act?_call ..), hacts]
    rfl
  | failure _ herror h =>
    obtain ⟨role, line, rfl⟩ := exists_of_outcome herror
    refine ⟨[], role, line, _, rfl, ?_⟩
    rw [List.filterMap_cons_some (act?_call ..), h.acts rfl]
    rfl

end Follows

/-! ## What stops and moves leave as it is -/

/-- A move of the others, a word of the caller, a part of a stop, or a move of lines. -/
def isQuiet (m : Move) : Bool :=
  match m.act? with
  | none => true
  | some (.askStop _) => true
  | some (.rebind _) => true
  | some _ => false

/-- From `w` to `w'` flags and durations stay as they are, and no job is started. -/
structure Unsettled (w w' : World) : Prop where
  enabled : w'.system.enabled = w.system.enabled
  timing : w'.system.timing = w.system.timing
  running : w'.system.running = true → w.system.running = true
  trace : ∃ new, w'.trace = w.trace ++ new ∧ .told .started ∉ new

theorem Unsettled.refl (w : World) : w.Unsettled w :=
  ⟨rfl, rfl, id, [], (List.append_nil _).symm, List.not_mem_nil⟩

theorem Unsettled.trans (h : w.Unsettled w₁) (h' : w₁.Unsettled w') : w.Unsettled w' where
  enabled := h'.enabled.trans h.enabled
  timing := h'.timing.trans h.timing
  running := h.running ∘ h'.running
  trace := by
    obtain ⟨new, hnew, hnot⟩ := h.trace
    obtain ⟨more, hmore, hnot'⟩ := h'.trace
    refine ⟨new ++ more, by rw [hmore, hnew, List.append_assoc], fun hmem => ?_⟩
    exact (List.mem_append.mp hmem).elim hnot hnot'

theorem Unsettled.of_trace (he : w'.system.enabled = w.system.enabled)
    (ht : w'.system.timing = w.system.timing)
    (hr : w'.system.running = true → w.system.running = true) (htrace : w'.trace = w.trace) :
    w.Unsettled w' :=
  ⟨he, ht, hr, [], by rw [htrace, List.append_nil], List.not_mem_nil⟩

theorem Steady.unsettled_next (h : w.Steady) {m : Move} (hquiet : isQuiet m = true)
    (hm : w.next m = some w') : w.Unsettled w' := by
  cases m with
  | work =>
    have hkeeps := h.keeps_next rfl hm
    obtain ⟨hwork, rfl⟩ := next_work hm
    obtain ⟨p, s', -, -, -, hstep, ha⟩ := h.step hwork
    refine ⟨hkeeps.enabled, hkeeps.timing, fun hrunning => ?_, w.system.marks, rfl,
      started_notMem_marks w.system⟩
    simp only [hstep] at hrunning
    rw [show (s'.actAs .caller).running = s'.running from rfl, ha.running] at hrunning
    split at hrunning
    · cases hrunning
    · exact hrunning
  | raiseStop =>
    obtain ⟨origin, -, rfl⟩ := next_raiseStop hm
    exact .of_trace rfl rfl id rfl
  | joinWorker =>
    obtain ⟨origin, -, -, rfl⟩ := next_joinWorker hm
    rw [h.concludeStop_eq]
    exact .of_trace rfl rfl id rfl
  | guest g =>
    obtain rfl := Option.some.inj hm
    exact .of_trace rfl rfl id rfl
  | call c =>
    obtain ⟨-, hc⟩ := next_call hm
    cases c with
    | askStop origin =>
      obtain ⟨-, rfl⟩ | ⟨-, rfl⟩ := call_askStop hc
      · exact .of_trace rfl rfl id rfl
      · rw [h.declineStop_eq]
        exact .of_trace rfl rfl id rfl
    | rebind wanted =>
      obtain ⟨hlines, rfl⟩ := call_rebind hc
      refine .of_trace ?_ ?_ (fun hrunning => ?_) rfl <;>
        simp only [Watering.rebind, Watering.awaitLines_of_free hlines] at *
      exact hrunning
    | say entry =>
      obtain ⟨-, rfl⟩ := call_say hc
      exact .of_trace rfl rfl id rfl
    | _ => cases hquiet

/-- **Where there are only stops and moves, nothing is set and no job is started.** -/
theorem Steady.quiet_run (h : w.Steady) (moves : List Move) (hmoves : ∀ m ∈ moves, isQuiet m = true)
    (hrun : World.run moves w = some w') : w.Unsettled w' := by
  have hkept : w'.Steady ∧ w.Unsettled w' :=
    run_induction (P := fun v => v.Steady ∧ w.Unsettled v)
      (fun hv hquiet hm => ⟨hv.1.next hm, hv.2.trans (hv.1.unsettled_next hquiet hm)⟩)
      ⟨h, .refl w⟩ moves hmoves hrun
  exact hkept.2

end World

/-! ## What commands leave -/

/-- What commands set: the flags, the durations, and the line of each device. -/
@[ext]
structure Settings where
  enabled : Each Bool
  timing : Timing
  lines : Each Offset

/-- The settings of a system. -/
def Watering.settings (s : Watering) : Settings :=
  ⟨s.enabled, s.timing, s.hardware.slots.map Slot.offset⟩

/-- The settings after a command, its number brought into range. -/
def WateringCommand.settle (limits : Limits) (x : Settings) : WateringCommand → Settings
  | .setDuration i ms =>
    { x with timing := x.timing.set i (.ofNat (clamp limits.maxDurationMs.toNat ms)) }
  | .setLine r line =>
    { x with lines := x.lines.set r (.ofNat (clamp limits.maxPinOffset.toNat line)) }
  | .enable r on => { x with enabled := x.enabled.set r on }
  | _ => x

/-- Each device holds the line of its own. -/
def Watering.Placed (s : Watering) : Prop :=
  ∀ r, (s.hardware.slot r).binding.2.2 = some (s.hardware.slot r).offset

namespace World

variable {w w₁ w' : World} {limits : Limits} {c : WateringCommand} {cs : List WateringCommand}
  {moves : List Move} {r : Except LineError Unit}

theorem Keeps.settings {s s' : Watering} (h : Keeps s s') : s'.settings = s.settings := by
  have hline : ∀ r, (s'.hardware.slot r).offset = (s.hardware.slot r).offset :=
    fun r => congrArg (fun b => b.2.1) (h.bindings r)
  have hlines : s'.hardware.slots.map Slot.offset = s.hardware.slots.map Slot.offset :=
    congrArg₂ Each.mk (hline .valve) (hline .pump)
  rw [Watering.settings, Watering.settings, h.enabled, h.timing, hlines]

theorem Keeps.placed {s s' : Watering} (h : Keeps s s') (hs : s.Placed) : s'.Placed := by
  intro r
  have hline : (s'.hardware.slot r).offset = (s.hardware.slot r).offset :=
    congrArg (fun b => b.2.1) (h.bindings r)
  rw [h.bindings r, hline]
  exact hs r

/-- Whatever else happens, settings and bindings stay. -/
theorem Steady.keeps_aside (h : w.Steady) {m : Move} (hm : m.act? = none)
    (hnext : w.next m = some w') : Keeps w.system w'.system := by
  cases m with
  | call c =>
    obtain ⟨-, hc⟩ := next_call hnext
    cases c with
    | say e =>
      obtain ⟨-, rfl⟩ := call_say hc
      exact .of_hardware rfl rfl rfl
    | _ => cases hm
  | _ => exact h.keeps_next rfl hnext

/-- A command that is no move does nothing to the controller. -/
theorem Steady.hardware_command (h : w.Steady) (hc : ∀ role line, c ≠ .setLine role line)
    (hcall : w.call (c.call limits) = some w') : w'.system.hardware = w.system.hardware := by
  cases c with
  | start flow =>
    obtain ⟨_, -, -, rfl⟩ | ⟨hrefusal, -, rfl⟩ := call_start hcall
    · rfl
    · rw [(h.start_eq hrefusal).2]
  | stop =>
    obtain ⟨-, rfl⟩ | ⟨-, rfl⟩ := call_askStop hcall
    · rfl
    · rw [h.declineStop_eq]
  | setDuration i ms =>
    obtain rfl := Option.some.inj hcall
    rfl
  | setLine role line => exact absurd rfl (hc role line)
  | enable role on =>
    obtain rfl := Option.some.inj hcall
    rfl

theorem Reachable.timing_command (h : w.Reachable) (hcall : w.call (c.call limits) = some w') :
    w'.system.timing = (c.settle limits w.system.settings).timing := by
  cases c with
  | start flow =>
    obtain ⟨_, -, -, rfl⟩ | ⟨hrefusal, -, rfl⟩ := call_start hcall
    · rfl
    · rw [(h.steady.start_eq hrefusal).2]
      rfl
  | stop =>
    obtain ⟨-, rfl⟩ | ⟨-, rfl⟩ := call_askStop hcall
    · rfl
    · rw [h.steady.declineStop_eq]
      rfl
  | setDuration i ms =>
    obtain rfl := Option.some.inj hcall
    rfl
  | setLine role line =>
    obtain ⟨-, rfl⟩ := call_rebind hcall
    exact (h.rebind_keeps _).2
  | enable role on =>
    obtain rfl := Option.some.inj hcall
    rfl

/-- A move that succeeds puts each device on the line that is wanted for it, or on its own. -/
theorem Reachable.lines_command (h : w.Reachable) {role : Role} {line : Int}
    (hcall : w.call ((WateringCommand.setLine role line).call limits) = some w')
    (hok : w.outcome ((WateringCommand.setLine role line).call limits) = .ok ()) :
    w'.system.Placed ∧ w'.system.settings.lines =
      ((WateringCommand.setLine role line).settle limits w.system.settings).lines := by
  obtain ⟨-, rfl⟩ := call_rebind hcall
  refine ⟨fun q => ?_, Each.ext_get fun q => ?_⟩
  · obtain ⟨o, ho, hline, hslot⟩ := h.rebind_holds hok q
    rw [Slot.binding, ho, hslot, Option.map_some, hline]
  · obtain ⟨o, -, -, hslot⟩ := h.rebind_holds hok q
    rw [Each.get_set, Each.get_both] at hslot
    simp only [Watering.settings, WateringCommand.settle, Each.get_map, Each.get_set]
    refine hslot.trans ?_
    split <;> rfl

/-- **The settings after a command that did not fail.** -/
theorem Reachable.settings_command (h : w.Reachable)
    (hcall : w.call (c.call limits) = some w') (hok : w.outcome (c.call limits) = .ok ()) :
    w'.system.settings = c.settle limits w.system.settings := by
  have henabled : w'.system.enabled = (c.settle limits w.system.settings).enabled := by
    rw [h.steady.enabled_call hcall]
    cases c <;> rfl
  have hlines : w'.system.settings.lines = (c.settle limits w.system.settings).lines := by
    cases c with
    | setLine role line => exact (h.lines_command hcall hok).2
    | _ =>
      rw [Watering.settings, h.steady.hardware_command (by rintro _ _ ⟨⟩) hcall]
      rfl
  exact Settings.ext henabled (h.timing_command hcall) hlines

/-- **Commands that succeed leave what the last ones about it say.** -/
theorem Follows.settled (h : Follows limits cs w moves r w') (hr : r = .ok ())
    (hw : w.Reachable) :
    w'.system.settings = cs.foldl (WateringCommand.settle limits) w.system.settings := by
  induction h with
  | done => rfl
  | aside hm hnext _ ih =>
    rw [ih hr (hw.move hnext), (hw.steady.keeps_aside hm hnext).settings]
  | command hnext hok _ ih =>
    rw [ih hr (hw.move hnext), hw.settings_command (next_call hnext).2 hok, List.foldl_cons]
  | failure => cases hr

/-- Where a move is among them, both devices hold their lines in the end. -/
theorem Follows.placed (h : Follows limits cs w moves r w') (hr : r = .ok ()) (hw : w.Reachable)
    (hplaced : w.system.Placed ∨ ∃ role line, .setLine role line ∈ cs) : w'.system.Placed := by
  induction h with
  | done => exact hplaced.resolve_right (by simp)
  | aside hm hnext _ ih =>
    exact ih hr (hw.move hnext) (hplaced.imp_left (hw.steady.keeps_aside hm hnext).placed)
  | @command c cs w w₁ w' moves r hnext hok _ ih =>
    refine ih hr (hw.move hnext) ?_
    obtain ⟨-, hcall⟩ := next_call hnext
    by_cases hmove : ∃ role line, c = .setLine role line
    · obtain ⟨role, line, rfl⟩ := hmove
      exact .inl (hw.lines_command hcall hok).1
    · simp only [not_exists] at hmove
      refine hplaced.imp (fun h q => ?_) ?_
      · rw [hw.steady.hardware_command hmove hcall]
        exact h q
      · rintro ⟨role, line, hmem⟩
        exact ⟨role, line, (List.mem_cons.mp hmem).resolve_left (hmove role line ·.symm)⟩
  | failure => cases hr

end World

end Irrigation
