import Irrigation.Config
import Irrigation.Proofs.Results
import Irrigation.Proofs.Workshop.Ownership
import Irrigation.Proofs.World.Calls

/-!
# Pins on the board

A configuration that was accepted names two different lines up to its highest offset
(`Config.Sound`). On a chip that has all of these lines the two can be had unless somebody claims
them, and no watering command takes a device off the board again: `Watering.OnBoard` is kept by
every move of a session in which the caller gives watering commands (`Move.Commanded`), whatever
numbers the commands name. A command can only fail because a line is taken, by a third party or
by the other device. `World.stays_on_board` puts this together.
-/

namespace Irrigation

/-! ## Configurations -/

namespace Config

variable {c : Config}

/-- What is checked of a configuration. -/
structure Sound (c : Config) : Prop where
  apart : c.valvePin ≠ c.pumpPin
  within : ∀ role, (c.pins.get role).offset ≤ c.maxPinOffset

theorem sound_of_validate (h : c.validate = .ok ()) : c.Sound := by
  unfold validate at h
  split at h
  · cases h
  · next hne =>
    split at h
    · cases h
    · next hle =>
      rw [not_or, UInt32.not_lt, UInt32.not_lt] at hle
      refine ⟨hne, fun role => ?_⟩
      cases role with
      | valve => exact hle.1
      | pump => exact hle.2

/-- A configuration that is read from a file was checked. -/
theorem sound_of_ofFile {content : Except FileError String} (h : ofFile content = .ok c) :
    c.Sound := by
  unfold ofFile at h
  obtain ⟨text, -, h⟩ := exists_of_bind_eq_ok h
  obtain ⟨c', -, h⟩ := exists_of_bind_eq_ok h
  obtain ⟨_, hcheck, h⟩ := exists_of_bind_eq_ok h
  obtain rfl : c' = c := Except.ok.inj h
  exact sound_of_validate hcheck

/-- What wiring a configuration on a rig leads to: both lines are claimed in the controller's name
and inactive. -/
structure Wires (c : Config) (rig : Rig) (s : Watering) : Prop where
  wired : Watering.wire rig c.pins c.timing c.enabled = .ok s
  slot : ∀ role, s.hardware.slot role =
    ⟨(c.pins.get role).polarity, (c.pins.get role).offset, some (c.pins.get role).fresh⟩
  claimed : ∀ role, s.rig.chip.consumer? (c.pins.get role).offset = some Wiring.consumer
  inactive : ∀ role, s.rig.chip.level? (c.pins.get role).offset =
    some ((c.pins.get role).polarity.level false)

end Config

/-! ## Devices on the board -/

namespace Watering

variable {s s' : Watering} {max : Offset}

theorem sameBoard_touch (hfitted : s.iterationHardware.Fitted) (p : Point) :
    Chip.SameBoard s.rig.chip (s.touch p).2.chip := by
  cases hcall : p.calls with
  | some call =>
    obtain ⟨role, on⟩ := call
    rw [touch_of_call hcall]
    cases ho : (s.iterationHardware.slot role).output with
    | some o =>
      rw [served_of_some ho]
      exact (Rig.sameOff_switch ..).sameBoard
    | none =>
      rw [(served_of_none ho on).2.1]
      exact .refl _
  | none =>
    rcases touch_of_no_call (s := s) hcall with htouch | ⟨role, htouch⟩
    · rw [htouch]
      exact .refl _
    · rw [htouch]
      exact (Controller.sameOff_unbind hfitted role s.rig).sameBoard

/-- Both devices are bound, to different lines up to `max`, on an open chip that has all of these
lines. -/
structure OnBoard (max : Offset) (s : Watering) : Prop where
  isOpen : s.rig.chip.isOpen
  hasLine : ∀ n ≤ max, s.rig.chip.hasLine n
  bound : ∀ role, (s.hardware.slot role).isBound
  apart : s.hardware.Apart
  within : ∀ role, s.hardware.line role ≤ max

/-- Each device stays bound where it is. -/
theorem OnBoard.of_bindings (h : s.OnBoard max)
    (hb : ∀ role, (s'.hardware.slot role).binding = (s.hardware.slot role).binding)
    (hchip : Chip.SameBoard s.rig.chip s'.rig.chip) : s'.OnBoard max := by
  have hline : ∀ role, s'.hardware.line role = s.hardware.line role := fun role =>
    congrArg (fun b => b.2.1) (hb role)
  have hbound : ∀ role, (s'.hardware.slot role).isBound = (s.hardware.slot role).isBound := by
    intro role
    have hout := congrArg (fun b => b.2.2.isSome) (hb role)
    rwa [Slot.binding, Slot.binding, Option.isSome_map, Option.isSome_map] at hout
  refine ⟨hchip.isOpen ▸ h.isOpen, fun n hn => hchip.hasLine n ▸ h.hasLine n hn,
    fun role => hbound role ▸ h.bound role, ?_, fun role => hline role ▸ h.within role⟩
  rw [Controller.Apart, hline, hline]
  exact h.apart

/-- The controller and the chip stay as they are. -/
theorem OnBoard.of_hardware (h : s.OnBoard max) (hc : s'.hardware = s.hardware)
    (hchip : s'.rig.chip = s.rig.chip) : s'.OnBoard max :=
  h.of_bindings (fun _ => by rw [hc]) (by rw [hchip]; exact .refl _)

variable {others : List Output} {wanted : Each (Option Offset)}

/-- Where a move to lines up to `max` is to take the devices. -/
theorem OnBoard.targets_le (h : s.OnBoard max) (hwanted : ∀ role n, wanted.get role = some n →
    n ≤ max) (role : Role) : (s.hardware.targets wanted).get role ≤ max := by
  rw [Controller.get_targets]
  cases hn : wanted.get role with
  | none => exact h.within role
  | some n => exact hwanted role n hn

/-- **A move on the board** takes both devices to lines of the board, or leaves them there. -/
theorem OnBoard.rebind (h : s.OnBoard max) (hhosts : s.rig.Hosts s.hardware others)
    (hfree : s.linesHeld = false) (hwanted : ∀ role n, wanted.get role = some n → n ≤ max) :
    (s.rebind wanted).2.OnBoard max := by
  rw [Watering.rebind, awaitLines_of_free hfree]
  have hsame := Controller.sameBoard_rebind hhosts wanted
  refine ⟨hsame.isOpen ▸ h.isOpen, fun n hn => hsame.hasLine n ▸ h.hasLine n hn,
    Controller.bound_rebind hhosts h.isOpen h.bound wanted,
    Controller.apart_rebind hhosts h.apart wanted, fun role => ?_⟩
  change (s.hardware.rebind wanted s.rig).2.1.line role ≤ max
  rcases Controller.line_rebind_or hhosts wanted role with hline | hline
  · rw [hline]
    exact h.targets_le hwanted role
  · rw [hline]
    exact h.within role

/-- **It can only fail because a line is taken**, by somebody else or by the other device. -/
theorem OnBoard.rebind_error (h : s.OnBoard max) (hhosts : s.rig.Hosts s.hardware others)
    (hfree : s.linesHeld = false) (hwanted : ∀ role n, wanted.get role = some n → n ≤ max)
    {e : LineError} (he : (s.rebind wanted).1 = .error e) :
    ∃ n ≤ max, e = .shared n ∨ e = .busy n := by
  have htarget := h.targets_le hwanted
  rw [Watering.rebind, awaitLines_of_free hfree] at he
  change (s.hardware.rebind wanted s.rig).1 = .error e at he
  rw [Controller.rebind_result hhosts h.isOpen] at he
  split at he
  · exact ⟨_, htarget .valve, .inl (Except.error.inj he).symm⟩
  · split at he
    · cases he
    · next e' hrefused =>
      obtain rfl := Except.error.inj he
      obtain ⟨role, -, hobstacle⟩ := List.exists_of_findSome?_eq_some hrefused
      refine ⟨_, htarget role, .inr ?_⟩
      rw [Controller.obstacle?, h.hasLine _ (htarget role)] at hobstacle
      simp only [Bool.not_true, Bool.false_eq_true, if_false] at hobstacle
      split at hobstacle
      · exact (Option.some.inj hobstacle).symm
      · cases hobstacle

end Watering

/-! ## Sessions of watering commands -/

/-- The moves of a session in which the caller gives watering commands: the calls by which these
are carried out, what the caller writes and waits for meanwhile, the steps of the worker, and
whatever third parties do. -/
inductive Move.Commanded (limits : Limits) : Move → Prop
  | command (c : WateringCommand) : Commanded limits (.call (c.call limits))
  | say (e : Effect) : Commanded limits (.call (.say e))
  | raiseStop : Commanded limits .raiseStop
  | joinWorker : Commanded limits .joinWorker
  | work : Commanded limits .work
  | guest (g : GuestMove) : Commanded limits (.guest g)

theorem Move.attends_commanded (limits : Limits) : Move.Attends (Commanded limits) :=
  ⟨.work, .say, .raiseStop, .joinWorker⟩

/-- A line that a command names is brought into range. -/
theorem le_of_setLine {limits : Limits} {r role : Role} {line : Int} {n : Offset}
    (h : ((Each.both none).set r
      (some (.ofNat (clamp limits.maxPinOffset.toNat line)))).get role = some n) :
    n ≤ limits.maxPinOffset := by
  rw [Each.get_set] at h
  split at h
  · obtain rfl := Option.some.inj h
    rw [UInt32.le_iff_toNat_le, UInt32.toNat_ofNat']
    exact Nat.le_trans (Nat.mod_le ..) (clamp_le ..)
  · rw [Each.get_both] at h
    cases h

namespace World

variable {w w' : World} {limits : Limits}

/-- Only calls can close the chip. -/
theorem Reachable.sameBoard_next (h : w.Reachable) {m : Move} (hcall : m.isCall = false)
    (hm : w.next m = some w') : Chip.SameBoard w.system.rig.chip w'.system.rig.chip := by
  cases m with
  | call c => cases hcall
  | raiseStop =>
    obtain ⟨origin, -, rfl⟩ := next_raiseStop hm
    exact .refl _
  | joinWorker =>
    obtain ⟨origin, -, -, rfl⟩ := next_joinWorker hm
    simp only [h.steady.concludeStop_eq]
    exact .refl _
  | guest g =>
    obtain rfl := Option.some.inj hm
    exact Workshop.sameBoard_guest ..
  | work =>
    obtain ⟨hwork, rfl⟩ := next_work hm
    obtain ⟨p, s', hp, -, -, hstep, ha⟩ := h.steady.step hwork
    have hfitted : w.system.iterationHardware.Fitted :=
      (h.orderly.houses.perm w.live_perm).hosts.fitted
    have hsame := Watering.sameBoard_touch (s := w.system.actAs .worker) hfitted p
    rw [← ha.chip] at hsame
    simp only [hstep]
    exact hsame

/-- What a call of a watering command leaves on the board. -/
theorem Reachable.onBoard_call (h : w.Reachable) (hb : w.system.OnBoard limits.maxPinOffset)
    (c : WateringCommand) (hc : w.call (c.call limits) = some w') :
    w'.system.OnBoard limits.maxPinOffset := by
  cases c with
  | start flow =>
    obtain ⟨_, -, -, rfl⟩ | ⟨hrefusal, -, rfl⟩ := call_start hc
    · exact hb.of_hardware rfl rfl
    · simp only [(h.steady.start_eq hrefusal).2]
      exact hb.of_hardware rfl rfl
  | stop =>
    obtain ⟨-, rfl⟩ | ⟨-, rfl⟩ := call_askStop hc
    · exact hb.of_hardware rfl rfl
    · simp only [h.steady.declineStop_eq]
      exact hb.of_hardware rfl rfl
  | setDuration i ms =>
    obtain rfl := Option.some.inj hc
    exact hb.of_hardware rfl rfl
  | setLine r line =>
    obtain ⟨hfree, rfl⟩ := call_rebind hc
    exact hb.rebind h.orderly.houses.hosts hfree fun _ _ => le_of_setLine
  | enable r on =>
    obtain rfl := Option.some.inj hc
    exact hb.of_hardware rfl rfl

/-- **A session of watering commands stays on the board**, move by move. -/
theorem Reachable.onBoard_next (h : w.Reachable) (hb : w.system.OnBoard limits.maxPinOffset)
    {m : Move} (hm : m.Commanded limits) (hnext : w.next m = some w') :
    w'.system.OnBoard limits.maxPinOffset := by
  have hother : m.isCall = false → w'.system.OnBoard limits.maxPinOffset := fun hcall =>
    hb.of_bindings (h.steady.keeps_next hcall hnext).bindings (h.sameBoard_next hcall hnext)
  cases hm with
  | command c => exact h.onBoard_call hb c (next_call hnext).2
  | say e =>
    obtain ⟨-, rfl⟩ := call_say (next_call hnext).2
    exact hb.of_hardware rfl rfl
  | raiseStop => exact hother rfl
  | joinWorker => exact hother rfl
  | work => exact hother rfl
  | guest g => exact hother rfl

theorem Reachable.onBoard_run (h : w.Reachable) (hb : w.system.OnBoard limits.maxPinOffset)
    (moves : List Move) (hmoves : ∀ m ∈ moves, m.Commanded limits)
    (hrun : World.run moves w = some w') : w'.system.OnBoard limits.maxPinOffset := by
  have hkept : w'.Reachable ∧ w'.system.OnBoard limits.maxPinOffset :=
    run_induction (P := fun v => v.Reachable ∧ v.system.OnBoard limits.maxPinOffset)
      (fun hv hm hnext => ⟨.move hv.1 hnext, hv.1.onBoard_next hv.2 hm hnext⟩)
      ⟨h, hb⟩ moves hmoves hrun
  exact hkept.2

/-! ## Commands of the service -/

/-- A move of one device fails only because a line is taken. -/
theorem Reachable.setLine_error (h : w.Reachable) (hb : w.system.OnBoard limits.maxPinOffset)
    (hfree : w.caller = .free) {sv : Service} (hsv : sv.system = w.system)
    (hl : sv.limits = limits) {r : Role} {line : Int} {e : Error}
    (he : (sv.setLine r line).1 = .error e) :
    ∃ n ≤ limits.maxPinOffset, e = .line (.shared n) ∨ e = .line (.busy n) := by
  have hA := Move.attends_commanded limits
  -- the world in which the number was brought into range, and the one in which the lines are free
  obtain ⟨moves, w₁, hmoves, hrun, h₁, hfree₁, hs₁⟩ :=
    (acts_clampReported hA r.label line limits.maxPinOffset.toNat).does h.steady hfree hsv hl
  obtain ⟨more, w₂, hmore, hrun₂, -, -, hs₂⟩ := (performs_awaitLines hA).does h₁ hfree₁
  have hb₂ := (h.run moves hrun).onBoard_run (h.onBoard_run hb moves hmoves hrun) more hmore hrun₂
  have hlines : w₂.system.linesHeld = false := by
    rw [hs₂]
    exact h₁.awaitLines
  have hhosts := ((h.run moves hrun).run more hrun₂).orderly.houses.hosts
  have hclamp : (sv.clampReported r.label line limits.maxPinOffset.toNat).1 =
      clamp limits.maxPinOffset.toNat line := rfl
  rw [Service.setLine, hl] at he
  simp only [hclamp, ← hs₁, Watering.move, awaitLines_rebind h₁.awaitLines, ← hs₂] at he
  split at he
  · cases he
  · next e' _ hmove =>
    obtain rfl := Except.error.inj he
    obtain ⟨n, hn, hcause⟩ := hb₂.rebind_error hhosts hlines (fun _ _ => le_of_setLine)
      (congrArg Prod.fst hmove)
    exact ⟨n, hn, hcause.imp (congrArg Error.line) (congrArg Error.line)⟩

/-- **A watering command fails only because a line is taken**, by the other device or by a third
party. -/
theorem Reachable.handle_error (h : w.Reachable) (hb : w.system.OnBoard limits.maxPinOffset)
    (hfree : w.caller = .free) {sv : Service} (hsv : sv.system = w.system)
    (hl : sv.limits = limits) {c : WateringCommand} {e : Error}
    (he : (sv.handle c).1 = .error e) :
    ∃ n ≤ limits.maxPinOffset, e = .line (.shared n) ∨ e = .line (.busy n) := by
  cases c with
  | setLine r line => exact h.setLine_error hb hfree hsv hl he
  | _ => cases he

/-- What it means for a world that watering commands keep the devices on the board. -/
structure KeepsOnBoard (limits : Limits) (w : World) : Prop where
  /-- Both devices are bound, to different lines up to the highest offset. -/
  onBoard : w.system.OnBoard limits.maxPinOffset
  /-- A command that a service with these limits carries out now fails only because a line is
  taken. -/
  errors : ∀ (sv : Service) (c : WateringCommand) (e : Error), w.caller = .free →
    sv.system = w.system → sv.limits = limits → (sv.handle c).1 = .error e →
    ∃ n ≤ limits.maxPinOffset, e = .line (.shared n) ∨ e = .line (.busy n)
  /-- What it does are moves of the session, so that the next command finds such a world again. -/
  goesOn : ∀ (sv : Service) (c : WateringCommand), w.caller = .free → sv.system = w.system →
    sv.limits = limits → (sv.handle c).2.limits = limits ∧
      w.Does (Move.Commanded limits) (sv.handle c).2.system

theorem Reachable.keepsOnBoard (h : w.Reachable) (hb : w.system.OnBoard limits.maxPinOffset) :
    w.KeepsOnBoard limits where
  onBoard := hb
  errors _ _ _ hfree hsv hl he := h.handle_error hb hfree hsv hl he
  goesOn sv c hfree hsv hl := by
    have hacts := acts_handle (Move.attends_commanded limits) (.command c)
    exact ⟨(hacts.keeps sv).trans hl, hacts.does h.steady hfree hsv hl⟩

/-! ## From a configuration -/

/-- **A sound configuration can be wired** where its lines exist and nobody claims the two of its
devices. -/
theorem wires_of_free {c : Config} (h : c.Sound) {rig : Rig} {guests : List Output}
    (hserves : rig.Serves guests) (hopen : rig.chip.isOpen)
    (hlines : ∀ n ≤ c.maxPinOffset, rig.chip.hasLine n)
    (hfree : ∀ role, rig.chip.isClaimed (c.pins.get role).offset = false) :
    ∃ s, c.Wires rig s ∧ s.OnBoard c.maxPinOffset := by
  have hgranted : (Controller.wire c.pins rig).1 = .ok (Controller.wired c.pins) :=
    Controller.wire_granted h.apart fun role =>
      (Chip.refusal?_eq_none _ _).mpr ⟨hopen, hlines _ (h.within role), hfree role⟩
  obtain ⟨s, hs⟩ : ∃ s, Watering.wire rig c.pins c.timing c.enabled = .ok s := by
    unfold Watering.wire
    rcases hw : Controller.wire c.pins rig with ⟨e | hardware, rig'⟩
    · rw [hw] at hgranted
      cases hgranted
    · exact ⟨_, rfl⟩
  obtain ⟨rig', hwire, -, hchip, -⟩ := wire_eq_ok hs
  obtain ⟨-, hapart, hlabels⟩ := Controller.wire_ok hwire
  obtain ⟨hhosts, hslot⟩ := Controller.hosts_wire hserves hwire
  have hsame := (Controller.sameOff_wire c.pins rig).sameBoard
  rw [hwire, ← hchip] at hsame
  have hbound : ∀ role, (s.hardware.slot role).isBound := fun role => by rw [hslot]; rfl
  have hline : ∀ role, s.hardware.line role = (c.pins.get role).offset := fun role => by
    rw [Controller.line, hslot]
  refine ⟨s, ⟨hs, hslot, fun role => ?_, fun role => ?_⟩, hsame.isOpen ▸ hopen,
    fun n hn => hsame.hasLine n ▸ hlines n hn, hbound, hapart,
    fun role => hline role ▸ h.within role⟩
  · rw [← hline, hchip]
    exact hlabels (hchip ▸ hsame.isOpen ▸ hopen) role (hbound role)
  · rw [hchip]
    exact hhosts.serves.level (c.pins.get role).fresh
      (List.mem_append_left _ (Controller.mem_outputs.mpr ⟨role, by rw [hslot]⟩)) rfl

theorem sameBoard_guests (before : List GuestMove) :
    ∀ (r : Rig) (held : List Output),
      Chip.SameBoard r.chip (before.foldl (fun x g => g.apply x) (r, held)).1.chip := by
  induction before with
  | nil => exact fun _ _ => .refl _
  | cons g rest ih => exact fun r held => (Workshop.sameBoard_guest r held g).trans (ih ..)

/-- **Pins stay on the board.** A configuration read from a file can be wired on every chip with
more lines than its highest offset, whatever third parties did there, as long as they left its two
lines free. And no sequence of watering commands takes a device off the board again, however the
worker and third parties move meanwhile. -/
theorem stays_on_board {content : Except FileError String} {c : Config}
    (hread : Config.ofFile content = .ok c) {path : String} {lines : Nat}
    (hlines : c.maxPinOffset.toNat < lines) {before : List GuestMove} {rig : Rig}
    {guests : List Output}
    (hbefore : before.foldl (fun x g => g.apply x) (Rig.openChip path lines, []) = (rig, guests))
    (hfree : ∀ role, rig.chip.isClaimed (c.pins.get role).offset = false) :
    ∃ s, c.Wires rig s ∧ ∀ (moves : List Move) (w : World),
      (∀ m ∈ moves, m.Commanded c.limits) → World.run moves { system := s, guests } = some w →
        w.KeepsOnBoard c.limits := by
  have hsound := Config.sound_of_ofFile hread
  have hguests := houses_guests before (Rig.openChip path lines) []
    ⟨serves_openChip path lines, fun _ hc => absurd hc List.not_mem_nil⟩
  have hsame := sameBoard_guests before (Rig.openChip path lines) []
  rw [hbefore] at hguests hsame
  obtain ⟨s, hwires, hb⟩ := wires_of_free hsound hguests.serves (hsame.isOpen ▸ rfl)
    (fun n hn => hsame.hasLine n ▸ decide_eq_true (Nat.lt_of_le_of_lt hn hlines)) hfree
  have hreach := Reachable.wired before hbefore hwires.wired
  have hb : s.OnBoard c.limits.maxPinOffset := hb
  exact ⟨s, hwires, fun moves w hmoves hrun =>
    (hreach.run moves hrun).keepsOnBoard (hreach.onBoard_run hb moves hmoves hrun)⟩

/-- The configuration of a board of eight lines. -/
def smallBoard : Config := { Config.initial with valvePin := 3, pumpPin := 4, maxPinOffset := 7 }

/-- Such a board, of which a third party has a line. -/
def sharedRig : Rig := ((Rig.openChip "gpiochip0" 8).request "fan" 5 .output .activeHigh).2

/-- A session in which the open valve is sent far off the board. -/
def farOff : List Move :=
  .call ((WateringCommand.start none).call smallBoard.limits) ::
    (List.replicate 10 .work ++
      [.call ((WateringCommand.setLine .valve 4294967299).call smallBoard.limits)])

/-- What a service says of a command to move the pump. -/
def pumpAnswer (w : World) (line : Int) : Except Error Unit :=
  ((Service.mk w.system smallBoard.limits none).handle (.setLine .pump line)).1

/-- The valve comes to the last line of the board. The pump cannot be sent there too, nor to the
line of the third party, but a negative number takes it to the first line. -/
theorem on_board_while_watering : ∃ (s : Watering) (w : World),
    World.run farOff { system := s, guests := [Pin.fresh ⟨5, .activeHigh⟩] } = some w ∧
    (lit w.trace .valve = true ∧ w.system.hardware.line .valve = 7 ∧
      w.pumpAnswer 8 = .error (.line (.shared 7)) ∧ w.pumpAnswer 5 = .error (.line (.busy 5)) ∧
      w.pumpAnswer (-1) = .ok ()) ∧
    w.KeepsOnBoard smallBoard.limits := by
  have hread : Config.ofFile
      (.ok "\x7b\"valve_pin\": 3, \"pump_pin\": 4, \"max_pin_offset\": 7\x7d") =
        .ok smallBoard := by rfl
  have hbefore : [GuestMove.request "fan" 5 .output .activeHigh].foldl (fun x g => g.apply x)
      (Rig.openChip "gpiochip0" 8, []) = (sharedRig, [Pin.fresh ⟨5, .activeHigh⟩]) := rfl
  have hfree : ∀ role, sharedRig.chip.isClaimed (smallBoard.pins.get role).offset = false :=
    fun role => by cases role <;> rfl
  obtain ⟨s, hwires, hall⟩ := stays_on_board hread (by decide) hbefore hfree
  have hrun : ((Watering.wire sharedRig smallBoard.pins smallBoard.timing
      smallBoard.enabled).toOption.bind fun system =>
        World.run farOff { system, guests := [Pin.fresh ⟨5, .activeHigh⟩] }).any
      (fun w => lit w.trace .valve = true ∧ w.system.hardware.line .valve = 7 ∧
        w.pumpAnswer 8 = .error (.line (.shared 7)) ∧ w.pumpAnswer 5 = .error (.line (.busy 5)) ∧
        w.pumpAnswer (-1) = .ok ()) = true := by
    decide +kernel
  rw [hwires.wired] at hrun
  obtain ⟨w, hw, hfacts⟩ := (Option.any_eq_true _ _).mp hrun
  refine ⟨s, w, hw, of_decide_eq_true hfacts, hall farOff w ?_ hw⟩
  rw [farOff, List.forall_mem_cons, List.forall_mem_append, List.forall_mem_singleton]
  exact ⟨.command _, fun m hm => List.eq_of_mem_replicate hm ▸ .work, .command _⟩

end World

end Irrigation
