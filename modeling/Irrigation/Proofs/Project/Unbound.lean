import Irrigation.Proofs.Project.AllOrNothing
import Irrigation.Proofs.Project.RoundTrip

/-!
# Devices without a line

A device that is enabled but has lost its line is said to be saved without a pin. What is stored is
the pin 0, though, and an enabled device with the pin 0 asks for line 0 when it is loaded
(`Watering.storedLine`). So the device does not stay where it is in the system that loads: it is
moved to line 0, unless the other device is to be there, and then the load is refused
(`Watering.Zeroes`, `Watering.unbound_goes_to_zero`).
-/

namespace Irrigation

open Project

namespace Watering

variable {source target : Watering} {role : Role}

/-! ## What a load asks for after a save -/

/-- The line that is asked for a role by what a system stored. -/
def storedLine (s : Watering) (role : Role) : Option Offset :=
  if s.enabled.get role then
    some (if (s.hardware.slot role).isBound then (s.hardware.slot role).offset else 0)
  else none

/-- Where a role is to be in a system that loads what another one stored. -/
def storedTarget (source target : Watering) (role : Role) : Offset :=
  (source.storedLine role).getD (target.hardware.slot role).offset

/-- A stored pin is the number of a line. -/
theorem toNat_pin_storedDevice_lt (s : Watering) (role : Role) :
    (s.storedDevice role).pin.toNat < UInt32.size := by
  simp only [storedDevice]
  split
  · exact UInt32.toNat_lt_size _
  · decide

theorem sound_storedSettings (s : Watering) : s.storedSettings.Sound where
  mode := rfl
  pins := by
    intro role e he _
    rw [device?_storedSettings] at he
    obtain rfl := Option.some.inj he
    exact toNat_pin_storedDevice_lt s role

theorem line?_storedSettings (s : Watering) (role : Role) :
    s.storedSettings.flow.line? role = s.storedLine role := by
  rw [Flow.line?, device?_storedSettings, Option.bind_some, storedLine]
  by_cases hon : s.enabled.get role = true <;>
    by_cases hb : (s.hardware.slot role).isBound = true <;> simp [storedDevice, hon, hb]

theorem storedLine_of_unbound (hon : source.enabled.get role = true)
    (hlost : (source.hardware.slot role).isBound = false) : source.storedLine role = some 0 := by
  rw [storedLine, if_pos hon, hlost]
  rfl

theorem get_targets_stored (source target : Watering) (role : Role) :
    (target.hardware.targets source.storedSettings.flow.lines).get role =
      source.storedTarget target role := by
  rw [Controller.get_targets, Flow.get_lines, line?_storedSettings]
  rfl

/-- **Loading what a system stored** comes down to one move, whatever lines it held. -/
theorem loadFrom_stored (source : Watering) (d : Document)
    (hsafe : target.rig.faults.deadlyLine = none) :
    ∃ s₁, target.LoadsByMove (source.saveTo d).1 source.storedSettings s₁ :=
  loadsByMove hsafe (section?_saveTo d source) (Section.ofValue_sorted source.storedSettings)
    (sound_storedSettings source)

/-- The move that a load makes in a system that is alone. -/
theorem Alone.rebind_eq (ha : target.Alone) (wanted : Each (Option Offset)) :
    target.rebind wanted = ((target.hardware.rebind wanted target.rig).1,
      { target with
        hardware := (target.hardware.rebind wanted target.rig).2.1
        rig := (target.hardware.rebind wanted target.rig).2.2 }) := by
  rw [Watering.rebind, awaitLines_of_free ha.free]

/-- A load is refused if both devices are to be on one line. -/
theorem load_stored_shared (d : Document) (ha : target.Alone)
    (hsafe : target.rig.faults.deadlyLine = none)
    (hsame : source.storedTarget target .valve = source.storedTarget target .pump) :
    (target.loadFrom (source.saveTo d).1).1 =
        .error (.line (.shared (source.storedTarget target .valve))) ∧
      target.Agrees (target.loadFrom (source.saveTo d).1).2 := by
  obtain ⟨s₁, hload⟩ := loadFrom_stored source d hsafe
  rw [← get_targets_stored, ← get_targets_stored] at hsame
  have hmove : target.rebind source.storedSettings.flow.lines =
      (.error (.shared (source.storedTarget target .valve)), target) := by
    rw [ha.rebind_eq, Controller.rebind_shared hsame, ← get_targets_stored]
    rfl
  have hagrees := hload.agrees
  rw [hmove] at hagrees
  rw [hload.failed _ (congrArg Prod.fst hmove)]
  exact ⟨rfl, hagrees⟩

/-- Else each device is where it is to be, if the chip has the lines that are asked for. -/
theorem load_stored_apart (d : Document) (ha : target.Alone)
    (hsafe : target.rig.faults.deadlyLine = none)
    (hne : source.storedTarget target .valve ≠ source.storedTarget target .pump)
    (hlines : ∀ role n, source.storedLine role = some n → target.rig.chip.hasLine n) :
    (target.loadFrom (source.saveTo d).1).1 = .ok () ∧ ∀ role,
      ∃ o, ((target.loadFrom (source.saveTo d).1).2.hardware.slot role).output = some o ∧
        o.offset = source.storedTarget target role ∧
        ((target.loadFrom (source.saveTo d).1).2.hardware.slot role).offset =
          source.storedTarget target role := by
  obtain ⟨s₁, hload⟩ := loadFrom_stored source d hsafe
  rw [← get_targets_stored, ← get_targets_stored] at hne
  have hok := ha.rebind_ok hne fun role n hn =>
    hlines role n (by rw [← line?_storedSettings, ← Flow.get_lines]; exact hn)
  have hheld := Controller.holds_targets ha.hosts hok
  simp only [get_targets_stored] at hheld
  have hagrees := hload.agrees
  rw [ha.rebind_eq] at hagrees
  obtain ⟨_, rfl⟩ := hagrees
  obtain ⟨s₂, ⟨_, rfl⟩, hdone⟩ := hload.done (by rw [ha.rebind_eq]; exact hok)
  rw [hdone]
  exact ⟨rfl, hheld⟩

/-! ## A device that lost its line -/

/-- What becomes of a device that is enabled and holds no line, when what was saved is loaded. -/
structure Zeroes (source target : Watering) (role : Role) (d : Document) : Prop where
  /-- It is stored as enabled, with the pin 0. -/
  stored : source.storedSettings.flow.device? role = some (source.storedDevice role) ∧
    (source.storedDevice role).enabled = true ∧ (source.storedDevice role).pin = 0
  /-- The load fails, and changes nothing, if the other device is to be on line 0. -/
  refused : source.storedTarget target role.other = 0 →
    (target.loadFrom (source.saveTo d).1).1 = .error (.line (.shared 0)) ∧
      target.Agrees (target.loadFrom (source.saveTo d).1).2
  /-- Else it succeeds, and the device is on line 0. -/
  moved : source.storedTarget target role.other ≠ 0 →
    (target.loadFrom (source.saveTo d).1).1 = .ok () ∧
      ∃ o, ((target.loadFrom (source.saveTo d).1).2.hardware.slot role).output = some o ∧
        o.offset = 0 ∧ ((target.loadFrom (source.saveTo d).1).2.hardware.slot role).offset = 0
  /-- So it stays where it is only if that is line 0, or if the load fails. -/
  stays : ((target.loadFrom (source.saveTo d).1).2.hardware.slot role).offset =
      (target.hardware.slot role).offset ↔
    source.storedTarget target role.other = 0 ∨ (target.hardware.slot role).offset = 0

theorem zeroes (d : Document) (hon : source.enabled.get role = true)
    (hlost : (source.hardware.slot role).isBound = false) (ha : target.Alone)
    (hsafe : target.rig.faults.deadlyLine = none)
    (hlines : ∀ role n, source.storedLine role = some n → target.rig.chip.hasLine n) :
    source.Zeroes target role d := by
  have hzero : source.storedTarget target role = 0 := by
    rw [storedTarget, storedLine_of_unbound hon hlost]
    rfl
  have hrefused : source.storedTarget target role.other = 0 →
      (target.loadFrom (source.saveTo d).1).1 = .error (.line (.shared 0)) ∧
        target.Agrees (target.loadFrom (source.saveTo d).1).2 := by
    intro hother
    have hboth : source.storedTarget target .valve = 0 ∧ source.storedTarget target .pump = 0 := by
      cases role
      · exact ⟨hzero, hother⟩
      · exact ⟨hother, hzero⟩
    rw [← hboth.1]
    exact load_stored_shared d ha hsafe (hboth.1.trans hboth.2.symm)
  have hmoved : source.storedTarget target role.other ≠ 0 →
      (target.loadFrom (source.saveTo d).1).1 = .ok () ∧
        ∃ o, ((target.loadFrom (source.saveTo d).1).2.hardware.slot role).output = some o ∧
          o.offset = 0 ∧
            ((target.loadFrom (source.saveTo d).1).2.hardware.slot role).offset = 0 := by
    intro hother
    have hne : source.storedTarget target .valve ≠ source.storedTarget target .pump := by
      cases role
      · exact fun h => hother (h.symm.trans hzero)
      · exact fun h => hother (h.trans hzero)
    obtain ⟨hok, hheld⟩ := load_stored_apart d ha hsafe hne hlines
    rw [← hzero]
    exact ⟨hok, hheld role⟩
  refine ⟨⟨device?_storedSettings .., hon, ?_⟩, hrefused, hmoved, ?_⟩
  · simp [storedDevice, hlost]
  · by_cases hother : source.storedTarget target role.other = 0
    · obtain ⟨-, _, hs⟩ := hrefused hother
      rw [hs]
      exact iff_of_true rfl (.inl hother)
    · obtain ⟨-, -, -, -, hoffset⟩ := hmoved hother
      rw [hoffset]
      exact ⟨fun h => .inr h.symm, fun h => (h.resolve_left hother).symm⟩

section Wired

variable {rig : Rig} {pins : Each Pin} {timing : Timing} {enabled : Each Bool}

/-- **A device that was saved without its line is loaded on line 0**, whatever the other device
does. It is the pin 0 that says so, which is what is stored for want of a pin. -/
theorem unbound_goes_to_zero (hon : source.enabled.get role = true)
    (hlost : (source.hardware.slot role).isBound = false) (d : Document)
    (hwired : Watering.wire rig pins timing enabled = .ok target)
    (hfree : ∀ n, rig.chip.isClaimed n = false) (hfaults : rig.faults = {})
    (hlines : ∀ role n, source.storedLine role = some n → rig.chip.hasLine n) :
    source.Zeroes target role d := by
  have hsafe : target.rig.faults.deadlyLine = none := by
    obtain ⟨rig', hwire, hroutine, -, -⟩ := World.wire_eq_ok hwired
    have hkept := (Rig.routine_wire pins rig).faults
    rw [hwire] at hkept
    rw [hroutine.faults, hkept, hfaults]
  refine zeroes d hon hlost (alone_wire hwired hfree (by rw [hfaults])) hsafe fun role n hn => ?_
  rw [hasLine_wire hwired]
  exact hlines role n hn

end Wired

end Watering

namespace World

open Watering

/-! ### A system that lost the line of its valve -/

/-- The valve was on line 5. When it was to move, the chip was closed, and the line was lost. -/
def valveLost : World :=
  (after ⟨⟨5, .activeLow⟩, ⟨6, .activeLow⟩⟩ [.call .closeChip, .call (.rebind ⟨some 7, none⟩)]).get
    rfl

theorem reachable_valveLost : valveLost.Reachable := reachable_of_after (Option.some_get _).symm

/-- Elsewhere the valve is moved from line 17 to line 0, and no error is returned. -/
theorem valve_moved_to_zero : ∃ target,
    Watering.wire (Rig.openChip "gpiochip0" 54) ⟨⟨17, .activeLow⟩, ⟨27, .activeLow⟩⟩ ⟨1, 1, 1⟩
      (.both true) = .ok target ∧
    valveLost.Reachable ∧ (target.hardware.slot .valve).offset = 17 ∧
    valveLost.system.Zeroes target .valve (.new "plot") ∧
    (target.loadFrom (valveLost.system.saveTo (.new "plot")).1).1 = .ok () ∧
    ((target.loadFrom (valveLost.system.saveTo (.new "plot")).1).2.hardware.slot .valve).offset =
      0 := by
  have hzeroes : valveLost.system.Zeroes _ .valve (.new "plot") := unbound_goes_to_zero rfl rfl _
    (show Watering.wire (Rig.openChip "gpiochip0" 54) ⟨⟨17, .activeLow⟩, ⟨27, .activeLow⟩⟩ ⟨1, 1, 1⟩
      (.both true) = .ok _ from rfl)
    (isClaimed_openChip "gpiochip0" 54) rfl fun role n hn => by
      cases role <;> obtain rfl := Option.some.inj hn <;> rfl
  obtain ⟨hok, o, -, -, hoffset⟩ := hzeroes.moved (by decide)
  exact ⟨_, rfl, reachable_valveLost, rfl, hzeroes, hok, hoffset⟩

end World

end Irrigation
