import Irrigation.Proofs.Hardware.Conduct
import Irrigation.Proofs.Project.Codec
import Irrigation.Proofs.Project.Loading
import Irrigation.Proofs.World.Outputs

/-!
# Saving and loading

What one system saves, a freshly wired one loads: flags, durations, and the lines of the devices
that are enabled (`Watering.Reproduces`). A device that is disabled is stored without its line, and
keeps the one that it has in the system that loads. If that is the very line of the other device in
the system that saved (`Watering.Obstructs`), the load is refused, and changes nothing.
`World.load_saved` says both.
-/

namespace Irrigation

open Project

namespace Watering

variable {s s' source target : Watering} {role : Role}

/-! ## What is stored -/

theorem onlySays_warnUnbound (r : Role) (s : Watering) : s.OnlySays (s.warnUnbound r) := by
  unfold warnUnbound
  split
  · exact .report ..
  · exact .refl s

theorem storedSettings_of_onlySays (h : s.OnlySays s') : s'.storedSettings = s.storedSettings := by
  obtain ⟨_, rfl⟩ := h
  rfl

/-- A document holds the settings that were saved into it. -/
theorem section?_saveTo (d : Document) (s : Watering) :
    (s.saveTo d).1.section? sectionKey = some s.storedSettings.value.sorted := by
  have hsaid := (onlySays_warnUnbound .valve s).trans (onlySays_warnUnbound .pump _)
  change Json.Members.find? (d.root.insert sectionKey
    ((s.warnUnbound .valve).warnUnbound .pump).storedSettings.value.sorted) sectionKey = _
  rw [Json.Members.find?_insert, if_pos rfl, storedSettings_of_onlySays hsaid]

/-- What is asked of a role by what a system stored whose devices hold lines. -/
def ownWish (s : Watering) (role : Role) : Wish where
  offset := if s.enabled.get role then some (s.hardware.slot role).offset else none
  enabled := some (s.enabled.get role)

/-- The lines that are asked for then. -/
def ownLines (s : Watering) : Each (Option Offset) :=
  ⟨(s.ownWish .valve).offset, (s.ownWish .pump).offset⟩

theorem get_ownLines (s : Watering) (role : Role) : s.ownLines.get role =
    if s.enabled.get role then some (s.hardware.slot role).offset else none := by
  cases role <;> rfl

theorem device?_storedSettings (s : Watering) (role : Role) :
    s.storedSettings.flow.device? role = some (s.storedDevice role) := by
  cases role <;> rfl

theorem wish?_storedSettings (hbound : (s.hardware.slot role).isBound) :
    s.storedSettings.flow.wish? role = .ok (s.ownWish role) := by
  unfold Flow.wish? ownWish
  rw [device?_storedSettings]
  unfold DeviceEntry.offset? storedDevice
  simp only [hbound, Bool.and_true]
  cases s.enabled.get role with
  | false => rfl
  | true =>
    have hfits : (s.hardware.slot role).offset.toNat < UInt32.size := UInt32.toNat_lt_size _
    simp [hfits, Except.map]

/-! ## A system of its own -/

/-- Lines of a chip that nobody has claimed. -/
theorem serves_of_unclaimed {rig : Rig} (hfree : ∀ n, rig.chip.isClaimed n = false)
    (hobeys : rig.faults.refusesRelease = false) : rig.Serves [] where
  nodup := .nil
  hasLine _ ho := absurd ho List.not_mem_nil
  level _ ho := absurd ho List.not_mem_nil
  claimed _ n := iff_of_false (Bool.eq_false_iff.mp (hfree n)) List.not_mem_nil
  obeys := hobeys

/-- A system that is alone on an open chip, its worker not at work, with both devices bound. -/
structure Alone (s : Watering) : Prop where
  hosts : s.rig.Hosts s.hardware []
  isOpen : s.rig.chip.isOpen
  bound : ∀ role, (s.hardware.slot role).isBound
  free : s.linesHeld = false

theorem alone_wire {rig : Rig} {pins : Each Pin} {timing : Timing} {enabled : Each Bool}
    (hwired : Watering.wire rig pins timing enabled = .ok target)
    (hfree : ∀ n, rig.chip.isClaimed n = false) (hobeys : rig.faults.refusesRelease = false) :
    target.Alone := by
  obtain ⟨rig', hwire, hroutine, hchip, htarget⟩ := World.wire_eq_ok hwired
  obtain ⟨hhosts, hslots⟩ := Controller.hosts_wire (serves_of_unclaimed hfree hobeys) hwire
  have hopen := (Controller.sameOff_wire pins rig).isOpen
  refine ⟨hhosts.of_eq hchip hroutine.faults, ?_, fun role => by rw [hslots]; rfl,
    by rw [htarget]; rfl⟩
  rw [hwire] at hopen
  rw [hchip, hopen]
  rcases Controller.wire_cases pins rig with
    ⟨-, hw⟩ | ⟨e, -, hw⟩ | ⟨e, -, -, hw⟩ | ⟨-, hv, -⟩
  · simp [hwire] at hw
  · simp [hwire] at hw
  · simp [hwire] at hw
  · exact ((Chip.refusal?_eq_none _ _).mp hv).1

theorem hasLine_wire {rig : Rig} {pins : Each Pin} {timing : Timing} {enabled : Each Bool}
    (hwired : Watering.wire rig pins timing enabled = .ok target) (n : Offset) :
    target.rig.chip.hasLine n = rig.chip.hasLine n := by
  obtain ⟨rig', hwire, -, hchip, -⟩ := World.wire_eq_ok hwired
  have h := (Controller.sameOff_wire pins rig).hasLine n
  rw [hwire] at h
  rw [hchip, h]

theorem OnlySays.alone (h : s.OnlySays s') (ha : s.Alone) : s'.Alone := by
  obtain ⟨_, rfl⟩ := h
  exact ⟨ha.hosts.of_eq rfl rfl, ha.isOpen, ha.bound, ha.free⟩

/-- Where nobody else holds a line, any two lines of the chip can be had. -/
theorem Alone.rebind_ok (h : s.Alone) {wanted : Each (Option Offset)}
    (hne : (s.hardware.targets wanted).valve ≠ (s.hardware.targets wanted).pump)
    (hlines : ∀ role n, wanted.get role = some n → s.rig.chip.hasLine n) :
    (s.hardware.rebind wanted s.rig).1 = .ok () := by
  rw [Controller.rebind_result h.hosts h.isOpen, if_neg hne, Controller.refused?_eq_none.mpr]
  refine fun role _ => ⟨?_, fun hclaimed => ?_⟩
  · rw [Controller.get_targets]
    cases hw : wanted.get role with
    | none => exact h.hosts.hasLine (h.bound role)
    | some n => exact hlines role n hw
  · exact ((h.hosts.isClaimed h.isOpen _).mp hclaimed).resolve_right List.not_mem_nil

/-! ## Loading what was saved -/

/-- What is to be the same in a system that loaded what another one saved. -/
structure Reproduces (source s : Watering) : Prop where
  enabled : s.enabled = source.enabled
  timing : s.timing = source.timing
  bound : ∀ role, source.enabled.get role = true → ∃ o, (s.hardware.slot role).output = some o ∧
    o.offset = (source.hardware.slot role).offset ∧
    (s.hardware.slot role).offset = (source.hardware.slot role).offset

/-- A device that is stored with a line cannot have it: the other device, which is stored without
one, keeps that very line in the system that loads. -/
def Obstructs (source target : Watering) (role : Role) : Prop :=
  source.enabled.get role = true ∧ source.enabled.get role.other = false ∧
    (target.hardware.slot role.other).offset = (source.hardware.slot role).offset

/-- Where a role of the system that loads is to be. -/
theorem get_targets_ownLines (source target : Watering) (role : Role) :
    (target.hardware.targets source.ownLines).get role =
      if source.enabled.get role then (source.hardware.slot role).offset
      else (target.hardware.slot role).offset := by
  rw [Controller.get_targets, get_ownLines]
  cases source.enabled.get role <;> rfl

/-- Both devices are to be on the line in question. -/
theorem Obstructs.targets (h : source.Obstructs target role) (role' : Role) :
    (target.hardware.targets source.ownLines).get role' = (source.hardware.slot role).offset := by
  obtain ⟨hon, hoff, hsame⟩ := h
  rw [get_targets_ownLines]
  by_cases hrole : role' = role
  · rw [hrole, hon, if_pos rfl]
  · obtain rfl : role' = role.other := by cases role <;> cases role' <;> simp_all [Role.other]
    rw [hoff, if_neg Bool.false_ne_true, hsame]

/-- If both devices are to be on one line, one of them is stored with it, and the other has it. -/
theorem obstructs_of_targets
    (hsource : (source.hardware.slot .valve).offset ≠ (source.hardware.slot .pump).offset)
    (htarget : (target.hardware.slot .valve).offset ≠ (target.hardware.slot .pump).offset)
    (hsame : (target.hardware.targets source.ownLines).get .valve =
      (target.hardware.targets source.ownLines).get .pump) :
    ∃ role, source.Obstructs target role := by
  rw [get_targets_ownLines, get_targets_ownLines] at hsame
  cases hv : source.enabled.get .valve <;> cases hp : source.enabled.get .pump <;>
    rw [hv, hp] at hsame
  · exact absurd hsame htarget
  · exact ⟨.pump, hp, hv, hsame⟩
  · exact ⟨.valve, hv, hp, hsame.symm⟩
  · exact absurd hsame hsource

/-- **Loading what a system saved** comes down to one move to its own lines. -/
theorem loadFrom_saveTo (d : Document) (hbound : ∀ role, (source.hardware.slot role).isBound)
    (hfree : target.linesHeld = false) : ∃ s₁, target.OnlySays s₁ ∧
      match s₁.hardware.rebind source.ownLines s₁.rig with
      | (.error e, hardware, rig) =>
        target.loadFrom (source.saveTo d).1 = (.error (.line e), { s₁ with hardware, rig })
      | (.ok (), hardware, rig) => ∃ s₂, OnlySays ({ s₁ with hardware, rig }.settled
          (source.ownWish .valve) (source.ownWish .pump) source.timing) s₂ ∧
        target.loadFrom (source.saveTo d).1 = (.ok (), s₂) := by
  obtain ⟨s₀, hsaid₀, hload⟩ := loadFrom_eq (section?_saveTo d source)
    (Section.ofValue_sorted source.storedSettings) rfl target
  have hfree₀ : s₀.linesHeld = false := by
    obtain ⟨_, rfl⟩ := hsaid₀
    exact hfree
  obtain ⟨s₁, hsaid₁, happly⟩ := applyFlow_eq (wish?_storedSettings (hbound .valve))
    (wish?_storedSettings (hbound .pump)) hfree₀
  rw [hload]
  exact ⟨s₁, hsaid₀.trans hsaid₁, happly⟩

/-- A load is refused, and changes nothing, if a stored line cannot be had. -/
theorem load_obstructed (d : Document) (hbound : ∀ role, (source.hardware.slot role).isBound)
    (hfree : target.linesHeld = false) (h : source.Obstructs target role) :
    (target.loadFrom (source.saveTo d).1).1 =
        .error (.line (.shared (source.hardware.slot role).offset)) ∧
      target.OnlySays (target.loadFrom (source.saveTo d).1).2 := by
  obtain ⟨s₁, hsaid, hload⟩ := loadFrom_saveTo d hbound hfree
  have hsame : s₁.hardware = target.hardware := by
    obtain ⟨_, rfl⟩ := hsaid
    rfl
  have hvalve : (s₁.hardware.targets source.ownLines).valve = (source.hardware.slot role).offset :=
    hsame ▸ h.targets .valve
  have hpump : (s₁.hardware.targets source.ownLines).pump = (source.hardware.slot role).offset :=
    hsame ▸ h.targets .pump
  rw [Controller.rebind_shared (hvalve.trans hpump.symm), hvalve] at hload
  rw [hload]
  exact ⟨rfl, hsaid⟩

/-- Otherwise a system that is alone reproduces what was saved. -/
theorem load_unobstructed (d : Document) (hbound : ∀ role, (source.hardware.slot role).isBound)
    (hsource : (source.hardware.slot .valve).offset ≠ (source.hardware.slot .pump).offset)
    (ha : target.Alone) (hlines : ∀ role, source.enabled.get role = true →
      target.rig.chip.hasLine (source.hardware.slot role).offset)
    (hclear : ∀ role, ¬ source.Obstructs target role) :
    (target.loadFrom (source.saveTo d).1).1 = .ok () ∧
      source.Reproduces (target.loadFrom (source.saveTo d).1).2 := by
  obtain ⟨s₁, hsaid, hload⟩ := loadFrom_saveTo d hbound ha.free
  have ha₁ := hsaid.alone ha
  have hsame : s₁.hardware = target.hardware := by
    obtain ⟨_, rfl⟩ := hsaid
    rfl
  have hne : (s₁.hardware.targets source.ownLines).valve ≠
      (s₁.hardware.targets source.ownLines).pump := by
    rw [hsame]
    intro heq
    have hapart := ha.hosts.line_ne (ha.bound .valve) (ha.bound .pump) (by simp)
    obtain ⟨role, h⟩ := obstructs_of_targets hsource hapart heq
    exact hclear role h
  have hok := ha₁.rebind_ok hne fun role n hn => by
    rw [get_ownLines] at hn
    split at hn
    · next hon =>
      obtain rfl := Option.some.inj hn
      rw [hsaid.chip]
      exact hlines role hon
    · cases hn
  have hheld := Controller.holds_targets ha₁.hosts hok
  rcases hresult : s₁.hardware.rebind source.ownLines s₁.rig with ⟨_ | _, hardware, rig⟩ <;>
    rw [hresult] at hload hok hheld
  · cases hok
  · obtain ⟨s₂, ⟨_, rfl⟩, hdone⟩ := hload
    rw [hdone]
    refine ⟨rfl, rfl, rfl, fun role hon => ?_⟩
    have hrole := hheld role
    rw [hsame, get_targets_ownLines, hon, if_pos rfl] at hrole
    exact hrole

end Watering

namespace World

open Watering

variable {w : World} {rig : Rig} {pins : Each Pin} {timing : Timing} {enabled : Each Bool}
  {target : Watering}

/-- The two offsets of a system in use differ. -/
theorem Reachable.apart (h : w.Reachable) (hbound : ∀ role, (w.system.hardware.slot role).isBound) :
    (w.system.hardware.slot .valve).offset ≠ (w.system.hardware.slot .pump).offset := by
  obtain ⟨others, hhosts⟩ := h.orderly.hosts (c := w.system.hardware) (.head _)
  exact hhosts.line_ne (hbound .valve) (hbound .pump) (by simp)

/-- **What one system saved, a freshly wired one loads**, unless a device that is stored with its
line cannot have it, for the other device has it and is stored without one. -/
theorem load_saved (h : w.Reachable) (hbound : ∀ role, (w.system.hardware.slot role).isBound)
    (d : Document) (hwired : Watering.wire rig pins timing enabled = .ok target)
    (hfree : ∀ n, rig.chip.isClaimed n = false) (hobeys : rig.faults.refusesRelease = false)
    (hlines : ∀ role, w.system.enabled.get role = true →
      rig.chip.hasLine (w.system.hardware.slot role).offset) :
    (∀ role, w.system.Obstructs target role →
      (target.loadFrom (w.system.saveTo d).1).1 =
          .error (.line (.shared (w.system.hardware.slot role).offset)) ∧
        target.OnlySays (target.loadFrom (w.system.saveTo d).1).2) ∧
    ((∀ role, ¬ w.system.Obstructs target role) →
      (target.loadFrom (w.system.saveTo d).1).1 = .ok () ∧
        w.system.Reproduces (target.loadFrom (w.system.saveTo d).1).2) := by
  have ha := alone_wire hwired hfree hobeys
  refine ⟨fun role => load_obstructed d hbound ha.free,
    load_unobstructed d hbound (h.apart hbound) ha fun role hon => ?_⟩
  rw [hasLine_wire hwired]
  exact hlines role hon

/-! ### A system whose pump is disabled -/

/-- The valve is on line 5 and enabled, the pump on line 6 and disabled. -/
def pumpOff : World :=
  (after ⟨⟨5, .activeLow⟩, ⟨6, .activeLow⟩⟩ [.call (.enable .pump false)]).get rfl

theorem reachable_pumpOff : pumpOff.Reachable := reachable_of_after (Option.some_get _).symm

theorem isBound_pumpOff (role : Role) : (pumpOff.system.hardware.slot role).isBound := by
  cases role <;> rfl

theorem isClaimed_openChip (path : String) (lines : Nat) (n : Offset) :
    (Rig.openChip path lines).chip.isClaimed n = false := rfl

/-- What was saved is loaded where the pump is on line 27, and refused where it is on line 5. -/
theorem loaded_unless_pump_on_five : ∃ roomy cramped,
    Watering.wire (Rig.openChip "gpiochip0" 54) ⟨⟨17, .activeLow⟩, ⟨27, .activeLow⟩⟩ ⟨1, 1, 1⟩
      (.both true) = .ok roomy ∧
    Watering.wire (Rig.openChip "gpiochip0" 54) ⟨⟨17, .activeLow⟩, ⟨5, .activeLow⟩⟩ ⟨1, 1, 1⟩
      (.both true) = .ok cramped ∧
    (roomy.loadFrom (pumpOff.system.saveTo (.new "plot")).1).1 = .ok () ∧
    pumpOff.system.Reproduces (roomy.loadFrom (pumpOff.system.saveTo (.new "plot")).1).2 ∧
    (cramped.loadFrom (pumpOff.system.saveTo (.new "plot")).1).1 = .error (.line (.shared 5)) := by
  have hlines : ∀ role, pumpOff.system.enabled.get role = true →
      (Rig.openChip "gpiochip0" 54).chip.hasLine (pumpOff.system.hardware.slot role).offset := by
    intro role _
    cases role <;> rfl
  have hroomy := (load_saved reachable_pumpOff isBound_pumpOff (.new "plot")
    (show Watering.wire (Rig.openChip "gpiochip0" 54) ⟨⟨17, .activeLow⟩, ⟨27, .activeLow⟩⟩ ⟨1, 1, 1⟩
      (.both true) = .ok _ from rfl) (isClaimed_openChip "gpiochip0" 54) rfl hlines).2 ?_
  have hcramped := (load_saved reachable_pumpOff isBound_pumpOff (.new "plot")
    (show Watering.wire (Rig.openChip "gpiochip0" 54) ⟨⟨17, .activeLow⟩, ⟨5, .activeLow⟩⟩ ⟨1, 1, 1⟩
      (.both true) = .ok _ from rfl) (isClaimed_openChip "gpiochip0" 54) rfl hlines).1 .valve
    ⟨rfl, rfl, rfl⟩
  · exact ⟨_, _, rfl, rfl, hroomy.1, hroomy.2, hcramped.1⟩
  · rintro (_ | _) ⟨hon, hoff, hsame⟩
    · exact absurd hsame (by decide)
    · cases hon

/-- The exception is needed: what `pumpOff` saved is refused where the pump is on line 5, though
every other line of that chip is free. -/
theorem not_every_save_loads : ¬ ∀ (w : World) (d : Document) (rig : Rig) (pins : Each Pin)
    (timing : Timing) (enabled : Each Bool) (target : Watering), w.Reachable →
    (∀ role, (w.system.hardware.slot role).isBound) →
    (∀ role, (w.system.hardware.slot role).polarity = (pins.get role).polarity) →
    Watering.wire rig pins timing enabled = .ok target →
    (∀ n, rig.chip.isClaimed n = false) → rig.faults = {} →
    (∀ role, rig.chip.hasLine (w.system.hardware.slot role).offset) →
    (target.loadFrom (w.system.saveTo d).1).1 = .ok () ∧
      w.system.Reproduces (target.loadFrom (w.system.saveTo d).1).2 := by
  intro hall
  have hloads := (hall pumpOff (.new "plot") (Rig.openChip "gpiochip0" 54)
    ⟨⟨17, .activeLow⟩, ⟨5, .activeLow⟩⟩ ⟨1, 1, 1⟩ (.both true) _ reachable_pumpOff isBound_pumpOff
    (fun role => by cases role <;> rfl) rfl (isClaimed_openChip "gpiochip0" 54) rfl
    (fun role => by cases role <;> rfl)).1
  have hrefused := (load_obstructed (.new "plot") isBound_pumpOff rfl
    (show pumpOff.system.Obstructs _ .valve from ⟨rfl, rfl, rfl⟩)).1.symm.trans hloads
  cases hrefused

end World

end Irrigation
