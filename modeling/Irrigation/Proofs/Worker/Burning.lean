import Irrigation.Proofs.Hardware.Housing
import Irrigation.Proofs.Worker.Marks

/-!
# Which devices may be on

A device is *lit* if the last call for it switched its line on (`lit`). `Point.mayBurn` says which
devices can be lit while the worker is at a point: those of the iteration between the call that
switches them on and the attempt to switch them off, and none elsewhere (`lit_nextPoint`). What
the worker does to the controller of its iteration keeps to these: an output that is on belongs to
a lit device (`burning_touch`).
-/

namespace Irrigation

/-- Whether a device is lit after a mark. -/
def Mark.burns (r : Role) (was : Bool) : Mark → Bool
  | .call r' on line => if r' = r then on && line.isSome else was
  | _ => was

/-- Whether the last call for a device switched its line on. -/
def lit (trace : List Mark) (r : Role) : Bool := trace.foldl (Mark.burns r) false

theorem lit_append (trace new : List Mark) (r : Role) :
    lit (trace ++ new) r = new.foldl (Mark.burns r) (lit trace r) := by
  rw [lit, lit, List.foldl_append]

/-- Whether a device can be lit while the worker is at a point. -/
def Point.mayBurn (r : Role) : Point → Bool
  | .startingPump on _ => r = .valve && on.valve
  | .irrigating on _ => on.get r
  | .enteringIdle on _ => on.get r
  | .recheckingValve on => on.get r
  | .recheckingPump on _ => on.get r
  | .switchingOff on now role => on.get r && (now.get r || r = .pump || role = .valve)
  | .reportingOff on now role => on.get r && (now.get r || r = .pump && role = .valve)
  | .deciding on now => on.get r && now.get r
  | .readingDeactivation on => on.get r
  | .closingValve on _ => on.get r
  | .choosingGap on _ => r = .pump && on.pump
  | .readingSeparation _ => r = .pump
  | .openingGap .. => r = .pump
  | .sleepingGap .. => r = .pump
  | .waitingGap .. => r = .pump
  | .stoppingPump on _ => r = .pump && on
  | _ => false

namespace Watering

variable {s : Watering} {p : Point}

theorem mayBurn_afterRecheck {r role : Role} {on now : Each Bool}
    (h : (on.get r && (now.get r || r = .pump && role = .valve)) = true) :
    (afterRecheck on now role).mayBurn r = true := by
  cases role <;> cases r <;> simpa [afterRecheck, Point.mayBurn] using h

/-- A device that may burn still may after a step that does not switch it off. -/
theorem mayBurn_nextPoint {r : Role} (h : p.mayBurn r = true) (hcall : p.calls ≠ some (r, false)) :
    (s.nextPoint p).mayBurn r = true := by
  cases p with
  | startingPump on ms =>
    obtain ⟨hr, hon⟩ := Bool.and_eq_true_iff.mp h
    obtain rfl := of_decide_eq_true hr
    exact hon
  | enteringIdle on stopped =>
    rw [nextPoint]
    split <;> exact h
  | recheckingPump on valve =>
    have hon : on.get r = true := h
    simp [nextPoint, Point.mayBurn, hon]
  | switchingOff on now role =>
    rw [nextPoint]
    rw [Point.calls] at hcall
    split
    · next hoff =>
      -- The device switched off is another one.
      rw [if_pos hoff] at hcall
      have hne : role ≠ r := fun he => hcall (by rw [he])
      cases role <;> cases r <;> simp_all [Point.mayBurn]
    · next hoff =>
      apply mayBurn_afterRecheck
      cases role <;> cases r <;> simp_all [Point.mayBurn]
  | reportingOff on now role => exact mayBurn_afterRecheck h
  | deciding on now =>
    rw [nextPoint]
    have hboth : (on.get r && now.get r) = true := h
    split
    · rw [← Each.get_meet] at hboth
      exact hboth
    · next hnone =>
      cases r <;> simp_all [Each.any, Each.get]
  | closingValve on rest =>
    have hon : on.get r = true := h
    rw [Point.calls] at hcall
    cases r with
    | valve =>
      rw [if_pos (show on.valve = true from hon)] at hcall
      exact absurd rfl hcall
    | pump => simpa [nextPoint, Point.mayBurn, Each.get] using hon
  | choosingGap on rest =>
    obtain ⟨hr, hon⟩ := Bool.and_eq_true_iff.mp h
    rw [nextPoint]
    split
    · exact hr
    · exact h
  | openingGap ms rest =>
    rw [nextPoint]
    split <;> exact h
  | sleepingGap ms rest => exact Bool.and_eq_true_iff.mpr ⟨h, rfl⟩
  | waitingGap ms rest => exact Bool.and_eq_true_iff.mpr ⟨h, rfl⟩
  | stoppingPump on rest =>
    obtain ⟨hr, hon⟩ := Bool.and_eq_true_iff.mp h
    rw [Point.calls, if_pos hon, of_decide_eq_true hr] at hcall
    exact absurd rfl hcall
  | _ => first | exact h | cases h

/-- A device that is switched on may burn. -/
theorem mayBurn_of_call {r : Role} (hcall : p.calls = some (r, true)) :
    (s.nextPoint p).mayBurn r = true := by
  cases p with
  | openingValve on ms =>
    rw [Point.calls] at hcall
    split at hcall
    · next hon =>
      obtain ⟨rfl, -⟩ := Prod.mk.inj (Option.some.inj hcall)
      exact hon
    · cases hcall
  | startingPump on ms =>
    rw [Point.calls] at hcall
    split at hcall
    · next hon =>
      obtain ⟨rfl, -⟩ := Prod.mk.inj (Option.some.inj hcall)
      exact hon
    · cases hcall
  | switchingOff on now role =>
    rw [Point.calls] at hcall
    split at hcall <;> cases hcall
  | closingValve on rest =>
    rw [Point.calls] at hcall
    split at hcall <;> cases hcall
  | stoppingPump on rest =>
    rw [Point.calls] at hcall
    split at hcall <;> cases hcall
  | _ => cases hcall

/-! ## The marks and the touch of a step, by the device that it switches -/

theorem foldl_burns_entering (r : Role) (was : Bool) (next : CycleState) :
    (s.entering next).foldl (Mark.burns r) was = was := by
  unfold entering
  split <;> rfl

/-- Only the call of a step changes what is lit. -/
theorem foldl_burns_marksAt (r : Role) (was : Bool) :
    (s.marksAt p).foldl (Mark.burns r) was = match p.calls with
      | some (role, on) => Mark.burns r was (.call role on (s.line? role))
      | none => was := by
  cases p with
  | loopHead => rw [marksAt]; split <;> rfl
  | enteringIrrigation on ms => exact foldl_burns_entering ..
  | enteringIdle on stopped => exact foldl_burns_entering ..
  | enteringTearDown => exact foldl_burns_entering ..
  | enteringDisabled => exact foldl_burns_entering ..
  | openingValve on ms => cases hon : on.valve <;> simp only [marksAt, Point.calls, hon] <;> rfl
  | startingPump on ms => cases hon : on.pump <;> simp only [marksAt, Point.calls, hon] <;> rfl
  | switchingOff on now role =>
    cases hoff : on.get role && !now.get role <;> simp only [marksAt, Point.calls, hoff] <;> rfl
  | closingValve on rest => cases hon : on.valve <;> simp only [marksAt, Point.calls, hon] <;> rfl
  | stoppingPump on rest => cases on <;> rfl
  | lettingGo again => rw [marksAt]; split <;> rfl
  | _ => rfl

/-- A step that switches a device touches the controller by that alone. -/
theorem touch_of_call {role : Role} {on : Bool} (hcall : p.calls = some (role, on)) :
    s.touch p = s.served role on := by
  unfold touch
  rw [hcall]

/-- A step that switches no device leaves the controller alone, or lets go of one of its lines. -/
theorem touch_of_no_call (hcall : p.calls = none) :
    s.touch p = (s.iterationHardware, s.rig) ∨
      ∃ role, s.touch p = s.iterationHardware.unbind role s.rig := by
  unfold touch
  rw [hcall]
  cases p with
  | lettingGo again =>
    cases s.replaced.isSome with
    | true => exact .inr ⟨.valve, rfl⟩
    | false => exact .inl rfl
  | lettingGoPump again => exact .inr ⟨.pump, rfl⟩
  | _ => exact .inl rfl

/-! ## What the touch does -/

theorem served_of_some {role : Role} {o : Output}
    (ho : (s.iterationHardware.slot role).output = some o) (on : Bool) :
    s.served role on =
      (s.iterationHardware.bind role (o.switch on s.rig).1, (o.switch on s.rig).2) := by
  rw [served, Controller.switch_of_some ho]

/-- A role without a line stays so, and a message is left. -/
theorem served_of_none {role : Role} (ho : (s.iterationHardware.slot role).output = none)
    (on : Bool) : (s.served role on).1 = s.iterationHardware ∧
      (s.served role on).2.chip = s.rig.chip ∧ (s.served role on).2.faults = s.rig.faults := by
  rw [served, Controller.switch_of_none ho]
  exact ⟨rfl, rfl, rfl⟩

/-- The lines stay with their holders whatever the worker does. -/
theorem hosts_touch {others : List Output} (h : s.rig.Hosts s.iterationHardware others)
    (p : Point) : (s.touch p).2.Hosts (s.touch p).1 others := by
  cases hcall : p.calls with
  | some call =>
    obtain ⟨role, on⟩ := call
    rw [touch_of_call hcall]
    cases ho : (s.iterationHardware.slot role).output with
    | some o =>
      rw [served_of_some ho, Controller.fst_switch_of_fitted h.fitted ho]
      exact Controller.hosts_switch h ho on
    | none =>
      obtain ⟨hc, hchip, hfaults⟩ := served_of_none ho on
      rw [hc]
      exact h.of_eq hchip hfaults
  | none =>
    rcases touch_of_no_call (s := s) hcall with htouch | ⟨role, htouch⟩
    · rw [htouch]
      exact h
    · rw [htouch, Controller.fst_unbind]
      exact Controller.hosts_unbind h role

theorem faults_touch (s : Watering) (p : Point) : (s.touch p).2.faults = s.rig.faults := by
  cases hcall : p.calls with
  | some call =>
    rw [touch_of_call hcall]
    exact (routine_served s ..).faults
  | none =>
    rcases touch_of_no_call (s := s) hcall with htouch | ⟨role, htouch⟩
    · rw [htouch]
    · rw [htouch]
      exact (Rig.routine_unbind ..).faults

/-- An output that is on after a step belongs to a device that is lit then. -/
theorem burning_touch (hfit : s.iterationHardware.Fitted) {was : Role → Bool}
    (hwas : ∀ r o, (s.iterationHardware.slot r).output = some o → o.active = true → was r = true)
    (p : Point) : ∀ r o, ((s.touch p).1.slot r).output = some o → o.active = true →
      (s.marksAt p).foldl (Mark.burns r) (was r) = true := by
  intro r o hslot hactive
  rw [foldl_burns_marksAt]
  cases hcall : p.calls with
  | some call =>
    obtain ⟨role, on⟩ := call
    rw [touch_of_call hcall] at hslot
    simp only [Mark.burns, line?]
    cases ho : (s.iterationHardware.slot role).output with
    | some held =>
      rw [served_of_some ho, Controller.fst_switch_of_fitted hfit ho, Controller.bind,
        Controller.slot_modify] at hslot
      split at hslot
      · next he =>
        obtain rfl := Option.some.inj hslot
        rw [if_pos he.symm]
        exact Bool.and_eq_true_iff.mpr ⟨hactive, rfl⟩
      · next hne =>
        rw [if_neg fun he => hne he.symm]
        exact hwas r o hslot hactive
    | none =>
      rw [(served_of_none ho on).1] at hslot
      have hne : role ≠ r := by
        rintro rfl
        rw [ho] at hslot
        cases hslot
      rw [if_neg hne]
      exact hwas r o hslot hactive
  | none =>
    rcases touch_of_no_call (s := s) hcall with htouch | ⟨role, htouch⟩
    · rw [htouch] at hslot
      exact hwas r o hslot hactive
    · rw [htouch, Controller.fst_unbind] at hslot
      exact hwas r o ((Controller.Calms.drop _ role).active r o hslot hactive) hactive

/-- **A device that is lit after a step may be on at the next point.** -/
theorem lit_nextPoint {r : Role} {was : Bool} (h : was = true → p.mayBurn r = true)
    (hlit : (s.marksAt p).foldl (Mark.burns r) was = true) : (s.nextPoint p).mayBurn r = true := by
  rw [foldl_burns_marksAt] at hlit
  cases hcall : p.calls with
  | none =>
    rw [hcall] at hlit
    exact mayBurn_nextPoint (h hlit) (by rw [hcall]; rintro ⟨⟩)
  | some call =>
    obtain ⟨role, on⟩ := call
    rw [hcall] at hlit
    simp only [Mark.burns] at hlit
    split at hlit
    · next he =>
      obtain rfl := he
      obtain ⟨rfl, -⟩ := Bool.and_eq_true_iff.mp hlit
      exact mayBurn_of_call hcall
    · next hne =>
      refine mayBurn_nextPoint (h hlit) ?_
      rw [hcall]
      intro he
      exact hne (Prod.mk.inj (Option.some.inj he)).1

end Watering

end Irrigation
