import Irrigation.Proofs.Hardware.Moves
import Irrigation.Proofs.Hardware.Transfer

/-!
# Lines are given back inactive

`Audit` is a rig that takes down the level of each line at the moment it is given back. What a
controller does on an audited rig is what it does on the rig (`carries_rig`), and the levels taken
down are the inactive ones of the role for which the line was held (`released_unbind`,
`released_rebind`, `released_release`, `released_wire`).
-/

namespace Irrigation

/-- A rig, and the level that each line given back had at that moment. -/
structure Audit where
  rig : Rig
  released : List (Offset × Option Bool) := []

namespace Audit

instance : Journaling Audit := ⟨fun a e => { a with rig := record a.rig e }⟩

instance : Lines Audit where
  write a offset up := ((Lines.write a.rig offset up).1,
    { a with rig := (Lines.write a.rig offset up).2 })

instance : Board Audit where
  request a who offset d p := ((Board.request a.rig who offset d p).1,
    { a with rig := (Board.request a.rig who offset d p).2 })
  release a offsets := ((Board.release a.rig offsets).1,
    { rig := (Board.release a.rig offsets).2
      released := a.released ++ offsets.map fun n => (n, a.rig.chip.level? n) })

/-- The audit changes nothing. -/
theorem carries_rig : Carries Audit.rig where
  record := fun _ _ => rfl
  write := fun _ _ _ => rfl
  request := fun _ _ _ _ _ => rfl
  release := fun _ _ => rfl

end Audit

namespace Controller

variable {c : Controller} {role : Role} {others : List Output}

/-- What is taken down for a role's line if it is inactive. -/
def inactiveAt (c : Controller) (line : Role → Offset) (role : Role) : Offset × Option Bool :=
  (line role, some ((c.slot role).polarity.level false))

/-- The line of a role. -/
def line (c : Controller) (role : Role) : Offset := (c.slot role).offset

/-! ## What gives nothing back -/

theorem released_requestPin (pin : Pin) (a : Audit) :
    (requestPin pin a).2.released = a.released := rfl

theorem switch_audit (o : Output) (on : Bool) (a : Audit) :
    o.switch on a = ((o.switch on a.rig).1, ⟨(o.switch on a.rig).2, a.released⟩) := by
  unfold Output.switch Output.drive
  cases o.direction <;> rfl

theorem released_settle (target : Role → Offset) (acquired : List (Role × Output)) :
    ∀ (c : Controller) (a : Audit), (c.settle acquired target a).2.released = a.released := by
  induction acquired with
  | nil => exact fun _ _ => rfl
  | cons _ rest ih => exact fun c a => ih ..

theorem released_acquire (pin : Role → Pin) (roles : List Role) :
    ∀ a : Audit, (acquire pin roles a).2.2.released = a.released := by
  induction roles with
  | nil => exact fun _ => rfl
  | cons role rest ih =>
    intro a
    have h := released_requestPin (pin role) a
    unfold acquire
    rcases hq : requestPin (pin role) a with ⟨_ | o, a₁⟩ <;> rw [hq] at h
    · exact h
    · exact (ih a₁).trans h

theorem released_restore (roles : List Role) :
    ∀ (c : Controller) (a : Audit), (c.restore roles a).2.released = a.released := by
  induction roles with
  | nil => exact fun _ _ => rfl
  | cons role rest ih =>
    intro c a
    have h := released_requestPin ⟨(c.slot role).offset, (c.slot role).polarity⟩ a
    unfold restore
    simp only
    rcases hq : requestPin ⟨(c.slot role).offset, (c.slot role).polarity⟩ a with ⟨_ | o, a₁⟩ <;>
      rw [hq] at h
    · exact (ih ..).trans h
    · exact (ih ..).trans h

/-! ## What gives lines back -/

/-- A role that lets go gives its line back inactive. -/
theorem released_unbind {a : Audit} (h : a.rig.Hosts c others) (role : Role) :
    (c.unbind role a).2.released =
      a.released ++ if (c.slot role).isBound then [c.inactiveAt c.line role] else [] := by
  unfold unbind Slot.isBound
  cases ho : (c.slot role).output with
  | none => simp
  | some o =>
    have hswitched := hosts_switch h ho false
    obtain ⟨hoffset, hdir, hpol⟩ := h.fitted role o ho
    have hlevel := hswitched.serves.level { o with active := false }
      (List.mem_append_left _ (mem_outputs.mpr ⟨role, by rw [bind, slot_modify, if_pos rfl]⟩)) hdir
    rw [hoffset, hpol] at hlevel
    simp only [switch_audit]
    have hgiven : (Board.release (⟨(o.switch false a.rig).2, a.released⟩ : Audit)
        [(c.slot role).offset]).2.released = a.released ++ [c.inactiveAt c.line role] :=
      congrArg (fun level => a.released ++ [((c.slot role).offset, level)]) hlevel
    rcases hr : Board.release (⟨(o.switch false a.rig).2, a.released⟩ : Audit)
      [(c.slot role).offset] with ⟨_ | _, a'⟩ <;> rw [hr] at hgiven
    · exact hgiven
    · exact hgiven

/-- Several roles let go one after the other, each of its own line. -/
theorem released_unbindAll (roles : List Role) :
    ∀ {c : Controller} {a : Audit}, a.rig.Hosts c others →
      ∃ gone : List Role, (∀ role ∈ gone, role ∈ roles) ∧
        (c.unbindAll roles a).2.released = a.released ++ gone.map (c.inactiveAt c.line) := by
  induction roles with
  | nil => exact fun _ => ⟨[], by simp, (List.append_nil _).symm⟩
  | cons role rest ih =>
    intro c a h
    have hcarry := Audit.carries_rig.unbind c role a
    have h₁ : (c.unbind role a).2.rig.Hosts (c.drop role) others := by
      have := hosts_unbind h role
      rw [hcarry] at this
      exact this
    have hfst : (c.unbind role a).1 = c.drop role := fst_unbind c role a
    obtain ⟨gone, hmem, hgone⟩ := ih h₁
    have hsame : (c.drop role).inactiveAt (c.drop role).line = c.inactiveAt c.line := by
      funext role'
      rw [inactiveAt, inactiveAt, line, line, slot_drop]
      split
      · next he => rw [he]
      · rfl
    simp only [unbindAll, hfst]
    rw [hgone, released_unbind h role, hsame]
    by_cases hb : (c.slot role).isBound
    · refine ⟨role :: gone, ?_, by simp [hb]⟩
      intro role' hm
      rcases List.mem_cons.mp hm with rfl | hm
      · exact .head _
      · exact .tail _ (hmem role' hm)
    · exact ⟨gone, fun role' hm => .tail _ (hmem role' hm), by simp [hb]⟩

/-- What a failed move hands back is inactive. -/
theorem released_handBack (pin : Role → Pin) (target : Role → Offset) (given : List Role) :
    ∀ {a : Audit} {held : List Output}, (∀ role ∈ given, (pin role).offset = target role) →
      a.rig.Serves (given.map (fun role => (pin role).fresh) ++ held) →
      (handBack (given.map fun role => (role, (pin role).fresh)) target a).released =
        a.released ++
          given.map fun role => (target role, some ((pin role).polarity.level false)) := by
  induction given with
  | nil => exact fun _ _ => (List.append_nil _).symm
  | cons role rest ih =>
    intro a held hpin hs
    have hlevel := hs.level (pin role).fresh (.head _) rfl
    have hs' := hs.release
    have hp := hpin role (.head _)
    change a.rig.chip.level? (pin role).offset = _ at hlevel
    change (a.rig.release [(pin role).offset]).2.Serves _ at hs'
    rw [hp] at hlevel hs'
    have h := ih (a := (Board.release a [target role]).2)
      (fun role' hmem => hpin role' (.tail _ hmem)) hs'
    have hgiven : (Board.release a [target role]).2.released =
        a.released ++ [(target role, some ((pin role).polarity.level false))] :=
      congrArg (fun level => a.released ++ [(target role, level)]) hlevel
    rw [List.map_cons, handBack, h, hgiven, List.append_assoc]
    rfl

/-! ## Whole operations -/

/-- A controller that is given up gives back its own lines, inactive. -/
theorem released_release {a : Audit} (h : a.rig.Hosts c others) :
    ∃ gone : List Role,
      (c.release a).2.released = a.released ++ gone.map (c.inactiveAt c.line) := by
  obtain ⟨gone, -, hgone⟩ := released_unbindAll Role.all h
  exact ⟨gone, hgone⟩

/-- **A move gives back inactive lines only**: first the lines of the roles that move, each at the
inactive level of its role, then, if it fails, what had been acquired at the roles' targets. -/
theorem released_rebind {a : Audit} (h : a.rig.Hosts c others) (wanted : Each (Option Offset)) :
    ∃ gone given : List Role, (c.rebind wanted a).2.2.released =
      a.released ++ gone.map (c.inactiveAt c.line) ++
        given.map (c.inactiveAt (c.targets wanted).get) := by
  unfold Controller.rebind
  simp only
  split
  · exact ⟨[], [], by simp⟩
  · split
    · exact ⟨[], [], by simp [log, record]⟩
    · generalize hroles : c.moving (c.targets wanted) = roles
      obtain ⟨gone, -, hgone⟩ := released_unbindAll roles h
      have hdropped := hosts_unbindAll roles h
      have hcarry := Audit.carries_rig.unbindAll roles c a
      have hfst : (c.unbindAll roles a).1 = c.dropAll roles := fst_unbindAll roles c a
      rw [hcarry] at hdropped
      change (c.unbindAll roles a).2.rig.Hosts _ _ at hdropped
      rw [hfst]
      generalize (c.unbindAll roles a).2 = a₁ at hgone hdropped
      have hpolarity := (Calms.dropAll roles c).polarity
      generalize c.dropAll roles = c₁ at hdropped hpolarity
      generalize hpin : (fun role => (⟨(c.targets wanted).get role, (c₁.slot role).polarity⟩ : Pin))
        = pin
      obtain ⟨given, -, hacq, -, hs⟩ := acquire_spec pin roles hdropped.serves
      have hkept := released_acquire pin roles a₁
      have hcarry₁ := Audit.carries_rig.acquire pin roles a₁
      rw [hcarry₁] at hacq hs
      rcases hres : acquire pin roles a₁ with ⟨acquired, _ | ⟨role, e⟩, a₂⟩ <;>
        rw [hres] at hacq hs hkept
      · refine ⟨gone, [], ?_⟩
        simp only [released_settle, List.map_nil, List.append_nil]
        exact hkept.trans hgone
      · obtain rfl : acquired = _ := hacq
        refine ⟨gone, given, ?_⟩
        simp only [released_restore]
        generalize hlog : log .warn _ a₂ = a₃
        have hrig : a₃.rig.chip = a₂.rig.chip := by rw [← hlog]; rfl
        have hfaults : a₃.rig.faults = a₂.rig.faults := by rw [← hlog]; rfl
        have hreleased : a₃.released = a₂.released := by rw [← hlog]; rfl
        have hgiven := released_handBack pin (c.targets wanted).get given
          (fun role _ => by rw [← hpin]) (hs.of_eq hrig hfaults)
        rw [hgiven, hreleased]
        have hkept : a₂.released = a₁.released := hkept
        rw [hkept, hgone]
        congr 1
        refine List.map_congr_left fun role _ => ?_
        rw [← hpin, inactiveAt]
        simp only [hpolarity]

/-- Wiring gives back a line only if the pump's cannot be had: the valve's, which is inactive. -/
theorem released_wire {a : Audit} {held : List Output} (h : a.rig.Serves held) (pins : Each Pin) :
    (wire pins a).2.released = a.released ∨
      (wire pins a).2.released = a.released ++
        [(pins.valve.offset, some (pins.valve.polarity.level false))] := by
  unfold wire
  split
  · exact .inl rfl
  · have hkept := released_requestPin pins.valve a
    have hcarry := Audit.carries_rig.requestPin pins.valve a
    rcases hv : requestPin pins.valve a with ⟨e | valve, a₁⟩ <;> rw [hv] at hkept hcarry
    · exact .inl hkept
    · obtain ⟨-, h₁⟩ := requestPin_ok h hcarry
      have hkept₁ := released_requestPin pins.pump a₁
      have hcarry₁ := Audit.carries_rig.requestPin pins.pump a₁
      simp only
      rcases hp : requestPin pins.pump a₁ with ⟨e | pump, a₂⟩ <;> rw [hp] at hkept₁ hcarry₁
      · have hsame : a₂.rig = a₁.rig := requestPin_error hcarry₁
        have hlevel := h₁.level pins.valve.fresh (.head _) rfl
        refine .inr ?_
        change a₂.released ++ [(pins.valve.offset, a₂.rig.chip.level? pins.valve.offset)] = _
        rw [hkept₁.trans hkept, hsame]
        exact congrArg (fun level => a.released ++ [(pins.valve.offset, level)]) hlevel
      · exact .inl (hkept₁.trans hkept)

end Controller

end Irrigation
