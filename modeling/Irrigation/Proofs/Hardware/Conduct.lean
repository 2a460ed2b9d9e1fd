import Irrigation.Proofs.Hardware.Restoring

/-!
# How a controller treats others

Whatever a controller does, it stays on its own lines. `Controller.Behaves` collects what is so
after an operation, successful or not: the controller's claims are in its name, its two offsets
differ, and everybody else's claims are what they were. A move (`behaves_rebind`) and a switch
(`behaves_switch`) behave; wiring makes a controller that starts so (`wire_ok`) and takes no
claim from anybody (`retains_wire`), and one that is given up leaves the claims of others
(`consumer_release`).
-/

namespace Irrigation

namespace Controller

variable {c : Controller} {role : Role} {r r' : Rig} {others : List Output}
  {wanted : Each (Option Offset)} {pins : Each Pin} {n : Offset}

/-- The two offsets of a controller differ. -/
def Apart (c : Controller) : Prop := c.line .valve ≠ c.line .pump

/-- What is so after an operation of a controller, others holding lines of the same rig. -/
structure Behaves (others : List Output) (c : Controller) (r : Rig) (c' : Controller) (r' : Rig) :
    Prop where
  hosts : r'.Hosts c' others
  labels : r'.Labels c'
  apart : c'.Apart
  polarity : ∀ role, (c'.slot role).polarity = (c.slot role).polarity
  isOpen : r'.chip.isOpen = r.chip.isOpen
  consumer : ∀ n ∈ others.map Output.offset, r.chip.isClaimed n →
    r'.chip.consumer? n = r.chip.consumer? n

theorem Behaves.refl (h : r.Hosts c others) (hl : r.Labels c) (hc : c.Apart) :
    Behaves others c r c r :=
  ⟨h, hl, hc, fun _ => rfl, rfl, fun _ _ _ => rfl⟩

/-! ## Moving -/

theorem sameBoard_rebind (h : r.Hosts c others) (wanted : Each (Option Offset)) :
    Chip.SameBoard r.chip (c.rebind wanted r).2.2.chip := by
  by_cases heq : (c.targets wanted).valve = (c.targets wanted).pump
  · rw [rebind_shared heq]
    exact .refl _
  · have hvac := (sameOff_vacated h (c.targets wanted)).sameBoard
    rcases rebind_cases heq r with ⟨-, -, -, hchip⟩ | ⟨-, -, r₂, -, -, hres, hchip, hfaults⟩
    · rw [hchip]
      exact hvac.trans (acquire_acquires _ _ _).sameOff.sameBoard
    · rw [hres]
      exact (hvac.trans (withdrawn_handBack h _ hchip hfaults).sameOff.sameBoard).trans
        (sameOff_restore ..).sameBoard

theorem isOpen_rebind (h : r.Hosts c others) (wanted : Each (Option Offset)) :
    (c.rebind wanted r).2.2.chip.isOpen = r.chip.isOpen := (sameBoard_rebind h wanted).isOpen

/-- Others keep their claims. -/
theorem consumer_rebind (h : r.Hosts c others) (wanted : Each (Option Offset))
    (hn : n ∈ others.map Output.offset) (hclaimed : r.chip.isClaimed n) :
    (c.rebind wanted r).2.2.chip.consumer? n = r.chip.consumer? n := by
  by_cases heq : (c.targets wanted).valve = (c.targets wanted).pump
  · rw [rebind_shared heq]
  · have hvac := (sameOff_vacated h (c.targets wanted)).consumer n fun hm =>
      h.notMem_others (linesOf_subset_lines _ _ hm) hn
    have hclaimed' : (c.vacated (c.targets wanted) r).chip.isClaimed n := by
      rw [Chip.isClaimed, hvac]
      exact hclaimed
    rcases rebind_cases heq r with ⟨-, -, -, hchip⟩ | ⟨-, -, r₂, -, -, hres, hchip, hfaults⟩
    · rw [hchip, ← hvac]
      exact (acquire_acquires _ _ _).retains.consumer n hclaimed'
    · rw [hres, ← hvac]
      exact ((withdrawn_handBack h _ hchip hfaults).retains.trans
        (retains_restore ..)).consumer n hclaimed'

/-- The controller's claims stay in its name. -/
theorem labels_rebind (h : r.Hosts c others) (hl : r.Labels c) (wanted : Each (Option Offset)) :
    (c.rebind wanted r).2.2.Labels (c.rebind wanted r).2.1 := by
  by_cases heq : (c.targets wanted).valve = (c.targets wanted).pump
  · rw [rebind_shared heq]
    exact hl
  · rcases rebind_cases heq r with ⟨-, hok, -⟩ | ⟨-, -, r₂, -, -, hres, hchip, hfaults⟩
    · intro hopen' role hb
      have hopen : r.chip.isOpen := isOpen_rebind h wanted ▸ hopen'
      have hmoved := moved_rebind h hopen hok
      rw [line_rebind h hok]
      by_cases hm : c.Moves (c.targets wanted) role
      · exact (hmoved.taken role hm).2
      · obtain ⟨hline, hb⟩ := eq_line_of_not_moves hm
        rw [hline, (hmoved.kept role hm).2]
        exact hl hopen role hb
    · rw [hres]
      exact labels_restore _ ((withdrawn_handBack h _ hchip hfaults).labels h hl)

theorem apart_rebind (h : r.Hosts c others) (hc : c.Apart) (wanted : Each (Option Offset)) :
    (c.rebind wanted r).2.1.Apart := by
  by_cases heq : (c.targets wanted).valve = (c.targets wanted).pump
  · rw [rebind_shared heq]
    exact hc
  · rcases rebind_cases heq r with ⟨-, hok, -⟩ | ⟨-, -, r₂, -, -, hres, -⟩
    · rw [Apart, line_rebind h hok, line_rebind h hok]
      exact heq
    · rw [Apart, hres, line_restore, line_restore, line_dropAll, line_dropAll]
      exact hc

/-- On an open chip both roles stay bound, whether the move succeeds or fails. -/
theorem bound_rebind (h : r.Hosts c others) (hopen : r.chip.isOpen)
    (hb : ∀ role, (c.slot role).isBound) (wanted : Each (Option Offset)) (role : Role) :
    ((c.rebind wanted r).2.1.slot role).isBound := by
  by_cases heq : (c.targets wanted).valve = (c.targets wanted).pump
  · rw [rebind_shared heq]
    exact hb role
  · rcases rebind_cases heq r with ⟨-, hok, -⟩ | ⟨-, -, r₂, -, -, hres, hchip, hfaults⟩
    · obtain ⟨o, ho, -⟩ := holds_targets h hok role
      exact isBound_iff.mpr ⟨o, ho⟩
    · rw [hres, (withdrawn_handBack h _ hchip hfaults).slot h hopen hb]
      split
      · rfl
      · exact hb role

/-- Each role is on the line that it was to have, or still on the one that it had. -/
theorem line_rebind_or (h : r.Hosts c others) (wanted : Each (Option Offset)) (role : Role) :
    (c.rebind wanted r).2.1.line role = (c.targets wanted).get role ∨
      (c.rebind wanted r).2.1.line role = c.line role := by
  by_cases heq : (c.targets wanted).valve = (c.targets wanted).pump
  · rw [rebind_shared heq]
    exact .inr rfl
  · rcases rebind_cases heq r with ⟨-, hok, -⟩ | ⟨-, -, r₂, -, -, hres, -⟩
    · exact .inl (line_rebind h hok role)
    · rw [hres, line_restore, line_dropAll]
      exact .inr rfl

theorem behaves_rebind (h : r.Hosts c others) (hl : r.Labels c) (hc : c.Apart)
    (wanted : Each (Option Offset)) :
    Behaves others c r (c.rebind wanted r).2.1 (c.rebind wanted r).2.2 where
  hosts := (hosts_rebind h wanted).1
  labels := labels_rebind h hl wanted
  apart := apart_rebind h hc wanted
  polarity := (hosts_rebind h wanted).2.polarity
  isOpen := isOpen_rebind h wanted
  consumer _ := consumer_rebind h wanted

/-! ## Switching -/

/-- A switch changes no claim. -/
theorem behaves_switch (h : r.Hosts c others) (hl : r.Labels c) (hc : c.Apart) (role : Role)
    (on : Bool) : Behaves others c r (c.switch role on r).2.1 (c.switch role on r).2.2 := by
  cases ho : (c.slot role).output with
  | none =>
    rw [switch_of_none ho]
    exact .refl h hl hc
  | some o =>
    have hoff := Rig.sameOff_switch o on r
    have hsame : ∀ n, (o.switch on r).2.chip.consumer? n = r.chip.consumer? n :=
      Rig.consumer?_drive o on (record r (.driven o.offset on))
    rw [switch_of_some ho, fst_switch_of_fitted h.fitted ho]
    refine ⟨hosts_switch h ho on, fun hopen role' hb => ?_, ?_, fun role' => ?_, hoff.isOpen,
      fun n _ _ => hsame n⟩
    · rw [line_bind]
      refine (hsame _).trans (hl (hoff.isOpen ▸ hopen) role' ?_)
      rw [bind, slot_modify] at hb
      split at hb
      · next he =>
        rw [he]
        exact isBound_iff.mpr ⟨o, ho⟩
      · exact hb
    · rw [Apart, line_bind, line_bind]
      exact hc
    · rw [bind, slot_modify]
      split
      · next he => rw [he]
      · rfl

/-! ## Wiring and giving up -/

/-- The controller of two fresh outputs. -/
def wired (pins : Each Pin) : Controller :=
  ⟨⟨pins.valve.polarity, pins.valve.offset, some pins.valve.fresh⟩,
    ⟨pins.pump.polarity, pins.pump.offset, some pins.pump.fresh⟩⟩

theorem slot_wired (pins : Each Pin) (role : Role) : (wired pins).slot role =
    ⟨(pins.get role).polarity, (pins.get role).offset, some (pins.get role).fresh⟩ := by
  cases role <;> rfl

/-- What wiring can do: it is refused for pins that coincide, it cannot have the valve's line, it
cannot have the pump's and gives the valve's back, or it has both. -/
theorem wire_cases (pins : Each Pin) (r : Rig) :
    (pins.valve.offset = pins.pump.offset ∧
      wire pins r = (.error (.shared pins.valve.offset), r)) ∨
    (∃ e, r.chip.refusal? pins.valve.offset = some e ∧ wire pins r = (.error e, r)) ∨
    (∃ e, r.chip.refusal? pins.valve.offset = none ∧
      (requestPin pins.valve r).2.chip.refusal? pins.pump.offset = some e ∧
      wire pins r = (.error e, ((requestPin pins.valve r).2.release [pins.valve.offset]).2)) ∨
    (pins.valve.offset ≠ pins.pump.offset ∧ r.chip.refusal? pins.valve.offset = none ∧
      (requestPin pins.valve r).2.chip.refusal? pins.pump.offset = none ∧
      (wire pins r).1 = .ok (wired pins) ∧
      (wire pins r).2.chip = (requestPin pins.pump (requestPin pins.valve r).2).2.chip) := by
  unfold wire
  split
  · next heq => exact .inl ⟨heq, rfl⟩
  · next hne =>
    refine .inr ?_
    cases hv : r.chip.refusal? pins.valve.offset with
    | some e =>
      rw [requestPin_refused _ hv]
      exact .inl ⟨e, rfl, rfl⟩
    | none =>
      refine .inr ?_
      have hvalve := (requestPin_granted _ hv).1
      rcases hqv : requestPin pins.valve r with ⟨_ | valve, r₁⟩ <;> rw [hqv] at hvalve
      · cases hvalve
      · obtain rfl : valve = pins.valve.fresh := Except.ok.inj hvalve
        simp only
        cases hp : r₁.chip.refusal? pins.pump.offset with
        | some e =>
          rw [requestPin_refused _ hp]
          exact .inl ⟨e, trivial, rfl, rfl⟩
        | none =>
          have hpump := (requestPin_granted _ hp).1
          rcases hqp : requestPin pins.pump r₁ with ⟨_ | pump, r₂⟩ <;> rw [hqp] at hpump
          · cases hpump
          · obtain rfl : pump = pins.pump.fresh := Except.ok.inj hpump
            exact .inr ⟨hne, trivial, rfl, rfl, rfl⟩

/-- Two different lines that nothing stands against can be had, whichever is taken first. -/
theorem wire_granted (hne : pins.valve.offset ≠ pins.pump.offset)
    (hfree : ∀ role, r.chip.refusal? (pins.get role).offset = none) :
    (wire pins r).1 = .ok (wired pins) := by
  rcases wire_cases pins r with ⟨heq, -⟩ | ⟨e, hv, -⟩ | ⟨e, -, hp, -⟩ | ⟨-, -, -, hok, -⟩
  · exact absurd heq hne
  · rw [show r.chip.refusal? pins.valve.offset = none from hfree .valve] at hv
    cases hv
  · rw [(sameOff_requestPin pins.valve r).refusal? (by simpa using hne.symm),
      show r.chip.refusal? pins.pump.offset = none from hfree .pump] at hp
    cases hp
  · exact hok

/-- Wiring that fails hands back what it got, so claims stay as they are either way. -/
theorem retains_wire (pins : Each Pin) (r : Rig) : Chip.Retains r.chip (wire pins r).2.chip := by
  have hvalve := retains_requestPin pins.valve r
  rcases wire_cases pins r with ⟨-, hw⟩ | ⟨e, -, hw⟩ | ⟨e, hv, -, hw⟩ | ⟨-, -, -, -, hw⟩
  · rw [hw]
    exact .refl _
  · rw [hw]
    exact .refl _
  · rw [hw]
    refine ⟨fun n hn => ?_⟩
    have hback := (Rig.sameOff_release (requestPin pins.valve r).2 [pins.valve.offset]).consumer n
      fun hm => by
        obtain rfl := List.mem_singleton.mp hm
        exact Bool.eq_false_iff.mp ((Chip.refusal?_eq_none _ _).mp hv).2.2 hn
    exact hback.trans (hvalve.consumer n hn)
  · rw [hw]
    exact hvalve.trans (retains_requestPin pins.pump _)

/-- Wiring touches the two lines only. -/
theorem sameOff_wire (pins : Each Pin) (r : Rig) :
    Chip.SameOff [pins.valve.offset, pins.pump.offset] r.chip (wire pins r).2.chip := by
  have hvalve := sameOff_requestPin pins.valve r
  rcases wire_cases pins r with ⟨-, hw⟩ | ⟨e, -, hw⟩ | ⟨e, -, -, hw⟩ | ⟨-, -, -, -, hw⟩
  · rw [hw]
    exact .refl ..
  · rw [hw]
    exact .refl ..
  · rw [hw]
    exact (hvalve.trans (Rig.sameOff_release _ [pins.valve.offset])).mono (by simp)
  · rw [hw]
    exact hvalve.trans (sameOff_requestPin pins.pump _)

/-- Wiring that succeeds makes a controller of two fresh outputs, on different lines that are
claimed in its name. -/
theorem wire_ok (hw : wire pins r = (.ok c, r')) : c = wired pins ∧ c.Apart ∧ r'.Labels c := by
  rcases wire_cases pins r with
    ⟨-, hw'⟩ | ⟨e, -, hw'⟩ | ⟨e, -, -, hw'⟩ | ⟨hne, hv, hp, hok, hchip⟩
  · rw [hw] at hw'
    cases hw'
  · rw [hw] at hw'
    cases hw'
  · rw [hw] at hw'
    cases hw'
  · rw [hw] at hok hchip
    obtain rfl : c = wired pins := Except.ok.inj hok
    refine ⟨rfl, hne, Rig.Labels.of_chip (fun _ role _ => ?_) hchip⟩
    rw [line, slot_wired]
    cases role with
    | valve => exact (retains_requestPin pins.pump _).of_consumer (requestPin_granted _ hv).2
    | pump => exact (requestPin_granted _ hp).2

/-- A controller that is given up leaves the claims of others. -/
theorem consumer_release (h : r.Hosts c others) (hn : n ∈ others.map Output.offset) :
    (c.release r).2.chip.consumer? n = r.chip.consumer? n :=
  (sameOff_unbindAll Role.all h.fitted r).consumer n fun hm => h.notMem_others hm hn

theorem isOpen_release (h : r.Hosts c others) : (c.release r).2.chip.isOpen = r.chip.isOpen :=
  (sameOff_unbindAll Role.all h.fitted r).isOpen

end Controller

end Irrigation
