import Irrigation.Proofs.Hardware.Ledger

/-!
# What a controller does to the lines

One lemma for each operation of a controller: on a rig that serves the controller's outputs and
some others (`Rig.Hosts`), it leaves a rig that serves the controller's new outputs and the same
others. Only `Controller.switch` can turn an output on.
-/

namespace Irrigation

/-- The output of a line that has just been claimed for a pin. -/
def Pin.fresh (pin : Pin) : Output := ⟨pin.offset, .output, pin.polarity, false⟩

/-- A rig that serves a controller's outputs, which are as its roles say, and some others. -/
structure Rig.Hosts (r : Rig) (c : Controller) (others : List Output) : Prop where
  serves : r.Serves (c.outputs ++ others)
  fitted : c.Fitted

theorem Rig.Hosts.of_eq {r r' : Rig} {c : Controller} {others : List Output}
    (h : r.Hosts c others) (hc : r'.chip = r.chip) (hf : r'.faults = r.faults) :
    r'.Hosts c others := ⟨h.serves.of_eq hc hf, h.fitted⟩

namespace Controller

variable {c : Controller} {role : Role} {r r' : Rig} {others : List Output}

theorem ne_of_mem {roles : List Role} {role' : Role} (h : role ∉ roles) (h' : role' ∈ roles) :
    role' ≠ role := fun he => h (he ▸ h')

theorem drop_eq_self (h : (c.slot role).output = none) : c.drop role = c := by
  obtain ⟨⟨⟨vp, vo, valve⟩, ⟨pp, po, pump⟩⟩⟩ := c
  cases role with
  | valve =>
    obtain rfl : valve = none := h
    rfl
  | pump =>
    obtain rfl : pump = none := h
    rfl

theorem slot_modify_ne {f : Slot → Slot} {r' : Role} (h : r' ≠ role) :
    (c.modify role f).slot r' = c.slot r' := by
  rw [slot_modify, if_neg h]

@[simp] theorem slot_drop (c : Controller) (role r : Role) :
    (c.drop role).slot r = if r = role then { c.slot role with output := none } else c.slot r := by
  rw [drop, slot_modify]

theorem Fitted.drop (h : c.Fitted) (role : Role) : (c.drop role).Fitted :=
  h.modify fun _ ho => by cases ho

theorem Calms.drop (c : Controller) (role : Role) : Calms c (c.drop role) :=
  .modify c rfl fun _ ho => by cases ho

/-! ## Switching -/

theorem switch_of_some {o : Output} (ho : (c.slot role).output = some o) (on : Bool) (r : Rig) :
    c.switch role on r = (true, c.bind role (o.switch on r).1, (o.switch on r).2) := by
  unfold Controller.switch
  rw [ho]

theorem switch_of_none (ho : (c.slot role).output = none) (on : Bool) (r : Rig) :
    c.switch role on r = (false, c, r) := by
  unfold Controller.switch
  rw [ho]

theorem fst_switch_of_fitted (hc : c.Fitted) {o : Output} (ho : (c.slot role).output = some o)
    (on : Bool) (r : Rig) : (o.switch on r).1 = { o with active := on } := by
  rw [Rig.switch_of_output (hc role o ho).2.1]

/-- Switching a bound role changes the output's state and the level of its line. -/
theorem hosts_switch (h : r.Hosts c others) {o : Output} (ho : (c.slot role).output = some o)
    (on : Bool) : (o.switch on r).2.Hosts (c.bind role { o with active := on }) others := by
  obtain ⟨h, hc⟩ := h
  have hfit := hc role o ho
  refine ⟨?_, hc.modify fun o' ho' => ?_⟩
  · have hs := h.perm ((outputs_drop ho).append_right others)
    exact (hs.switch hfit.2.1 on).perm ((outputs_modify rfl).symm.append_right others)
  · obtain rfl := Option.some.inj ho'
    exact hfit

/-! ## Letting go -/

theorem fst_unbind {σ : Type} [Board σ] (c : Controller) (role : Role) (s : σ) :
    (c.unbind role s).1 = c.drop role := by
  unfold Controller.unbind
  cases ho : (c.slot role).output with
  | none => exact (drop_eq_self ho).symm
  | some o =>
    simp only
    rcases Board.release (o.switch false s).2 [(c.slot role).offset] with ⟨_ | _, s'⟩ <;> rfl

/-- A role that lets go of its line drives it inactive first, and the line is nobody's then. -/
theorem hosts_unbind (h : r.Hosts c others) (role : Role) :
    (c.unbind role r).2.Hosts (c.drop role) others := by
  cases ho : (c.slot role).output with
  | none =>
    rw [Rig.unbind_of_none ho, drop_eq_self ho]
    exact h
  | some o =>
    obtain ⟨h, hc⟩ := h
    obtain ⟨hoffset, hdir, -⟩ := hc role o ho
    have hs := h.perm ((outputs_drop ho).append_right others)
    have hreleased := (hs.switch hdir false).release
    change (Board.release (o.switch false r).2 [o.offset]).2.Serves _ at hreleased
    rw [hoffset] at hreleased
    refine ⟨?_, hc.drop role⟩
    unfold Controller.unbind
    simp only [ho]
    rcases hr : Board.release (o.switch false r).2 [(c.slot role).offset] with ⟨_ | _, r'⟩ <;>
      rw [hr] at hreleased
    · exact hreleased.of_eq rfl rfl
    · exact hreleased

/-- Lets go of the outputs of some roles. -/
def dropAll (c : Controller) (roles : List Role) : Controller := roles.foldl drop c

theorem fst_unbindAll {σ : Type} [Board σ] (roles : List Role) :
    ∀ (c : Controller) (s : σ), (c.unbindAll roles s).1 = c.dropAll roles := by
  induction roles with
  | nil => exact fun _ _ => rfl
  | cons role rest ih =>
    intro c s
    simp only [unbindAll, ih, fst_unbind]
    rfl

theorem hosts_unbindAll (roles : List Role) :
    ∀ {c : Controller} {r : Rig}, r.Hosts c others →
      (c.unbindAll roles r).2.Hosts (c.dropAll roles) others := by
  induction roles with
  | nil => exact fun h => h
  | cons role rest ih =>
    intro c r h
    have h' := ih (hosts_unbind h role)
    rw [← fst_unbind c role r] at h'
    simp only [unbindAll]
    rw [dropAll, List.foldl_cons, ← fst_unbind c role r]
    exact h'

theorem Calms.dropAll (roles : List Role) :
    ∀ c : Controller, Calms c (c.dropAll roles) := by
  induction roles with
  | nil => exact fun c => .refl c
  | cons role rest ih => exact fun c => (Calms.drop c role).trans (ih _)

/-- A role keeps its line and polarity, and its output unless it is among those that let go. -/
theorem slot_dropAll (roles : List Role) :
    ∀ (c : Controller) (role : Role), (c.dropAll roles).slot role =
      if role ∈ roles then { c.slot role with output := none } else c.slot role := by
  induction roles with
  | nil => exact fun _ _ => rfl
  | cons a rest ih =>
    intro c role
    rw [dropAll, List.foldl_cons]
    have h := ih (c.drop a) role
    rw [dropAll] at h
    rw [h, slot_drop]
    by_cases ha : role = a
    · subst ha
      simp
    · simp [ha]

/-! ## Acquiring, settling, handing back, restoring -/

theorem requestPin_error {pin : Pin} {e : LineError} (h : requestPin pin r = (.error e, r')) :
    r' = r := by
  change r.request Wiring.consumer pin.offset .output pin.polarity = _ at h
  exact Rig.request_error h

theorem requestPin_ok {held : List Output} (hs : r.Serves held) {pin : Pin} {o : Output}
    (h : requestPin pin r = (.ok o, r')) : o = pin.fresh ∧ r'.Serves (pin.fresh :: held) := by
  change r.request Wiring.consumer pin.offset .output pin.polarity = _ at h
  obtain ⟨rfl, hs'⟩ := hs.request h
  exact ⟨rfl, hs'⟩

/-- An output that was acquired for a role which holds none is bound to it. -/
theorem hosts_modify {o : Output} {f : Slot → Slot} (hs : r.Serves (o :: (c.outputs ++ others)))
    (hc : c.Fitted) (hnone : (c.slot role).output = none)
    (hf : (f (c.slot role)).output = some o) (hoffset : o.offset = (f (c.slot role)).offset)
    (hdir : o.direction = .output) (hpol : o.polarity = (f (c.slot role)).polarity) :
    r.Hosts (c.modify role f) others := by
  refine ⟨hs.perm ?_, hc.modify fun o' ho' => ?_⟩
  · refine .trans ?_ ((outputs_modify hf).symm.append_right others)
    exact ((drop_of_none hnone).symm.append_right others).cons o
  · rw [hf] at ho'
    obtain rfl := Option.some.inj ho'
    exact ⟨hoffset, hdir, hpol⟩

theorem Calms.modify_fresh {o : Output} {f : Slot → Slot}
    (hp : (f (c.slot role)).polarity = (c.slot role).polarity)
    (hf : (f (c.slot role)).output = some o) (ha : o.active = false) :
    Calms c (c.modify role f) :=
  .modify c hp fun o' ho' => by
    rw [hf] at ho'
    obtain rfl := Option.some.inj ho'
    exact ha

/-- What is acquired are fresh outputs for the first of the roles, and for all of them unless one
was refused. -/
theorem acquire_spec (pin : Role → Pin) (roles : List Role) :
    ∀ {r : Rig} {held : List Output}, r.Serves held →
      ∃ given, given <+: roles ∧
        (acquire pin roles r).1 = given.map (fun role => (role, (pin role).fresh)) ∧
        ((acquire pin roles r).2.1 = none → given = roles) ∧
        (acquire pin roles r).2.2.Serves (given.map (fun role => (pin role).fresh) ++ held) := by
  induction roles with
  | nil => exact fun hs => ⟨[], List.prefix_refl _, rfl, fun _ => rfl, hs⟩
  | cons role rest ih =>
    intro r held hs
    rcases hq : requestPin (pin role) r with ⟨e | o, r₁⟩
    · obtain rfl := requestPin_error hq
      simp only [acquire, hq]
      exact ⟨[], List.nil_prefix, rfl, by simp, hs⟩
    · obtain ⟨rfl, hs₁⟩ := requestPin_ok hs hq
      obtain ⟨given, hgiven, hacq, hall, hs'⟩ := ih hs₁
      simp only [acquire, hq]
      refine ⟨role :: given, (List.prefix_cons_inj role).mpr hgiven, by rw [hacq]; rfl,
        fun hnone => by rw [hall hnone], ?_⟩
      exact hs'.perm List.perm_middle

theorem hosts_settle (pin : Role → Pin) (target : Role → Offset) (given : List Role) :
    ∀ {c : Controller} {r : Rig}, given.Nodup → (∀ role ∈ given, (c.slot role).output = none) →
      (∀ role ∈ given, pin role = ⟨target role, (c.slot role).polarity⟩) → c.Fitted →
      r.Serves (given.map (fun role => (pin role).fresh) ++ (c.outputs ++ others)) →
      ((c.settle (given.map fun role => (role, (pin role).fresh)) target r).2.Hosts
        (c.settle (given.map fun role => (role, (pin role).fresh)) target r).1 others ∧
      Calms c (c.settle (given.map fun role => (role, (pin role).fresh)) target r).1) := by
  induction given with
  | nil => exact fun _ _ _ hc hs => ⟨⟨hs, hc⟩, .refl _⟩
  | cons role rest ih =>
    intro c r hnodup hnone hpin hc hs
    obtain ⟨hrole, hrest⟩ := List.nodup_cons.mp hnodup
    have hp := hpin role (.head _)
    have hs' : r.Serves
        ((pin role).fresh :: (c.outputs ++ (rest.map (fun role => (pin role).fresh) ++ others))) :=
      hs.perm (List.perm_append_comm_assoc ..|>.cons _)
    have hstep := hosts_modify
      (f := fun slot => ⟨slot.polarity, target role, some (pin role).fresh⟩)
      hs' hc (hnone role (.head _)) rfl (by rw [hp]; rfl) rfl (by rw [hp]; rfl)
    simp only [List.map_cons, settle]
    generalize hlog : log .info _ r = r'
    have hchip : r'.chip = r.chip := by rw [← hlog]; rfl
    have hfaults : r'.faults = r.faults := by rw [← hlog]; rfl
    have hserves := hstep.serves.perm (List.perm_append_comm_assoc ..)
    obtain ⟨hhosts, hcalms⟩ := ih hrest
      (fun role' hmem => by
        rw [slot_modify_ne (ne_of_mem hrole hmem)]
        exact hnone role' (.tail _ hmem))
      (fun role' hmem => by
        rw [slot_modify_ne (ne_of_mem hrole hmem)]
        exact hpin role' (.tail _ hmem))
      hstep.fitted (hserves.of_eq hchip hfaults)
    exact ⟨hhosts, (Calms.modify_fresh rfl rfl rfl).trans hcalms⟩

theorem serves_handBack (pin : Role → Pin) (target : Role → Offset) (given : List Role) :
    ∀ {r : Rig} {held : List Output}, (∀ role ∈ given, (pin role).offset = target role) →
      r.Serves (given.map (fun role => (pin role).fresh) ++ held) →
      (handBack (given.map fun role => (role, (pin role).fresh)) target r).Serves held := by
  induction given with
  | nil => exact fun _ hs => hs
  | cons role rest ih =>
    intro r held hpin hs
    have hs' := hs.release
    change (Board.release r [(pin role).offset]).2.Serves _ at hs'
    rw [hpin role (.head _)] at hs'
    exact ih (fun role' hmem => hpin role' (.tail _ hmem)) hs'

theorem hosts_restore (roles : List Role) :
    ∀ {c : Controller} {r : Rig}, roles.Nodup → (∀ role ∈ roles, (c.slot role).output = none) →
      r.Hosts c others →
      (c.restore roles r).2.Hosts (c.restore roles r).1 others ∧ Calms c (c.restore roles r).1 := by
  induction roles with
  | nil => exact fun _ _ h => ⟨h, .refl _⟩
  | cons role rest ih =>
    intro c r hnodup hnone h
    obtain ⟨hrole, hrest⟩ := List.nodup_cons.mp hnodup
    rcases hq : requestPin ⟨(c.slot role).offset, (c.slot role).polarity⟩ r with ⟨e | o, r₁⟩
    · obtain rfl := requestPin_error hq
      simp only [restore, hq]
      exact ih hrest (fun role' hmem => hnone role' (.tail _ hmem)) (h.of_eq rfl rfl)
    · obtain ⟨rfl, hs₁⟩ := requestPin_ok h.serves hq
      simp only [restore, hq]
      have hstep := hosts_modify (f := fun slot => { slot with
        output := some (Pin.fresh ⟨(c.slot role).offset, (c.slot role).polarity⟩) })
        hs₁ h.fitted (hnone role (.head _)) rfl rfl rfl rfl
      generalize hlog : log .info _ r₁ = r'
      have hchip : r'.chip = r₁.chip := by rw [← hlog]; rfl
      have hfaults : r'.faults = r₁.faults := by rw [← hlog]; rfl
      obtain ⟨hhosts, hcalms⟩ := ih hrest
        (fun role' hmem => by
          rw [slot_modify_ne (ne_of_mem hrole hmem)]
          exact hnone role' (.tail _ hmem))
        (hstep.of_eq hchip hfaults)
      exact ⟨hhosts, (Calms.modify_fresh rfl rfl rfl).trans hcalms⟩

/-! ## Whole operations -/

theorem nodup_moving (c : Controller) (target : Each Offset) : (c.moving target).Nodup :=
  List.Pairwise.filter _ (by decide)

/-- A move, successful or not, keeps to the controller's own lines, and turns nothing on. -/
theorem hosts_rebind (h : r.Hosts c others) (wanted : Each (Option Offset)) :
    (c.rebind wanted r).2.2.Hosts (c.rebind wanted r).2.1 others ∧
      Calms c (c.rebind wanted r).2.1 := by
  unfold Controller.rebind
  simp only
  split
  · exact ⟨h, .refl c⟩
  · split
    · exact ⟨h.of_eq rfl rfl, .refl c⟩
    · generalize hroles : c.moving (c.targets wanted) = roles
      have hnodup : roles.Nodup := hroles ▸ nodup_moving c _
      have hdropped := hosts_unbindAll roles h
      rw [fst_unbindAll]
      generalize (c.unbindAll roles r).2 = r₁ at hdropped
      generalize hc₁ : c.dropAll roles = c₁ at hdropped
      have hcalm : Calms c c₁ := hc₁ ▸ Calms.dropAll roles c
      have hnone : ∀ role ∈ roles, (c₁.slot role).output = none := by
        intro role hmem
        rw [← hc₁, slot_dropAll, if_pos hmem]
      generalize hpin : (fun role => (⟨(c.targets wanted).get role, (c₁.slot role).polarity⟩ : Pin))
        = pin
      obtain ⟨given, hgiven, hacq, hall, hs⟩ := acquire_spec pin roles hdropped.serves
      rcases hres : acquire pin roles r₁ with ⟨acquired, _ | ⟨role, e⟩, r₂⟩ <;>
        rw [hres] at hacq hall hs
      · obtain rfl := hall rfl
        obtain rfl : acquired = _ := hacq
        obtain ⟨hhosts, hcalms⟩ := hosts_settle pin (c.targets wanted).get given hnodup hnone
          (fun role _ => by rw [← hpin]) hdropped.fitted hs
        exact ⟨hhosts, hcalm.trans hcalms⟩
      · obtain rfl : acquired = _ := hacq
        simp only
        generalize hlog : log .warn _ r₂ = r'
        have hback : (handBack (given.map fun role => (role, (pin role).fresh))
            (c.targets wanted).get r').Serves (c₁.outputs ++ others) := by
          subst hlog
          exact serves_handBack pin _ given (fun role _ => by rw [← hpin]) (hs.of_eq rfl rfl)
        obtain ⟨hhosts, hcalms⟩ := hosts_restore roles hnodup hnone ⟨hback, hdropped.fitted⟩
        exact ⟨hhosts, hcalm.trans hcalms⟩

/-- Wiring that succeeds takes both lines, and leaves them inactive. -/
theorem hosts_wire {held : List Output} (h : r.Serves held) {pins : Each Pin}
    (hw : wire pins r = (.ok c, r')) :
    r'.Hosts c held ∧ ∀ role,
      c.slot role =
        ⟨(pins.get role).polarity, (pins.get role).offset, some (pins.get role).fresh⟩ := by
  unfold wire at hw
  split at hw
  · cases hw
  · rcases hv : requestPin pins.valve r with ⟨e | valve, r₁⟩ <;> rw [hv] at hw
    · cases hw
    · obtain ⟨rfl, h₁⟩ := requestPin_ok h hv
      simp only at hw
      rcases hp : requestPin pins.pump r₁ with ⟨e | pump, r₂⟩ <;> rw [hp] at hw
      · cases hw
      · obtain ⟨rfl, h₂⟩ := requestPin_ok h₁ hp
        obtain ⟨hc, rfl⟩ := Prod.mk.inj hw
        obtain rfl := Except.ok.inj hc
        refine ⟨⟨(h₂.perm (List.Perm.swap ..)).of_eq rfl rfl, ?_⟩, ?_⟩
        · intro role o ho
          cases role <;> obtain rfl := Option.some.inj ho <;> exact ⟨rfl, rfl, rfl⟩
        · intro role
          cases role <;> rfl

/-- Wiring that fails takes no line. -/
theorem serves_wire_error {held : List Output} (h : r.Serves held) {pins : Each Pin}
    {e : LineError} (hw : wire pins r = (.error e, r')) : r'.Serves held := by
  unfold wire at hw
  split at hw
  · obtain ⟨-, rfl⟩ := Prod.mk.inj hw
    exact h
  · rcases hv : requestPin pins.valve r with ⟨e | valve, r₁⟩ <;> rw [hv] at hw
    · obtain ⟨-, rfl⟩ := Prod.mk.inj hw
      obtain rfl := requestPin_error hv
      exact h
    · obtain ⟨rfl, h₁⟩ := requestPin_ok h hv
      simp only at hw
      rcases hp : requestPin pins.pump r₁ with ⟨e | pump, r₂⟩ <;> rw [hp] at hw
      · obtain ⟨-, rfl⟩ := Prod.mk.inj hw
        obtain rfl := requestPin_error hp
        exact h₁.release
      · cases hw

end Controller

end Irrigation
