import Irrigation.Proofs.Exchange.Rounds
import Irrigation.Proofs.Hardware.Phases
import Irrigation.Proofs.World.Stopping

/-!
# The lines of shared controllers

What becomes of the controllers' lines in a trade. The worker switches the controller that its
iteration has taken, and no other (`Exchange.Sound.calls`, `Sound.worked_others`). A controller to
which somebody refers stays on its lines, unless it is moved or its iteration lets go of it
(`Sound.stays`). A controller that gives up a line leaves it inactive and to everybody
(`Sound.yields`).
-/

namespace Irrigation

/-- The chip has an output's line back, at its inactive level. -/
structure Chip.HasBack (c : Chip) (o : Output) : Prop where
  free : c.isClaimed o.offset = false
  inactive : c.level? o.offset = some (o.polarity.level false)

namespace Controller

/-- Roles that let go leave their lines inactive, and to everybody. -/
theorem hasBack_unbindAll {c : Controller} {r : Rig} {others : List Output}
    (h : r.Hosts c others) {roles : List Role} {role : Role} (hrole : role ∈ roles) {o : Output}
    (ho : (c.slot role).output = some o) : (c.unbindAll roles r).2.chip.HasBack o := by
  obtain ⟨hoffset, -, hpolarity⟩ := h.fitted role o ho
  have hb : (c.slot role).isBound := isBound_iff.mpr ⟨o, ho⟩
  constructor
  · rw [hoffset]
    exact isClaimed_unbindAll roles h role hrole hb
  · rw [hoffset, hpolarity]
    exact level_unbindAll roles h role hrole hb

end Controller

/-- Bindings change only where the worker lets go. -/
theorem Watering.touch_cases (s : Watering) (p : Point) :
    (∀ role, ((s.touch p).1.slot role).binding = (s.iterationHardware.slot role).binding) ∨
      ((p.letsGo = true ∧ s.replaced.isSome = true ∨ p.forgets = true) ∧
        ∃ role, s.touch p = s.iterationHardware.unbindAll [role] s.rig) := by
  cases hcall : p.calls with
  | some call =>
    rw [touch_of_call hcall]
    exact .inl (World.binding_served s call.1 call.2)
  | none =>
    unfold touch
    rw [hcall]
    cases p with
    | lettingGo again =>
      cases s.replaced.isSome with
      | true => exact .inr ⟨.inl ⟨rfl, rfl⟩, .valve, rfl⟩
      | false => exact .inl fun _ => rfl
    | lettingGoPump again => exact .inr ⟨.inr rfl, .pump, rfl⟩
    | _ => exact .inl fun _ => rfl

namespace Exchange

variable {x y : Exchange} {k : Nat} {c : Controller}

/-- From `x` to `y`, whatever output a controller has given up, the chip has its line back. -/
def Yields (x y : Exchange) : Prop :=
  ∀ (k : Nat) (c c' : Controller), x.controllers[k]? = some c → y.controllers[k]? = some c' →
    ∀ role o, (c.slot role).output = some o → (c'.slot role).output = none →
      y.world.system.rig.chip.HasBack o

/-- From `x` to `y` a controller stays on its lines. -/
def Stays (x y : Exchange) (k : Nat) : Prop :=
  ∀ c, x.controllers[k]? = some c → ∃ c', y.controllers[k]? = some c' ∧
    ∀ role, (c'.slot role).binding = (c.slot role).binding

theorem Stays.of_eq (h : y.controllers[k]? = x.controllers[k]?) : x.Stays y k :=
  fun c hc => ⟨c, h.trans hc, fun _ => rfl⟩

/-- A controller that stays on its lines gives up none. -/
theorem output_ne_none_of_binding {slot slot' : Slot} (h : slot'.binding = slot.binding)
    {o : Output} (ho : slot.output = some o) : slot'.output ≠ none := by
  intro hnone
  have hline := congrArg (fun b => b.2.2) h
  simp only [Slot.binding, ho, hnone] at hline
  cases hline

theorem Yields.of_stays (h : ∀ k, x.Stays y k) : x.Yields y := by
  intro k c c' hc hc' role o ho hnone
  obtain ⟨c'', hc'', hbinding⟩ := h k c hc
  obtain rfl := Option.some.inj (hc'.symm.trans hc'')
  exact absurd hnone (output_ne_none_of_binding (hbinding role) ho)

/-! ## A step of the worker -/

section Worked

variable {p : Point} {w : World}

/-- A step changes the worker's controller at most. -/
theorem worked_controllers_of_ne (hne : x.touched ≠ k) :
    (x.worked p w).controllers[k]? = x.controllers[k]? :=
  List.getElem?_set_ne hne

theorem Sound.worked_controllers (h : x.Sound) (p : Point) (w : World) :
    (x.worked p w).controllers[x.touched]? = some (x.acting.touch p).1 :=
  List.getElem?_set_self (List.getElem?_eq_some_iff.mp h.touched_eq).1

theorem Sound.worked_yields (h : x.Sound) (hs : x.Steps p w) : x.Yields (x.worked p w) := by
  intro k c c' hc hc' role o ho hnone
  by_cases hk : x.touched = k
  · subst hk
    obtain rfl := Option.some.inj (h.touched_eq.symm.trans hc)
    obtain rfl := Option.some.inj ((h.worked_controllers p w).symm.trans hc')
    rcases x.acting.touch_cases p with hbinding | ⟨-, role', htouch⟩
    · exact absurd hnone (output_ne_none_of_binding (hbinding role) ho)
    · by_cases hrole : role = role'
      · change w.system.rig.chip.HasBack o
        rw [hs.chip, htouch]
        exact Controller.hasBack_unbindAll h.acting_hosts (List.mem_singleton.mpr hrole) ho
      · rw [htouch, Controller.fst_unbindAll, Controller.slot_dropAll,
          if_neg (fun hmem => hrole (List.mem_singleton.mp hmem)), ho] at hnone
        cases hnone
  · rw [worked_controllers_of_ne hk, hc] at hc'
    rw [← Option.some.inj hc', ho] at hnone
    cases hnone

/-- A controller that is half given up is the one that the worker has before him. -/
theorem Sound.used_of_forgets (h : x.Sound) (hp : x.world.system.point? = some p)
    (hforgets : p.forgets = true) : x.usedHardware = some x.touched := by
  obtain ⟨-, -, -, hnone | hspared⟩ | ⟨k, c, -, htouched, -, hused, -⟩ := h.touched_cases
  · have hsome := (h.steady.settled p hp).forgets hforgets
    rw [h.replaced, hnone] at hsome
    cases hsome
  · obtain ⟨⟨again, hp'⟩, -⟩ := exists_of_isSpared hspared
    obtain rfl := Option.some.inj (hp.symm.trans hp')
    cases hforgets
  · rw [htouched, hused]

/-- Nobody refers any more to a controller that was replaced and has given up both lines. -/
theorem Sound.worked_forgotten (h : x.Sound) (hs : x.Steps p w) (hforgets : p.forgets = true) :
    (x.worked p w).refersTo x.touched = false := by
  obtain ⟨hne, hkept⟩ := h.halved_alone hs.point hforgets (h.used_of_forgets hs.point hforgets)
  have hnone : (x.worked p w).usedHardware = none := by
    rw [worked_usedHardware hs]
    cases p <;> try cases hforgets
    rw [Watering.nextPoint, World.not_inIteration_afterIteration]
    rfl
  exact refersTo_eq_false.mpr ⟨hne, hkept, by rw [hnone]; rintro ⟨⟩⟩

/-- Where a replaced controller begins to give up its lines, only the worker refers to it. -/
theorem Sound.alone_of_letsGo (h : x.Sound) (hp : x.world.system.point? = some p)
    (hgoes : p.letsGo = true) (hreplaced : x.acting.replaced.isSome = true) :
    x.touched ≠ x.hardware ∧ x.touched ∉ x.kept := by
  obtain ⟨hnone, -⟩ | ⟨k, c, -, htouched, -, hused, hne, -, hspared⟩ := h.touched_cases
  · rw [hnone] at hreplaced
    cases hreplaced
  · rw [htouched]
    refine ⟨hne, fun hkept => ?_⟩
    rw [isSpared, hp, hused] at hspared
    simp [hgoes, hkept] at hspared

theorem Sound.worked_stays (h : x.Sound) (hs : x.Steps p w)
    (hgoes : p.letsGo = true → k = x.hardware ∨ k ∈ x.kept)
    (hrefers : (x.worked p w).refersTo k = true) : x.Stays (x.worked p w) k := by
  by_cases hk : x.touched = k
  · subst hk
    intro c hc
    obtain rfl := Option.some.inj (h.touched_eq.symm.trans hc)
    refine ⟨_, h.worked_controllers p w, ?_⟩
    rcases x.acting.touch_cases p with hbinding | ⟨⟨hletsGo, hreplaced⟩ | hforgets, -⟩
    · exact hbinding
    · obtain ⟨hne, hkept⟩ := h.alone_of_letsGo hs.point hletsGo hreplaced
      exact ((hgoes hletsGo).elim hne hkept).elim
    · rw [h.worked_forgotten hs hforgets] at hrefers
      cases hrefers
  · exact .of_eq (worked_controllers_of_ne hk)

/-! ### What the worker calls -/

/-- A call is shown where a device is switched, with the line that the iteration's controller
holds. -/
theorem call_of_mem_marksAt {s : Watering} {role : Role} {on : Bool} {line : Option Offset}
    (h : .call role on line ∈ s.marksAt p) :
    p.calls = some (role, on) ∧ line = s.line? role := by
  revert h
  fun_cases Watering.marksAt s p <;> grind [Watering.entering, Point.calls]

theorem usesHardware_of_calls {call : Role × Bool} (h : p.calls = some call) :
    p.usesHardware = true ∧ p.letsGo = false := by
  cases p <;> first | exact ⟨rfl, rfl⟩ | cases h

/-- Where the worker has taken a controller, and is not about to let go of one that is kept, his
steps touch no other. -/
theorem Sound.used_of_not_spared (h : x.Sound) (hp : x.world.system.point? = some p)
    (huses : p.usesHardware = true) (hspared : x.isSpared = false) :
    x.usedHardware = some x.touched := by
  obtain ⟨-, htouched, -, hnone | hyes⟩ | ⟨k, c, -, htouched, -, hused, -⟩ := h.touched_cases
  · have hused := (h.usesHardware_at hp).trans huses
    rcases h.used_of_not_replaced hnone with hunused | hsame
    · rw [hunused] at hused
      cases hused
    · rw [hsame, htouched]
  · rw [hspared] at hyes
    cases hyes
  · rw [hused, htouched]

theorem isSpared_eq_false (hp : x.world.system.point? = some p) (hgoes : p.letsGo = false) :
    x.isSpared = false := by
  rw [isSpared, hp, Option.map_some, Option.getD_some, hgoes]
  rfl

/-- Switching leaves this controller and this chip. -/
theorem served_eq (s : Watering) (role : Role) (on : Bool) :
    (s.served role on).1 = (s.iterationHardware.switch role on s.rig).2.1 ∧
      (s.served role on).2.chip = (s.iterationHardware.switch role on s.rig).2.2.chip := by
  cases ho : (s.iterationHardware.slot role).output with
  | none =>
    rw [Controller.switch_of_none ho]
    exact ⟨(Watering.served_of_none ho on).1, (Watering.served_of_none ho on).2.1⟩
  | some o =>
    rw [Watering.served_of_some ho, Controller.switch_of_some ho]
    exact ⟨rfl, rfl⟩

theorem Sound.worked_calls (h : x.Sound) (hs : x.Steps p w) {role : Role} {on : Bool}
    {line : Option Offset} {hardware timing : Option Nat}
    (hmem : .did hardware timing (.call role on line) ∈ x.shown p) :
    ∃ k c, hardware = some k ∧ x.usedHardware = some k ∧ x.controllers[k]? = some c ∧
      line = (c.slot role).output.map Output.offset ∧
      (x.worked p w).controllers =
        x.controllers.set k (c.switch role on (x.world.system.actAs .worker).rig).2.1 ∧
      w.system.rig.chip = (c.switch role on (x.world.system.actAs .worker).rig).2.2.chip := by
  by_cases hhead : p = .takingHardware
  · subst hhead
    cases List.mem_singleton.mp hmem
  by_cases hhead' : p = .takingTiming
  · subst hhead'
    cases List.mem_singleton.mp hmem
  rw [shown_of_took hhead hhead'] at hmem
  obtain ⟨m, hm, he⟩ := List.mem_map.mp hmem
  cases he
  obtain ⟨hcall, hline⟩ := call_of_mem_marksAt hm
  obtain ⟨huses, hgoes⟩ := usesHardware_of_calls hcall
  have hused := h.used_of_not_spared hs.point huses (isSpared_eq_false hs.point hgoes)
  have htouch : x.acting.touch p = x.acting.served role on := Watering.touch_of_call hcall
  obtain ⟨hfst, hchip⟩ := served_eq x.acting role on
  rw [acting_rig] at hfst hchip
  refine ⟨x.touched, _, hused, hused, h.touched_eq, hline, ?_, ?_⟩
  · rw [← hfst, ← htouch]
    rfl
  · rw [hs.chip, htouch, hchip]

/-- The worker's steps leave the controllers alone that his iteration has not taken. -/
theorem Sound.worked_others (h : x.Sound) (hs : x.Steps p w) (hne : x.usedHardware ≠ some k) :
    (x.worked p w).controllers[k]? = x.controllers[k]? := by
  by_cases hk : x.touched = k
  · subst hk
    have hsame : (x.acting.touch p).1 = x.acting.iterationHardware := by
      cases hspared : x.isSpared with
      | false =>
        have huses : p.usesHardware = false := by
          rw [Bool.eq_false_iff]
          exact fun huses => hne (h.used_of_not_spared hs.point huses hspared)
        cases p <;> first | rfl | cases huses
      | true =>
        obtain ⟨⟨again, hp⟩, -⟩ := exists_of_isSpared hspared
        obtain rfl := Option.some.inj (hs.point.symm.trans hp)
        have hnone : x.acting.replaced = none := by
          rw [acting_replaced, hspared]
          rfl
        simp only [Watering.touch, Point.calls, hnone]
        rfl
    rw [h.worked_controllers, hsame, h.touched_eq]
  · exact worked_controllers_of_ne hk

end Worked

/-! ## Everybody else -/

/-- A drop takes the lines from a controller to which nobody refers, and the chip has them back. -/
theorem drop_yields (hhouses : x.world.system.rig.Houses x.controllers x.world.guests)
    (hy : x.drop k = some y) : x.Yields y := by
  obtain ⟨-, rfl⟩ | ⟨-, -, c, hc, rfl⟩ := drop_cases hy
  · exact .of_stays fun _ => .of_eq rfl
  · intro j c₁ c₁' hc₁ hc₁' role o ho hnone
    have hc₁' : (x.controllers.set k (c.release x.world.system.rig).1)[j]? = some c₁' := hc₁'
    by_cases hj : k = j
    · subst hj
      obtain rfl := Option.some.inj (hc.symm.trans hc₁)
      exact Controller.hasBack_unbindAll (hhouses.hostsAt hc)
        (Role.mem_all role) ho
    · rw [List.getElem?_set_ne hj, hc₁] at hc₁'
      rw [← Option.some.inj hc₁', ho] at hnone
      cases hnone

theorem drop_stays (hy : x.drop k = some y) {j : Nat} (hj : y.refersTo j = true) : x.Stays y j := by
  obtain ⟨-, rfl⟩ | ⟨hfree, -, c, hc, rfl⟩ := drop_cases hy
  · exact .of_eq rfl
  · refine .of_eq (List.getElem?_set_ne ?_)
    rintro rfl
    exact Bool.false_ne_true (hfree.symm.trans hj)

/-- What a trade does to the controllers. -/
inductive Deals (x : Exchange) (t : Trade) (y : Exchange) : Prop
  /-- It leaves them alone; there may be one more. -/
  | leaves (same : ∀ (k : Nat) (c : Controller), x.controllers[k]? = some c →
      y.controllers[k]? = some c)
  /-- It drops one. -/
  | drops {z z' : Exchange} {k : Nat} (world : z.world = x.world)
      (controllers : z.controllers = x.controllers) (drop : z.drop k = some z')
      (after : y.controllers = z'.controllers)
      (chip : y.world.system.rig.chip = z'.world.system.rig.chip)
      (refers : y.refersTo = z'.refersTo)
  /-- It moves one. -/
  | moves {k : Nat} {wanted : Each (Option Offset)} {c : Controller} (move : t = .rebind k wanted)
      (after : y.controllers = x.controllers.set k c)

theorem trade_deals {t : Trade} (hy : x.trade t = some y) : x.Deals t y := by
  cases trade_outcome hy with
  | built =>
    refine .leaves fun k c hc => ?_
    exact (List.getElem?_append_left (List.getElem?_eq_some_iff.mp hc).1).trans hc
  | @forget k _ _ hdrop =>
    exact .drops (z := { x with kept := x.kept.erase k }) rfl rfl hdrop rfl rfl rfl
  | @install k _ _ hdrop => exact .drops (z := x.putHardware k) rfl rfl hdrop rfl rfl rfl
  | rebind => exact .moves rfl rfl
  | _ => exact .leaves fun _ _ hc => hc

/-! ## Every trade -/

variable {x' : Exchange} {t : Trade}

/-- **What is shown to be called is a call of the iteration's controller.** -/
theorem Sound.calls (h : x.Sound) (hx : x.next t = some x') {new : List Entry}
    (hlog : x'.log = x.log ++ new) {role : Role} {on : Bool} {line : Option Offset}
    {hardware timing : Option Nat} (hmem : .did hardware timing (.call role on line) ∈ new) :
    t = .work ∧ ∃ k c, hardware = some k ∧ x.usedHardware = some k ∧
      x.controllers[k]? = some c ∧ line = (c.slot role).output.map Output.offset ∧
      x'.controllers =
        x.controllers.set k (c.switch role on (x.world.system.actAs .worker).rig).2.1 ∧
      x'.world.system.rig.chip =
        (c.switch role on (x.world.system.actAs .worker).rig).2.2.chip := by
  obtain ⟨p, w, rfl, hp, hw, rfl⟩ | ⟨m, w, -, -, -, rfl⟩ | ⟨y, hy, rfl⟩ := next_cases hx
  · obtain rfl := List.append_cancel_left hlog
    exact ⟨rfl, h.worked_calls (h.steps hp hw) hmem⟩
  · rw [List.self_eq_append_right.mp hlog] at hmem
    cases hmem
  · obtain ⟨new', hlog', hnew⟩ := (trade_writes hy).log
    obtain rfl := List.append_cancel_left (hlog'.symm.trans hlog)
    cases hnew _ hmem

/-- **A controller that gives up a line leaves it inactive and to everybody.** -/
theorem Sound.yields (h : x.Sound) (hx : x.next t = some x')
    (hmove : ∀ k wanted, t ≠ .rebind k wanted) : x.Yields x' := by
  obtain ⟨p, w, -, hp, hw, rfl⟩ | ⟨m, w, -, -, -, rfl⟩ | ⟨y, hy, rfl⟩ := next_cases hx
  · exact h.worked_yields (h.steps hp hw)
  · exact .of_stays fun _ => .of_eq rfl
  · cases trade_deals hy with
    | leaves hsame => exact .of_stays fun k c hc => ⟨c, hsame k c hc, fun _ => rfl⟩
    | @drops z z' k hworld hcontrollers hz hafter hchip _ =>
      have hyields : z.Yields z' := drop_yields (by rw [hworld, hcontrollers]; exact h.houses) hz
      intro j c c' hc hc' role o ho hnone
      have hback := hyields j c c' (hcontrollers ▸ hc) (hafter ▸ hc') role o ho hnone
      rw [← hchip] at hback
      exact hback
    | moves hmoved _ => exact absurd hmoved (hmove _ _)

/-- **A controller to which somebody refers stays on its lines**, unless it is moved, or the worker
alone refers to it and is letting go. -/
theorem Sound.stays (h : x.Sound) (hx : x.next t = some x') (hrefers : x'.refersTo k = true)
    (hmove : ∀ wanted, t ≠ .rebind k wanted)
    (hgoes : ∀ p, t = .work → x.world.system.point? = some p → p.letsGo = true →
      k = x.hardware ∨ k ∈ x.kept) :
    x.Stays x' k := by
  obtain ⟨p, w, rfl, hp, hw, rfl⟩ | ⟨m, w, -, -, -, rfl⟩ | ⟨y, hy, rfl⟩ := next_cases hx
  · exact h.worked_stays (h.steps hp hw) (hgoes p rfl hp) hrefers
  · exact .of_eq rfl
  · have hrefers : y.refersTo k = true := hrefers
    cases trade_deals hy with
    | leaves hsame => exact fun c hc => ⟨c, hsame k c hc, fun _ => rfl⟩
    | drops hworld hcontrollers hz hafter _ hrefs =>
      intro c hc
      rw [hrefs] at hrefers
      obtain ⟨c', hc', hbinding⟩ := drop_stays hz hrefers c (hcontrollers ▸ hc)
      exact ⟨c', hafter ▸ hc', hbinding⟩
    | @moves j wanted c hmoved hafter =>
      refine .of_eq ?_
      change y.controllers[k]? = _
      rw [hafter, List.getElem?_set_ne]
      rintro rfl
      exact hmove wanted hmoved

end Exchange

end Irrigation
