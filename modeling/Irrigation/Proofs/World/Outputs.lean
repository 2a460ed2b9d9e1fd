import Irrigation.Proofs.Worker.Burning
import Irrigation.Proofs.World.Job

/-!
# No output is left on

The invariant of the lines (`World.Orderly`): the rig houses all controllers that are alive, and an
output that is on belongs to the controller of an iteration and to a device that is lit. Since no
device is lit outside an iteration, everything is off then, and every line is at the inactive level
of its role.
-/

namespace Irrigation

namespace World

/-- The controllers that are alive: the current one, the replaced one if an iteration still uses
it, and the spares. A caller who installs a controller hands it over and keeps nothing of the one
before, as the program does; so a replaced controller is alive only as long as the iteration needs
it. Callers who keep controllers that they replace are those of an `Exchange`, where a controller is
alive until nobody refers to it. -/
def live (w : World) : List Controller :=
  w.system.hardware :: (w.system.replaced.toList ++ w.spares)

/-- What is so of the lines in every reachable world. -/
structure Orderly (w : World) : Prop where
  houses : w.system.rig.Houses w.live w.guests
  burning : ∀ r o, (w.system.iterationHardware.slot r).output = some o → o.active = true →
    lit w.trace r = true
  shelved : w.system.replaced.isSome → w.system.hardware.Quiet
  spares : ∀ c ∈ w.spares, c.Quiet
  within : ∀ r, lit w.trace r = true → ∃ p, w.system.point? = some p ∧ p.mayBurn r = true
  halved : ∀ p, w.system.point? = some p → p.forgets = true →
    (w.system.iterationHardware.slot .valve).output = none

variable {w w' : World}

/-- The controllers that no iteration uses. -/
def bench (w : World) : List Controller :=
  (if w.system.replaced.isSome then [w.system.hardware] else []) ++ w.spares

/-- The iteration's controller first. -/
theorem live_perm (w : World) : w.live.Perm (w.system.iterationHardware :: w.bench) := by
  rw [live, bench, Watering.iterationHardware_eq]
  cases w.system.replaced with
  | some c => exact .swap ..
  | none => exact .refl _

/-- Unless a replaced controller is forgotten, the one that was touched stays the iteration's. -/
theorem advances_keeps {s s' : Watering} {p : Point} (ha : s.Advances p s')
    (hp : p.forgets = false) : s'.iterationHardware = (s.touch p).1 ∧
      s'.replaced.isSome = s.replaced.isSome ∧ (s.replaced.isSome → s'.hardware = s.hardware) := by
  rw [Watering.iterationHardware_eq, ha.replaced, ha.hardware, hp, if_neg Bool.false_ne_true]
  cases s.replaced with
  | none => exact ⟨rfl, rfl, by rintro ⟨⟩⟩
  | some c => exact ⟨rfl, rfl, fun _ => rfl⟩

/-- When the other half is given up too, a replaced controller holds nothing. -/
theorem outputs_touch {s : Watering} {p : Point} (hp : p.forgets = true)
    (hvalve : (s.iterationHardware.slot .valve).output = none) : (s.touch p).1.outputs = [] := by
  refine Controller.outputs_eq_nil fun role => ?_
  obtain ⟨again, rfl⟩ : ∃ again, p = .lettingGoPump again := by
    cases p <;> first | exact ⟨_, rfl⟩ | cases hp
  rw [show s.touch (.lettingGoPump again) = s.iterationHardware.unbind .pump s.rig from rfl,
    Controller.fst_unbind, Controller.slot_drop]
  cases role with
  | valve => exact hvalve
  | pump => rfl

/-- A replaced controller is forgotten when it has given up both lines. -/
theorem advances_forgets {s s' : Watering} {p : Point} (ha : s.Advances p s')
    (hp : p.forgets = true) (hsettled : s.Settled p)
    (hvalve : (s.iterationHardware.slot .valve).output = none) :
    s'.replaced = none ∧ s'.hardware = s.hardware ∧ (s.touch p).1.outputs = [] := by
  rw [ha.replaced, ha.hardware, if_pos hp, if_pos (hsettled.forgets hp)]
  exact ⟨rfl, rfl, outputs_touch hp hvalve⟩

/-- The first half of a replaced controller is given up where the iteration lets go of it. -/
theorem eq_lettingGo_of_forgets {s : Watering} {p : Point}
    (hnext : (s.nextPoint p).forgets = true) : ∃ again, p = .lettingGo again := by
  revert hnext
  fun_cases Watering.nextPoint s p <;> intro hnext <;>
    first
    | exact ⟨_, rfl⟩
    | cases hnext
    | rw [Watering.not_forgets_afterRecheck] at hnext; cases hnext
    | rw [Watering.not_forgets_afterIteration] at hnext; cases hnext

/-- Half of a replaced controller is given up when the other half is next. -/
theorem valve_touch {s : Watering} {p : Point} (hnext : (s.nextPoint p).forgets = true) :
    ((s.touch p).1.slot .valve).output = none := by
  obtain ⟨hreplaced, -⟩ := Watering.forgets_nextPoint hnext
  obtain ⟨again, rfl⟩ := eq_lettingGo_of_forgets hnext
  rw [show s.touch (.lettingGo again) =
      if s.replaced.isSome then s.iterationHardware.unbind .valve s.rig
      else (s.iterationHardware, s.rig) from rfl, if_pos hreplaced, Controller.fst_unbind,
    Controller.slot_drop, if_pos rfl]

/-- The rig houses the controller that a step touches, and the others as before. -/
theorem Orderly.houses_touch (h : w.Orderly) {p : Point} {s' : Watering}
    (ha : (w.system.actAs .worker).Advances p s') :
    s'.rig.Houses (((w.system.actAs .worker).touch p).1 :: w.bench) w.guests := by
  have hbench : (w.system.actAs .worker).rig.Houses
      ((w.system.actAs .worker).iterationHardware :: w.bench) w.guests :=
    (h.houses.perm w.live_perm).of_eq rfl rfl
  exact (hbench.house (Watering.hosts_touch hbench.hosts p)).of_eq ha.chip
    (ha.routine.1.symm.trans (Watering.faults_touch (w.system.actAs .worker) p).symm)

/-- What is lit after a step may burn at the next point. -/
theorem Orderly.within_nextPoint (h : w.Orderly) {p : Point} (hp : w.system.point? = some p)
    {r : Role} (hlit : Irrigation.lit
      (w.trace ++ (w.system.actAs .worker).marksAt p) r = true) :
    (Watering.nextPoint (w.system.actAs .worker) p).mayBurn r = true := by
  rw [lit_append] at hlit
  refine Watering.lit_nextPoint (fun hwas => ?_) hlit
  obtain ⟨q, hq, hburn⟩ := h.within r hwas
  obtain rfl := Option.some.inj (hp.symm.trans hq)
  exact hburn

theorem Orderly.worked (h : w.Orderly) (hsteady : w.Steady) (hwork : w.system.isWorking)
    (hs : w'.system = w.system.step) (ht : w'.trace = w.trace ++ w.system.marks)
    (hspares : w'.spares = w.spares) (hguests : w'.guests = w.guests) : w'.Orderly := by
  obtain ⟨p, s', hp, hover, hmarks, hstep, ha⟩ := hsteady.step hwork
  rw [hmarks] at ht
  rw [hstep] at hs
  have hpoint : w'.system.point? = some (Watering.nextPoint (w.system.actAs .worker) p) := by
    rw [hs]
    exact ha.point
  have hiteration : w'.system.iterationHardware = s'.iterationHardware := by rw [hs]; rfl
  have hreplaced : w'.system.replaced = s'.replaced := by rw [hs]; rfl
  have hhardware : w'.system.hardware = s'.hardware := by rw [hs]; rfl
  have hhoused : w'.system.rig.Houses
      (((w.system.actAs .worker).touch p).1 :: w.bench) w'.guests := by
    rw [hs, hguests]
    exact (h.houses_touch ha).of_eq rfl rfl
  have hwithin : ∀ r, Irrigation.lit w'.trace r = true →
      ∃ q, w'.system.point? = some q ∧ q.mayBurn r = true :=
    fun r hr => ⟨_, hpoint, h.within_nextPoint hp (ht ▸ hr)⟩
  have hspares' : ∀ c ∈ w'.spares, c.Quiet := by
    rw [hspares]
    exact h.spares
  cases hforgets : p.forgets with
  | true =>
    have hwas : w.system.replaced.isSome := (hsteady.settled p hp).forgets hforgets
    obtain ⟨hnone, hsame, hempty⟩ := advances_forgets ha hforgets
      ((hsteady.settled p hp).actAs .worker) (h.halved p hp hforgets)
    refine ⟨?_, ?_, ?_, hspares', hwithin, ?_⟩
    · have hlive : w'.live = w.bench := by
        rw [live, bench, hreplaced, hnone, hhardware, hsame, hspares, if_pos hwas]
        rfl
      rw [hlive]
      exact hhoused.tail hempty
    · intro r o ho hactive
      rw [hiteration, Watering.iterationHardware_eq, hnone, hsame] at ho
      rw [h.shelved hwas r o ho] at hactive
      cases hactive
    · rw [hreplaced, hnone]
      rintro ⟨⟩
    · intro q hq hqf
      obtain rfl := Option.some.inj (hpoint.symm.trans hq)
      have hnot := (Watering.forgets_nextPoint hqf).2
      rw [hforgets] at hnot
      cases hnot
  | false =>
    obtain ⟨hiter, hkept⟩ := advances_keeps ha hforgets
    obtain ⟨hsome, hsame⟩ : s'.replaced.isSome = w.system.replaced.isSome ∧
      (w.system.replaced.isSome → s'.hardware = w.system.hardware) := hkept
    have hbench' : w'.bench = w.bench := by
      rw [bench, bench, hreplaced, hsome, hhardware, hspares]
      split
      · next hr => rw [hsame hr]
      · rfl
    refine ⟨?_, ?_, ?_, hspares', hwithin, ?_⟩
    · refine hhoused.perm ?_
      rw [← hiter, ← hbench', ← hiteration]
      exact w'.live_perm.symm
    · intro r o ho hactive
      rw [hiteration, hiter] at ho
      rw [ht, lit_append]
      have hfitted : w.system.iterationHardware.Fitted :=
        (h.houses.perm w.live_perm).hosts.fitted
      exact Watering.burning_touch (s := w.system.actAs .worker) hfitted h.burning p r o ho
        hactive
    · intro hr
      rw [hreplaced, hsome] at hr
      rw [hhardware, hsame hr]
      exact h.shelved hr
    · intro q hq hqf
      obtain rfl := Option.some.inj (hpoint.symm.trans hq)
      rw [hiteration, hiter]
      exact valve_touch hqf

/-! ## The caller and third parties -/

/-- The worker and its controller stay as they are, whatever becomes of the rest. -/
theorem Orderly.furnish (h : w.Orderly) (hpoint : w'.system.point? = w.system.point?)
    (hhardware : w'.system.hardware = w.system.hardware)
    (hreplaced : w'.system.replaced = w.system.replaced) (ht : w'.trace = w.trace)
    (hspares : ∀ c ∈ w'.spares, c.Quiet)
    (hhouses : w'.system.rig.Houses w'.live w'.guests) : w'.Orderly := by
  have hiteration : w'.system.iterationHardware = w.system.iterationHardware := by
    rw [Watering.iterationHardware_eq, Watering.iterationHardware_eq, hreplaced, hhardware]
  refine ⟨hhouses, ?_, ?_, hspares, ?_, ?_⟩
  · rw [hiteration, ht]
    exact h.burning
  · rw [hreplaced, hhardware]
    exact h.shelved
  · rw [ht, hpoint]
    exact h.within
  · rw [hpoint, hiteration]
    exact h.halved

/-- Only the journal, the flags or the durations change. -/
theorem Orderly.frame (h : w.Orderly) (hpoint : w'.system.point? = w.system.point?)
    (hhardware : w'.system.hardware = w.system.hardware)
    (hreplaced : w'.system.replaced = w.system.replaced) (ht : w'.trace = w.trace)
    (hspares : w'.spares = w.spares) (hguests : w'.guests = w.guests)
    (hchip : w'.system.rig.chip = w.system.rig.chip)
    (hfaults : w'.system.rig.faults = w.system.rig.faults) : w'.Orderly := by
  refine h.furnish hpoint hhardware hreplaced ht (by rw [hspares]; exact h.spares) ?_
  rw [live, hhardware, hreplaced, hspares, hguests]
  exact h.houses.of_eq hchip hfaults

/-- When the worker is over, nothing is lit and no iteration keeps a replaced controller. -/
theorem Orderly.over (h : w.Orderly) (hsteady : w.Steady) (hover : w.system.isWorking = false) :
    (∀ r, Irrigation.lit w.trace r = false) ∧ w.system.replaced = none := by
  have hpoint : ∀ p, w.system.point? = some p → p = .ended := by
    intro p hp
    have halive := (hsteady.settled p hp).alive
    rw [Watering.isWorking, hp] at hover
    cases p <;> first | rfl | exact absurd rfl halive | cases hover
  constructor
  · intro r
    rw [Bool.eq_false_iff]
    intro hlit
    obtain ⟨p, hp, hburn⟩ := h.within r hlit
    obtain rfl := hpoint p hp
    cases hburn
  · cases hp : w.system.point? with
    | none =>
      rw [Watering.replaced, Option.map_eq_none_iff.mp hp]
      rfl
    | some p =>
      have huse := (hsteady.settled p hp).inUse
      obtain rfl := hpoint p hp
      cases hr : w.system.replaced with
      | none => rfl
      | some c =>
        rw [hr] at huse
        rcases huse rfl with hf | hf <;> cases hf

/-- A worker that is over makes way for a new one, or for none. -/
theorem Orderly.relieved (h : w.Orderly) (hsteady : w.Steady)
    (hover : w.system.isWorking = false)
    (hpoint : w'.system.point? = none ∨ w'.system.point? = some .starting)
    (hhardware : w'.system.hardware = w.system.hardware) (hreplaced : w'.system.replaced = none)
    (ht : ∀ r, Irrigation.lit w'.trace r = Irrigation.lit w.trace r)
    (hspares : w'.spares = w.spares) (hguests : w'.guests = w.guests)
    (hchip : w'.system.rig.chip = w.system.rig.chip)
    (hfaults : w'.system.rig.faults = w.system.rig.faults) : w'.Orderly := by
  obtain ⟨hdark, hnone⟩ := h.over hsteady hover
  have hiteration : w'.system.iterationHardware = w.system.iterationHardware := by
    rw [Watering.iterationHardware_eq, Watering.iterationHardware_eq, hreplaced, hnone, hhardware]
  refine ⟨?_, ?_, ?_, by rw [hspares]; exact h.spares, ?_, ?_⟩
  · rw [live, hhardware, hreplaced, ← hnone, hspares, hguests]
    exact h.houses.of_eq hchip hfaults
  · intro r o
    rw [hiteration, ht]
    exact h.burning r o
  · rw [hreplaced]
    rintro ⟨⟩
  · intro r hr
    rw [ht, hdark] at hr
    cases hr
  · intro p hp hf
    rcases hpoint with he | he
    · rw [he] at hp
      cases hp
    · rw [he] at hp
      obtain rfl := Option.some.inj hp
      cases hf

/-- The current controller is moved, and no iteration minds. -/
theorem Orderly.rebound (h : w.Orderly) (hsteady : w.Steady) (wanted : Each (Option Offset))
    (hfree : w.system.linesHeld = false) :
    Orderly { w with system := (w.system.rebind wanted).2 } := by
  have hrebind : (w.system.rebind wanted).2 = { w.system with
      hardware := (w.system.hardware.rebind wanted w.system.rig).2.1
      rig := (w.system.hardware.rebind wanted w.system.rig).2.2 } := by
    rw [Watering.rebind, Watering.awaitLines_of_free hfree]
  obtain ⟨hhosts, hcalms⟩ := Controller.hosts_rebind h.houses.hosts wanted
  rw [hrebind]
  refine ⟨h.houses.house hhosts, ?_, ?_, h.spares, h.within, ?_⟩
  · intro r o ho hactive
    rw [Watering.iterationHardware_eq] at ho
    change ((w.system.replaced.getD _).slot r).output = some o at ho
    cases hr : w.system.replaced with
    | some c =>
      rw [hr] at ho
      exact h.burning r o (by rw [Watering.iterationHardware_eq, hr]; exact ho) hactive
    | none =>
      rw [hr] at ho
      refine h.burning r o ?_ hactive
      rw [Watering.iterationHardware_eq, hr]
      exact hcalms.active r o ho hactive
  · exact fun hr => hcalms.quiet (h.shelved hr)
  · intro p hp hf
    obtain ⟨c, hc⟩ := Option.isSome_iff_exists.mp ((hsteady.settled p hp).forgets hf)
    have hvalve := h.halved p hp hf
    rw [Watering.iterationHardware_eq, hc] at hvalve
    change ((w.system.replaced.getD _).slot .valve).output = none
    rw [hc]
    exact hvalve

/-- A spare is quiet, and so are the spares that stay when it is taken. -/
theorem Orderly.quiet_spare (h : w.Orderly) {i : Nat} {c : Controller}
    (hc : w.spares[i]? = some c) : c.Quiet ∧ ∀ c' ∈ w.spares.eraseIdx i, c'.Quiet := by
  have hperm := Rig.perm_cons_eraseIdx hc
  exact ⟨h.spares c (hperm.mem_iff.mpr (.head _)),
    fun c' hc' => h.spares c' (hperm.mem_iff.mpr (.tail _ hc'))⟩

/-- A spare takes the place of a controller that an iteration uses. The iteration keeps it. -/
theorem Orderly.replaced (h : w.Orderly) {i : Nat} {c : Controller}
    (hc : w.spares[i]? = some c) (huse : w.system.hardwareInUse = true) :
    Orderly { w with system := w.system.replaceHardware c, spares := w.spares.eraseIdx i } := by
  have hperm := Rig.perm_cons_eraseIdx hc
  obtain ⟨hquiet, hspares⟩ := h.quiet_spare hc
  obtain ⟨hnew, hold, hpoint, hchip, hfaults, hnone⟩ := Watering.replaceHardware_of_use huse c
  have hiteration : (w.system.replaceHardware c).iterationHardware =
      w.system.iterationHardware := by
    rw [Watering.iterationHardware_eq, hold, Watering.iterationHardware_eq, hnone]
    rfl
  refine ⟨?_, ?_, ?_, hspares, ?_, ?_⟩
  · refine (h.houses.of_eq hchip hfaults).perm ?_
    rw [live, live, hnew, hold, hnone]
    exact (hperm.cons _).trans (.swap ..)
  · rw [hiteration]
    exact h.burning
  · rw [hnew]
    exact fun _ => hquiet
  · rw [hpoint]
    exact h.within
  · rw [hpoint, hiteration]
    exact h.halved

/-- A spare takes the place of a controller that no iteration uses. That one gives up its lines
at once. -/
theorem Orderly.exchanged (h : w.Orderly) (hsteady : w.Steady) {i : Nat} {c : Controller}
    (hc : w.spares[i]? = some c) (huse : w.system.hardwareInUse = false)
    (hfree : w.system.linesHeld = false) :
    Orderly { w with system := w.system.replaceHardware c, spares := w.spares.eraseIdx i } := by
  have hperm := Rig.perm_cons_eraseIdx hc
  obtain ⟨hquiet, hspares⟩ := h.quiet_spare hc
  have hreplace : w.system.replaceHardware c = { w.system with
      rig := log .info "Watering: hardware controller replaced"
        (w.system.hardware.release w.system.rig).2
      hardware := c } := by
    rw [Watering.replaceHardware, if_neg (by rw [huse]; exact Bool.false_ne_true),
      Watering.awaitLines_of_free hfree]
    rfl
  have hhoused : (w.system.hardware.release w.system.rig).2.Houses
      (c :: (w.system.replaced.toList ++ w.spares.eraseIdx i)) w.guests :=
    h.houses.release.perm ((hperm.append_left _).trans List.perm_middle)
  rw [hreplace]
  refine ⟨hhoused.of_eq rfl rfl, ?_, fun _ => hquiet, hspares, h.within, ?_⟩
  · intro r o ho hactive
    change ((w.system.replaced.getD c).slot r).output = some o at ho
    cases hr : w.system.replaced with
    | some c' =>
      rw [hr] at ho
      exact h.burning r o (by rw [Watering.iterationHardware_eq, hr]; exact ho) hactive
    | none =>
      rw [hr] at ho
      rw [hquiet r o ho] at hactive
      cases hactive
  · intro p hp hf
    obtain ⟨c', hc'⟩ := Option.isSome_iff_exists.mp ((hsteady.settled p hp).forgets hf)
    have hvalve := h.halved p hp hf
    rw [Watering.iterationHardware_eq, hc'] at hvalve
    change ((w.system.replaced.getD c).slot .valve).output = none
    rw [hc']
    exact hvalve

theorem houses_guest {r : Rig} {live : List Controller} {guests : List Output}
    (h : r.Houses live guests) (g : GuestMove) :
    (g.apply (r, guests)).1.Houses live (g.apply (r, guests)).2 := by
  have hs := h.serves.perm List.perm_append_comm
  suffices hserves : (g.apply (r, guests)).1.Serves
      ((g.apply (r, guests)).2 ++ live.flatMap Controller.outputs) from
    ⟨hserves.perm List.perm_append_comm, h.fitted⟩
  cases g with
  | request who n d p =>
    simp only [GuestMove.apply]
    rcases hq : r.request who n d p with ⟨e | o, r'⟩
    · obtain rfl := Rig.request_error hq
      exact hs
    · exact (hs.request hq).2
  | drive i on =>
    simp only [GuestMove.apply]
    cases ho : guests[i]? with
    | none => exact hs
    | some o =>
      have hdriven := (hs.perm ((Rig.perm_cons_eraseIdx ho).append_right _)).drive on
      exact hdriven.perm ((Rig.set_perm_cons_eraseIdx ho _).symm.append_right _)
  | release offsets =>
    simp only [GuestMove.apply]
    split
    · next howned =>
      rcases hrel : r.release offsets with ⟨_ | _, r'⟩
      · obtain rfl := Rig.release_refused hrel
        exact hs
      · have hreleased := h.serves.releaseSome (fun n hn => by
          have := List.all_eq_true.mp howned n hn
          simpa using this) hrel
        exact hreleased.perm List.perm_append_comm
    · exact hs

/-! ## The invariant -/

theorem Orderly.called (h : w.Orderly) (hsteady : w.Steady) {c : Call}
    (hc : w.call c = some w') : w'.Orderly := by
  cases c with
  | start flow =>
    obtain rfl := Option.some.inj hc
    cases hrefusal : w.system.refusal? flow with
    | none =>
      obtain ⟨hidle, hstart⟩ := hsteady.start_eq hrefusal
      refine h.relieved hsteady (hsteady.not_working hidle) ?_ ?_ ?_ ?_ rfl rfl ?_ ?_
      · rw [hstart]
        exact .inr rfl
      · rw [hstart]
      · rw [hstart]
        rfl
      · intro r
        split
        · rw [lit_append]
          rfl
        · rfl
      · rw [hstart]
        rfl
      · rw [hstart]
        rfl
    | some reason =>
      have hstart : w.system.start flow = (false, w.system.report .warn reason) := by
        rw [Watering.start, hrefusal]
      rw [hstart]
      exact h.frame rfl rfl rfl rfl rfl rfl rfl rfl
  | askStop origin =>
    obtain ⟨-, rfl⟩ | ⟨hjob, rfl⟩ := call_askStop hc
    · exact h.frame rfl rfl rfl rfl rfl rfl rfl rfl
    · rw [hsteady.declineStop_eq]
      refine h.relieved hsteady (hsteady.not_working_of_no_job hjob) (.inl rfl) rfl rfl
        (fun _ => rfl) rfl rfl ?_ ?_
      · simp only
        split <;> rfl
      · simp only
        split <;> rfl
  | enable role on =>
    obtain rfl := Option.some.inj hc
    exact h.frame rfl rfl rfl rfl rfl rfl rfl rfl
  | setDuration i ms =>
    obtain rfl := Option.some.inj hc
    exact h.frame rfl rfl rfl rfl rfl rfl rfl rfl
  | replaceTiming t =>
    obtain rfl := Option.some.inj hc
    have hs := Watering.sameJob_replaceTiming (s := w.system) t
    refine h.frame hs.point ?_ ?_ rfl rfl rfl ?_ hs.routine.faults
    · rw [Watering.replaceTiming]
      split <;> rfl
    · rw [Watering.replaceTiming]
      split
      · simp only [log, record, Watering.replaced, Option.bind_map, Function.comp_def]
      · rfl
    · rw [Watering.replaceTiming]
      split <;> rfl
  | rebind wanted =>
    obtain ⟨hfree, rfl⟩ := call_rebind hc
    exact h.rebound hsteady wanted hfree
  | build pins =>
    simp only [call] at hc
    rcases hwire : Controller.wire pins w.system.rig with ⟨e | c, rig⟩ <;> rw [hwire] at hc <;>
      obtain rfl := Option.some.inj hc
    · exact h.furnish rfl rfl rfl rfl h.spares (h.houses.wire_error hwire)
    · obtain ⟨hhoused, hquiet⟩ := h.houses.wire hwire
      refine h.furnish rfl rfl rfl rfl ?_ (hhoused.perm ?_)
      · intro c' hc'
        rcases List.mem_cons.mp hc' with rfl | hc'
        · exact hquiet
        · exact h.spares c' hc'
      · have hmiddle : (w.system.hardware :: w.system.replaced.toList ++ c :: w.spares).Perm
            (c :: w.live) := List.perm_middle
        exact hmiddle.symm
  | install i =>
    obtain ⟨c, hspare, hwait, rfl⟩ := call_install hc
    cases huse : w.system.hardwareInUse with
    | true => exact h.replaced hspare huse
    | false =>
      exact h.exchanged hsteady hspare huse (hwait.resolve_left (by rw [huse]; rintro ⟨⟩))
  | discard i =>
    obtain ⟨c, hspare, rfl⟩ := call_discard hc
    have hperm := Rig.perm_cons_eraseIdx hspare
    refine h.furnish rfl rfl rfl rfl (h.quiet_spare hspare).2 ?_
    refine Rig.Houses.release (h.houses.perm ?_)
    exact (hperm.append_left (w.system.hardware :: w.system.replaced.toList)).trans
      List.perm_middle
  | closeChip =>
    obtain rfl := Option.some.inj hc
    exact h.furnish rfl rfl rfl rfl h.spares h.houses.close
  | say e =>
    obtain ⟨-, rfl⟩ := call_say hc
    exact h.frame rfl rfl rfl rfl rfl rfl rfl rfl

theorem Orderly.next (h : w.Orderly) (hsteady : w.Steady) {m : Move} (hm : w.next m = some w') :
    w'.Orderly := by
  cases m with
  | work =>
    obtain ⟨hwork, rfl⟩ := next_work hm
    exact h.worked hsteady hwork rfl rfl rfl rfl
  | call c => exact h.called hsteady (next_call hm).2
  | raiseStop =>
    obtain ⟨origin, -, rfl⟩ := next_raiseStop hm
    refine h.frame ?_ rfl ?_ rfl rfl rfl rfl rfl
    · simp only [Watering.raiseStop, Watering.point?, Option.map_map, Function.comp_def]
    · simp only [Watering.raiseStop, Watering.replaced, Option.bind_map, Function.comp_def]
  | joinWorker =>
    obtain ⟨origin, -, hover, rfl⟩ := next_joinWorker hm
    rw [hsteady.concludeStop_eq]
    exact h.relieved hsteady hover (.inl rfl) rfl rfl (fun _ => rfl) rfl rfl rfl rfl
  | guest g =>
    obtain rfl := Option.some.inj hm
    exact h.furnish rfl rfl rfl rfl h.spares (houses_guest h.houses g)

/-- An opened chip serves nobody yet. -/
theorem serves_openChip (path : String) (lines : Nat) : (Rig.openChip path lines).Serves [] where
  nodup := .nil
  hasLine _ ho := absurd ho List.not_mem_nil
  level _ ho := absurd ho List.not_mem_nil
  claimed := by
    intro _ n
    constructor
    · rintro ⟨⟩
    · rintro ⟨⟩
  obeys := rfl

theorem houses_guests (before : List GuestMove) :
    ∀ (r : Rig) (held : List Output), r.Houses [] held →
      (before.foldl (fun x g => g.apply x) (r, held)).1.Houses []
        (before.foldl (fun x g => g.apply x) (r, held)).2 := by
  induction before with
  | nil => exact fun _ _ h => h
  | cons g rest ih => exact fun r held h => ih _ _ (houses_guest h g)

theorem Reachable.orderly (h : w.Reachable) : w.Orderly := by
  induction h with
  | @wired path lines pins timing enabled s before rig guests hbefore hwired =>
    obtain ⟨rig', hwire, hroutine, hchip, hs⟩ := wire_eq_ok hwired
    have hguests := houses_guests before (Rig.openChip path lines) []
      ⟨serves_openChip path lines, fun _ hc => absurd hc List.not_mem_nil⟩
    rw [hbefore] at hguests
    obtain ⟨hhoused, hquiet⟩ := hguests.wire hwire
    have hrun : s.run = none := by rw [hs]
    have hreplaced : s.replaced = none := by rw [Watering.replaced, hrun]; rfl
    have hpoint : s.point? = none := by rw [Watering.point?, hrun]; rfl
    refine ⟨?_, ?_, ?_, fun _ hc => absurd hc List.not_mem_nil,
      fun _ hr => absurd hr Bool.false_ne_true, ?_⟩
    · rw [live, hreplaced]
      exact hhoused.of_eq hchip hroutine.faults
    · intro r o ho hactive
      rw [Watering.iterationHardware_eq, hreplaced] at ho
      rw [hquiet r o ho] at hactive
      cases hactive
    · rw [hreplaced]
      rintro ⟨⟩
    · rw [hpoint]
      rintro _ ⟨⟩
  | move hw hm ih => exact ih.next hw.steady hm

/-! ## What follows -/

/-- A device can only burn while its job waters or idles. -/
theorem phase_of_mayBurn {p : Point} {r : Role} (h : p.mayBurn r = true) :
    p.phase = .watering ∨ p.phase = .idling := by
  cases p <;> first | exact .inl rfl | exact .inr rfl | cases h

/-- Nothing burns while no job is running, at the head of an iteration, while the worker rests,
and while the job is torn down or disabled. -/
theorem Orderly.dark (h : w.Orderly) (hsteady : w.Steady)
    (hw : w.system.running = false ∨ w.system.point? = some .loopHead ∨
      (∃ ms, w.system.point? = some (.resting ms)) ∨ w.system.state = .tearingDown ∨
      w.system.state = .disabled) (r : Role) : Irrigation.lit w.trace r = false := by
  rw [Bool.eq_false_iff]
  intro hlit
  obtain ⟨p, hp, hburn⟩ := h.within r hlit
  have hsettled := hsteady.settled p hp
  rcases hw with hidle | hhead | ⟨ms, hrest⟩ | hstate
  · rw [(h.over hsteady (hsteady.not_working hidle)).1 r] at hlit
    cases hlit
  · obtain rfl := Option.some.inj (hhead.symm.trans hp)
    cases hburn
  · obtain rfl := Option.some.inj (hrest.symm.trans hp)
    cases hburn
  · have hallows := hsettled.state
    rcases phase_of_mayBurn hburn with he | he <;> rw [he] at hallows <;>
      rcases hstate with hs | hs <;> rw [hs] at hallows <;> cases hallows

/-- An output that is on belongs to the controller of the iteration. -/
theorem Orderly.iteration_of_active (h : w.Orderly) {c : Controller} (hc : c ∈ w.live)
    {role : Role} {o : Output} (ho : (c.slot role).output = some o) (hactive : o.active = true) :
    c = w.system.iterationHardware := by
  have hloud : ¬ c.Quiet := fun hq => by
    rw [hq role o ho] at hactive
    cases hactive
  rw [Watering.iterationHardware_eq]
  rcases List.mem_cons.mp hc with rfl | hc
  · cases hr : w.system.replaced with
    | some c' => exact absurd (h.shelved (by rw [hr]; rfl)) hloud
    | none => rfl
  · rcases List.mem_append.mp hc with hc | hc
    · rw [Option.mem_toList.mp hc]
      rfl
    · exact absurd (h.spares c hc) hloud

/-- Any controller that is alive, apart from the others. -/
theorem Orderly.hosts (h : w.Orderly) {c : Controller} (hc : c ∈ w.live) :
    ∃ others, w.system.rig.Hosts c others := by
  obtain ⟨i, hi⟩ := List.mem_iff_getElem?.mp hc
  exact ⟨_, (h.houses.perm (Rig.perm_cons_eraseIdx hi)).hosts⟩

/-- The line of an output is at the level of the output's state. -/
theorem Orderly.level (h : w.Orderly) {c : Controller} (hc : c ∈ w.live) {role : Role}
    {o : Output} (ho : (c.slot role).output = some o) :
    w.system.rig.chip.level? o.offset = some ((c.slot role).polarity.level o.active) := by
  obtain ⟨others, hhosts⟩ := h.hosts hc
  obtain ⟨-, hdir, hpol⟩ := hhosts.fitted role o ho
  rw [← hpol]
  exact hhosts.serves.level o
    (List.mem_append_left _ (Controller.mem_outputs.mpr ⟨role, ho⟩)) hdir

/-- When nothing burns, every output is off. -/
theorem Orderly.off (h : w.Orderly) (hdark : ∀ role, Irrigation.lit w.trace role = false)
    {c : Controller} (hc : c ∈ w.live) {role : Role} {o : Output}
    (ho : (c.slot role).output = some o) : o.active = false := by
  rw [Bool.eq_false_iff]
  intro hactive
  obtain rfl := h.iteration_of_active hc ho hactive
  have hlit := h.burning role o ho hactive
  rw [hdark] at hlit
  cases hlit

/-- What it means that a world leaves no output on. -/
structure LeavesNoneOn (w : World) : Prop where
  /-- The line of an output is at the level of its state. -/
  level : ∀ c ∈ w.live, ∀ role o, (c.slot role).output = some o →
    w.system.rig.chip.level? o.offset = some ((c.slot role).polarity.level o.active)
  /-- An output that is on belongs to the iteration's controller, and to a device that the
  iteration switched on and did not yet try to switch off. -/
  burning : ∀ c ∈ w.live, ∀ role o, (c.slot role).output = some o → o.active = true →
    c = w.system.iterationHardware ∧ lit w.trace role = true
  /-- When the iteration is done with its devices, everything is off. -/
  off : (∀ role, lit w.trace role = false) →
    ∀ c ∈ w.live, ∀ role o, (c.slot role).output = some o → o.active = false ∧
      w.system.rig.chip.level? o.offset = some ((c.slot role).polarity.level false)
  /-- It is when no job runs, at the head of an iteration, in the deactivation wait, and when the
  job is torn down or disabled. -/
  dark : (w.system.running = false ∨ w.system.point? = some .loopHead ∨
      (∃ ms, w.system.point? = some (.resting ms)) ∨ w.system.state = .tearingDown ∨
      w.system.state = .disabled) → ∀ role, lit w.trace role = false
  /-- A move, successful or not, gives back the lines of the roles that let go and those acquired
  in vain, each at the inactive level of its role. -/
  moved : ∀ c ∈ w.live, ∀ (a : Audit) (wanted : Each (Option Offset)), a.rig = w.system.rig →
    (c.rebind wanted a).2.2.rig = (c.rebind wanted w.system.rig).2.2 ∧
      ∃ gone given : List Role, (c.rebind wanted a).2.2.released =
        a.released ++ gone.map (c.inactiveAt c.line) ++
          given.map (c.inactiveAt (c.targets wanted).get)
  /-- So does a controller that lets go of one role, whoever makes it do so. -/
  letGo : ∀ c ∈ w.live, ∀ (a : Audit) (actor : Actor) (role : Role),
    a.rig = { w.system.rig with actor } →
    (c.unbind role a).2.rig = (c.unbind role { w.system.rig with actor }).2 ∧
      (c.unbind role a).2.released =
        a.released ++ if (c.slot role).isBound then [c.inactiveAt c.line role] else []
  /-- So does a controller that is given up. -/
  dropped : ∀ c ∈ w.live, ∀ a : Audit, a.rig = w.system.rig →
    (c.release a).2.rig = (c.release w.system.rig).2 ∧
      ∃ gone : List Role,
        (c.release a).2.released = a.released ++ gone.map (c.inactiveAt c.line)
  /-- So does a controller that cannot be built. -/
  unbuilt : ∀ (a : Audit) (pins : Each Pin), a.rig = w.system.rig →
    (Controller.wire pins a).2.rig = (Controller.wire pins w.system.rig).2 ∧
      ((Controller.wire pins a).2.released = a.released ∨
        (Controller.wire pins a).2.released = a.released ++
          [(pins.valve.offset, some (pins.valve.polarity.level false))])

/-- **No output is left on**, in any reachable world. -/
theorem no_output_left_on (h : w.Reachable) : w.LeavesNoneOn where
  level := fun c hc role o ho => h.orderly.level hc ho
  burning := by
    intro c hc role o ho hactive
    obtain rfl := h.orderly.iteration_of_active hc ho hactive
    exact ⟨rfl, h.orderly.burning role o ho hactive⟩
  off := by
    intro hdark c hc role o ho
    have hoff := h.orderly.off hdark hc ho
    refine ⟨hoff, ?_⟩
    rw [h.orderly.level hc ho, hoff]
  dark := h.orderly.dark h.steady
  moved := by
    intro c hc a wanted ha
    obtain ⟨others, hhosts⟩ := h.orderly.hosts hc
    rw [← ha] at hhosts ⊢
    refine ⟨?_, Controller.released_rebind hhosts wanted⟩
    exact congrArg (fun x => x.2.2) (Audit.carries_rig.rebind c wanted a).symm
  letGo := by
    intro c hc a actor role ha
    obtain ⟨others, hhosts⟩ := h.orderly.hosts hc
    have hhosts : a.rig.Hosts c others := by
      rw [ha]
      exact hhosts.of_eq rfl rfl
    rw [← ha]
    refine ⟨?_, Controller.released_unbind hhosts role⟩
    exact congrArg (fun x => x.2) (Audit.carries_rig.unbind c role a).symm
  dropped := by
    intro c hc a ha
    obtain ⟨others, hhosts⟩ := h.orderly.hosts hc
    rw [← ha] at hhosts ⊢
    refine ⟨?_, Controller.released_release hhosts⟩
    exact congrArg (fun x => x.2) (Audit.carries_rig.unbindAll Role.all c a).symm
  unbuilt := by
    intro a pins ha
    have hserves := h.orderly.houses.serves
    rw [← ha] at hserves ⊢
    refine ⟨?_, Controller.released_wire hserves pins⟩
    exact congrArg (fun x => x.2) (Audit.carries_rig.wire pins a).symm

/-- The controller is replaced while its valve is open, and the new one is moved. -/
theorem none_left_on_while_replaced : ∃ w : World,
    after ⟨⟨17, .activeHigh⟩, ⟨27, .activeLow⟩⟩
      (.call (.build ⟨⟨5, .activeHigh⟩, ⟨6, .activeHigh⟩⟩) :: .call (.start none) ::
        List.replicate 10 .work ++
          [.call (.install 0), .work, .call (.rebind ⟨some 7, none⟩)]) = some w ∧
    (w.system.replaced.isSome && lit w.trace .valve) = true ∧ w.LeavesNoneOn := by
  obtain ⟨w, hw, hfacts⟩ := (Option.any_eq_true
    (fun w : World => w.system.replaced.isSome && lit w.trace .valve) _).mp
    (show Option.any _ (after ⟨⟨17, .activeHigh⟩, ⟨27, .activeLow⟩⟩
      (.call (.build ⟨⟨5, .activeHigh⟩, ⟨6, .activeHigh⟩⟩) :: .call (.start none) ::
        List.replicate 10 .work ++
          [.call (.install 0), .work, .call (.rebind ⟨some 7, none⟩)])) = true by rfl)
  exact ⟨w, hw, hfacts, no_output_left_on (reachable_of_after hw)⟩

end World

end Irrigation
