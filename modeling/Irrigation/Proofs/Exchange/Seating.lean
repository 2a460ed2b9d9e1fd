import Irrigation.Proofs.Exchange.Standing

/-!
# Trades

A trade that concerns references changes who refers to what, and then the system gets what the
numbers say (`Exchange.Reseats`). What can come of a trade is said once (`Exchange.Outcome`), and
`Sound.trade` says that all of it is of this form, drops included. With the steps of the worker and
the moves of those who refer to nothing it follows that every reachable exchange is sound
(`Exchange.Reachable.sound`).
-/

namespace Irrigation

namespace Exchange

variable {x y : Exchange}

/-! ## Those who refer to nothing -/

/-- A worker that is over refers to nothing. -/
theorem Sound.unused_of_over (h : x.Sound) (hover : x.world.system.isWorking = false) :
    x.usedHardware = none ∧ x.usedTiming = none :=
  h.unused_outside fun _ => Watering.outside_of_over hover

theorem Sound.plain (h : x.Sound) {m : Move} {w : World} (hplain : m.isPlain = true)
    (hm : x.world.next m = some w) : Sound { x with world := w } := by
  obtain ⟨hhardware, htiming, hhouses, -, hworker⟩ := h.steady.bystands hplain hm
  obtain ⟨hpoint, hreplaced, hown⟩ | ⟨hover, hreplaced, hown, hpoint⟩ := hworker
  · exact {
      steady := h.steady.next hm
      hardware := hhardware ▸ h.hardware
      timing := htiming ▸ h.timing
      replaced := hreplaced.trans h.replaced
      ownTiming := hown.trans h.ownTiming
      usesHardware := hpoint ▸ h.usesHardware
      usesTiming := hpoint ▸ h.usesTiming
      madeHardware := h.madeHardware
      madeTiming := h.madeTiming
      madeKept := h.madeKept
      houses := hhouses _ h.houses
      halved := fun p hp => h.halved p (hpoint ▸ hp)
      gone := h.gone }
  · obtain ⟨hnone, hnone'⟩ := h.unused_of_over hover
    have huses : (w.system.point?.map Point.usesHardware).getD false = false ∧
        (w.system.point?.map Point.usesTiming).getD false = false := by
      rcases hpoint with hp | hp <;> rw [hp] <;> exact ⟨rfl, rfl⟩
    exact {
      steady := h.steady.next hm
      hardware := hhardware ▸ h.hardware
      timing := htiming ▸ h.timing
      replaced := hreplaced.trans (supplanted_of_not_used (.inl hnone)).symm
      ownTiming := hown.trans (supplanted_of_not_used (.inl hnone')).symm
      usesHardware := by rw [huses.1, hnone]; rfl
      usesTiming := by rw [huses.2, hnone']; rfl
      madeHardware := h.madeHardware
      madeTiming := h.madeTiming
      madeKept := h.madeKept
      houses := hhouses _ h.houses
      halved := by
        intro p hp hforgets
        rcases hpoint with he | he <;> rw [he] at hp
        · cases hp
        · obtain rfl := Option.some.inj hp
          cases hforgets
      gone := h.gone }

/-! ## Trades -/

/-- A trade has changed what is referred to, and the rig. What the worker refers to stays, and what
it has given up half stays as it is. -/
structure Reseats (x : Exchange) (rig : Rig) (y : Exchange) : Prop where
  world : y.world = { x.world with system := { x.world.system with rig } }
  routine : x.world.system.rig.Routine rig
  usedHardware : y.usedHardware = x.usedHardware
  usedTiming : y.usedTiming = x.usedTiming
  hardware : y.hardware < y.controllers.length
  timing : y.timing < y.timings.length
  madeHardware : x.controllers.length ≤ y.controllers.length
  madeTiming : x.timings.length ≤ y.timings.length
  madeKept : ∀ k ∈ y.kept, k < y.controllers.length
  houses : rig.Houses y.controllers x.world.guests
  halved : ∀ p, x.world.system.point? = some p → p.forgets = true →
    ∀ k, x.usedHardware = some k →
      k ≠ y.hardware ∧ k ∉ y.kept ∧ y.controllers[k]? = x.controllers[k]?

/-- Controllers to which nobody refers hold nothing, but for those in some list. -/
def CleanBut (some : List Nat) (x : Exchange) : Prop :=
  ∀ k c, k ∉ some → x.controllers[k]? = .some c → x.refersTo k = false → c.outputs = []

/-- A controller that is half given up is neither in force nor kept. -/
theorem Sound.halved_alone (h : x.Sound) {p : Point} (hp : x.world.system.point? = some p)
    (hforgets : p.forgets = true) {k : Nat} (hused : x.usedHardware = some k) :
    k ≠ x.hardware ∧ k ∉ x.kept := by
  obtain ⟨c, hc⟩ := Option.isSome_iff_exists.mp ((h.steady.settled p hp).forgets hforgets)
  obtain ⟨k', hk', hne, hc'⟩ := supplanted_eq_some (h.replaced ▸ hc)
  obtain rfl : k' = k := Option.some.inj (hk'.symm.trans hused)
  exact ⟨hne, (h.halved p hp hforgets k' c hused hc').1⟩

/-- Nothing but the rig changes. -/
theorem Sound.reseats (h : x.Sound) {rig : Rig} (hroutine : x.world.system.rig.Routine rig)
    (hhouses : rig.Houses x.controllers x.world.guests) : x.Reseats rig (x.withRig rig) :=
  ⟨rfl, hroutine, rfl, rfl, h.in_force.1, h.in_force.2, Nat.le_refl _, Nat.le_refl _, h.madeKept,
    hhouses, fun _ hp hforgets _ hused =>
      ⟨(h.halved_alone hp hforgets hused).1, (h.halved_alone hp hforgets hused).2, rfl⟩⟩

theorem seat_point (y : Exchange) : y.seat.world.system.point? = y.world.system.point? := by
  simp only [seat, Watering.point?, Option.map_map, Function.comp_def]

theorem seat_stopPending (y : Exchange) :
    y.seat.world.system.stopPending = y.world.system.stopPending := by
  simp only [seat, Watering.stopPending, Option.map_map, Function.comp_def]

theorem seat_replaced (y : Exchange) : y.seat.world.system.replaced =
    y.world.system.run.bind fun _ => y.replaced? := by
  simp only [seat, Watering.replaced, Option.bind_map, Function.comp_def]

theorem seat_ownTiming (y : Exchange) : y.seat.world.system.ownTiming =
    y.world.system.run.bind fun _ => y.ownTiming? := by
  simp only [seat, Watering.ownTiming, Option.bind_map, Function.comp_def]

/-- What is bound to a worker that is there. -/
theorem bind_of_used {α : Type} {s : Watering} {a : Option α} (h : s.run = none → a = none) :
    (s.run.bind fun _ => a) = a := by
  cases hrun : s.run with
  | some worker => rfl
  | none => exact (h hrun).symm

section Seat

variable {rig : Rig}

theorem Reseats.point (ht : x.Reseats rig y) :
    y.seat.world.system.point? = x.world.system.point? := by
  rw [seat_point, ht.world]
  rfl

/-- Without a worker nothing is used. -/
theorem Sound.unused (h : x.Sound) (hrun : x.world.system.run = none) :
    x.usedHardware = none ∧ x.usedTiming = none :=
  h.unused_of_over (by rw [Watering.isWorking, Watering.point?, hrun]; rfl)

theorem Sound.reseated_replaced (h : x.Sound) (ht : x.Reseats rig y) :
    y.seat.world.system.replaced = y.replaced? := by
  rw [seat_replaced, ht.world]
  exact bind_of_used fun hrun =>
    supplanted_of_not_used (.inl (ht.usedHardware.trans (h.unused hrun).1))

theorem Sound.reseated_ownTiming (h : x.Sound) (ht : x.Reseats rig y) :
    y.seat.world.system.ownTiming = y.ownTiming? := by
  rw [seat_ownTiming, ht.world]
  exact bind_of_used fun hrun =>
    supplanted_of_not_used (.inl (ht.usedTiming.trans (h.unused hrun).2))

theorem Reseats.rig_eq (ht : x.Reseats rig y) : y.seat.world.system.rig = rig := by
  change y.world.system.rig = rig
  rw [ht.world]

theorem Sound.reseated_steady (h : x.Sound) (ht : x.Reseats rig y) : y.seat.world.Steady := by
  refine ⟨?_, ?_, ?_, ?_, fun p hp => ?_⟩
  · rw [ht.rig_eq, ht.routine.actor]
    exact h.steady.actor
  · rw [ht.rig_eq, ht.routine.faults]
    exact h.steady.faults
  · rw [seat_stopPending]
    change _ ↔ ∃ origin, y.world.caller = .waiting origin
    rw [ht.world]
    exact h.steady.stop
  · rw [ht.point]
    change _ → y.world.caller = _ ∧ y.world.system.running = _ ∧ y.world.system.state = _
    rw [ht.world]
    exact h.steady.alone
  · rw [ht.point] at hp
    obtain ⟨halive, hrunning, hstate, -, -⟩ := h.steady.settled p hp
    have hused := h.usesHardware_at hp
    refine ⟨halive, ?_, ?_, fun hsome => ?_, fun hforgets => ?_⟩
    · change y.world.system.running = _
      rw [ht.world]
      exact hrunning
    · change p.phase.Allows y.world.system.cycles y.world.system.state
      rw [ht.world]
      exact hstate
    · rw [h.reseated_replaced ht] at hsome
      obtain ⟨c, hc⟩ := Option.isSome_iff_exists.mp hsome
      obtain ⟨k, hk, -⟩ := supplanted_eq_some hc
      rw [← ht.usedHardware, hk] at hused
      exact (Bool.or_eq_true ..).mp hused.symm
    · have huses : p.usesHardware = true := by rw [Point.usesHardware, hforgets, Bool.or_true]
      rw [huses] at hused
      obtain ⟨k, hk⟩ := Option.isSome_iff_exists.mp hused
      have hmade := Nat.lt_of_lt_of_le (h.madeHardware k hk) ht.madeHardware
      rw [h.reseated_replaced ht, replaced?, supplanted_of_used (ht.usedHardware.trans hk)
        (ht.halved p hp hforgets k hk).1, List.getElem?_eq_getElem hmade]
      rfl

/-- **A trade keeps an exchange sound** when the system gets what the numbers say. -/
theorem Sound.seat (h : x.Sound) (ht : x.Reseats rig y) (hclean : CleanBut [] y) :
    y.seat.Sound where
  steady := h.reseated_steady ht
  hardware := by
    change y.controllers[y.hardware]? = some (y.controllers[y.hardware]?.getD _)
    rw [List.getElem?_eq_getElem ht.hardware]
    rfl
  timing := by
    change y.timings[y.timing]? = some (y.timings[y.timing]?.getD _)
    rw [List.getElem?_eq_getElem ht.timing]
    rfl
  replaced := h.reseated_replaced ht
  ownTiming := h.reseated_ownTiming ht
  usesHardware := by
    rw [ht.point, ← h.usesHardware, ← ht.usedHardware]
    rfl
  usesTiming := by
    rw [ht.point, ← h.usesTiming, ← ht.usedTiming]
    rfl
  madeHardware := fun k hk =>
    Nat.lt_of_lt_of_le (h.madeHardware k (ht.usedHardware ▸ hk)) ht.madeHardware
  madeTiming := fun n hn =>
    Nat.lt_of_lt_of_le (h.madeTiming n (ht.usedTiming ▸ hn)) ht.madeTiming
  madeKept := ht.madeKept
  houses := by
    rw [ht.rig_eq]
    change rig.Houses y.controllers y.world.guests
    rw [ht.world]
    exact ht.houses
  halved := by
    intro p hp hforgets k c hused hc
    rw [ht.point] at hp
    have hused : x.usedHardware = some k := ht.usedHardware ▸ hused
    obtain ⟨-, hkept, hsame⟩ := ht.halved p hp hforgets k hused
    exact ⟨hkept, (h.halved p hp hforgets k c hused (hsame ▸ hc)).2⟩
  gone := fun k c => hclean k c List.not_mem_nil

end Seat

/-! ### What comes of a trade -/

/-- What comes of a trade of references, but for what the system has. -/
inductive Outcome (x : Exchange) : Trade → Exchange → Prop
  | unbuilt {pins : Each Pin} {e : _} {rig : Rig}
      (wire : Controller.wire pins x.world.system.rig = (.error e, rig)) :
      Outcome x (.build pins) (x.withRig rig)
  | built {pins : Each Pin} {c : Controller} {rig : Rig}
      (wire : Controller.wire pins x.world.system.rig = (.ok c, rig)) :
      Outcome x (.build pins) { x.withRig rig with
        controllers := x.controllers ++ [c], kept := x.controllers.length :: x.kept }
  | keep : Outcome x .keep { x with kept := x.hardware :: x.kept }
  | forget {k : Nat} {y : Exchange} (kept : k ∈ x.kept)
      (drop : { x with kept := x.kept.erase k }.drop k = some y) : Outcome x (.forget k) y
  | install {k : Nat} {z : Exchange} (kept : k ∈ x.kept)
      (drop : (x.putHardware k).drop x.hardware = some z) :
      Outcome x (.install k) (z.announces "hardware controller")
  | rebind {k : Nat} {wanted : Each (Option Offset)} {c : Controller}
      (refers : k = x.hardware ∨ k ∈ x.kept) (free : x.world.system.linesHeld = false)
      (made : x.controllers[k]? = some c) :
      Outcome x (.rebind k wanted) { x.withRig (c.rebind wanted x.world.system.rig).2.2 with
        controllers := x.controllers.set k (c.rebind wanted x.world.system.rig).2.1 }
  | supply (t : Timing) : Outcome x (.supply t) { x with
      timings := x.timings ++ [t], log := x.log ++ [.supplied x.timings.length t] }
  | choose {n : Nat} (made : n < x.timings.length) :
      Outcome x (.choose n) ((x.putTiming n).announces "time provider")
  | adjust {n : Nat} {i : Interval} {ms : UInt64} {t : Timing} (made : x.timings[n]? = some t) :
      Outcome x (.adjust n i ms) { x with
        timings := x.timings.set n (t.set i ms), log := x.log ++ [.adjusted n i ms] }

theorem trade_outcome {t : Trade} (hy : x.trade t = some y) : x.Outcome t y := by
  cases t with
  | work => cases hy
  | plain m => cases hy
  | build pins =>
    simp only [Exchange.trade] at hy
    rcases hwire : Controller.wire pins x.world.system.rig with ⟨e | c, rig⟩ <;>
      rw [hwire] at hy <;> obtain rfl := Option.some.inj hy
    · exact .unbuilt hwire
    · exact .built hwire
  | keep =>
    obtain rfl := Option.some.inj hy
    exact .keep
  | forget k =>
    simp only [Exchange.trade] at hy
    split at hy
    · next hkept => exact .forget (List.contains_iff_mem.mp hkept) hy
    · cases hy
  | install k =>
    simp only [Exchange.trade] at hy
    split at hy
    · next hkept =>
      obtain ⟨z, hz, rfl⟩ := Option.map_eq_some_iff.mp hy
      exact .install (List.contains_iff_mem.mp hkept) hz
    · cases hy
  | rebind k wanted =>
    simp only [Exchange.trade] at hy
    split at hy
    · next hmay =>
      obtain ⟨c, hc, rfl⟩ := Option.map_eq_some_iff.mp hy
      rw [Bool.and_eq_true, Bool.not_eq_true', Bool.or_eq_true, beq_iff_eq,
        List.contains_iff_mem] at hmay
      exact .rebind hmay.1 hmay.2 hc
    · cases hy
  | supply t =>
    obtain rfl := Option.some.inj hy
    exact .supply t
  | choose n =>
    simp only [Exchange.trade] at hy
    split at hy
    · next hn =>
      obtain rfl := Option.some.inj hy
      exact .choose hn
    · cases hy
  | adjust n i ms =>
    obtain ⟨t, ht, rfl⟩ := Option.map_eq_some_iff.mp hy
    exact .adjust ht

/-! ### Every trade is such a trade -/

/-- A drop does nothing, or the controller gives up its lines. -/
theorem drop_cases {k : Nat} (hy : x.drop k = some y) :
    (x.refersTo k = true ∧ y = x) ∨
      (x.refersTo k = false ∧ x.world.system.linesHeld = false ∧ ∃ c, x.controllers[k]? = some c ∧
        y = { x.withRig (c.release x.world.system.rig).2 with
          controllers := x.controllers.set k (c.release x.world.system.rig).1 }) := by
  unfold drop at hy
  split at hy
  · next hrefers => exact .inl ⟨hrefers, (Option.some.inj hy).symm⟩
  · next hrefers =>
    split at hy
    · cases hy
    · next hfree =>
      obtain ⟨c, hc, rfl⟩ := Option.map_eq_some_iff.mp hy
      exact .inr ⟨Bool.eq_false_iff.mpr hrefers, Bool.eq_false_iff.mpr hfree, c, hc, rfl⟩

/-- A controller that is half given up keeps the lines held. -/
theorem linesHeld_of_forgets {s : Watering} {p : Point} (hp : s.point? = some p)
    (hforgets : p.forgets = true) : s.linesHeld = true := by
  rw [Watering.linesHeld, hp]
  cases p <;> first | rfl | cases hforgets

/-- What a drop leaves. -/
theorem Reseats.drop {rig : Rig} {z : Exchange} {k : Nat} (ht : x.Reseats rig z)
    (hclean : CleanBut [k] z) (hy : z.drop k = some y) :
    ∃ rig, x.Reseats rig y ∧ CleanBut [] y := by
  obtain ⟨hrefers, rfl⟩ | ⟨-, hfree, c, hc, rfl⟩ := drop_cases hy
  · refine ⟨rig, ht, fun j c _ hc hfree => hclean j c ?_ hc hfree⟩
    rintro hj
    obtain rfl := List.mem_singleton.mp hj
    rw [hrefers] at hfree
    cases hfree
  · have hrig : z.world.system.rig = rig := by rw [ht.world]
    have hheld : x.world.system.linesHeld = false := by
      rw [ht.world] at hfree
      exact hfree
    rw [hrig]
    refine ⟨(c.release rig).2, ?_, ?_⟩
    · exact {
        world := congrArg (fun w : World =>
          { w with system := { w.system with rig := (c.release rig).2 } }) ht.world
        routine := ht.routine.trans (Rig.routine_unbindAll Role.all c rig)
        usedHardware := ht.usedHardware
        usedTiming := ht.usedTiming
        hardware := by
          change _ < (z.controllers.set k _).length
          rw [List.length_set]
          exact ht.hardware
        timing := ht.timing
        madeHardware := by
          change _ ≤ (z.controllers.set k _).length
          rw [List.length_set]
          exact ht.madeHardware
        madeTiming := ht.madeTiming
        madeKept := by
          change ∀ j ∈ z.kept, j < (z.controllers.set k _).length
          rw [List.length_set]
          exact ht.madeKept
        houses := ht.houses.giveUp hc
        halved := by
          -- Nobody can drop a controller while another is half given up.
          intro p hp hforgets
          rw [linesHeld_of_forgets hp hforgets] at hheld
          cases hheld }
    · intro j c' _ hc' hrefers
      change (z.controllers.set k _)[j]? = some c' at hc'
      by_cases hj : k = j
      · subst hj
        rw [List.getElem?_set_self (List.getElem?_eq_some_iff.mp hc).1] at hc'
        obtain rfl := Option.some.inj hc'
        exact Controller.outputs_release c rig
      · rw [List.getElem?_set_ne hj] at hc'
        exact hclean j c' (fun hmem => hj (List.mem_singleton.mp hmem).symm) hc' hrefers

/-- A message changes nothing else. -/
theorem Reseats.announces {rig : Rig} (ht : x.Reseats rig y) (what : String) :
    x.Reseats (Irrigation.log .info s!"Watering: {what} replaced" rig) (y.announces what) where
  world := by
    rw [Exchange.announces, withRig]
    simp only [ht.world]
  routine := ht.routine.trans (.log ..)
  usedHardware := ht.usedHardware
  usedTiming := ht.usedTiming
  hardware := ht.hardware
  timing := ht.timing
  madeHardware := ht.madeHardware
  madeTiming := ht.madeTiming
  madeKept := ht.madeKept
  houses := ht.houses.of_eq rfl rfl
  halved := ht.halved

/-- A controller that was made is one more. -/
theorem Sound.built (h : x.Sound) {pins : Each Pin} {c : Controller} {rig : Rig}
    (hwire : Controller.wire pins x.world.system.rig = (.ok c, rig))
    (hy : y = { x.withRig rig with
      controllers := x.controllers ++ [c], kept := x.controllers.length :: x.kept }) :
    x.Reseats rig y ∧ CleanBut [] y := by
  subst hy
  have hroutine := Rig.routine_wire pins x.world.system.rig
  rw [hwire] at hroutine
  have hlength : (x.controllers ++ [c]).length = x.controllers.length + 1 := by simp
  constructor
  · exact { h.reseats (.refl _) h.houses with
      world := rfl
      routine := hroutine
      hardware := hlength ▸ Nat.lt_succ_of_lt h.in_force.1
      madeHardware := hlength ▸ Nat.le_succ _
      madeKept := by
        intro k hk
        rw [hlength]
        rcases List.mem_cons.mp hk with rfl | hk
        · exact Nat.lt_succ_self _
        · exact Nat.lt_succ_of_lt (h.madeKept k hk)
      houses := (h.houses.wire hwire).1.perm (List.perm_append_singleton c x.controllers).symm
      halved := by
        intro p hp hforgets k hused
        obtain ⟨hne, hkept⟩ := h.halved_alone hp hforgets hused
        have hmade := h.madeHardware k hused
        refine ⟨hne, ?_, List.getElem?_append_left hmade⟩
        rw [List.mem_cons, not_or]
        exact ⟨Nat.ne_of_lt hmade, hkept⟩ }
  · intro k c' _ hc' hfree
    obtain ⟨hne, hkept, hused⟩ := refersTo_eq_false.mp hfree
    rw [List.mem_cons, not_or] at hkept
    change (x.controllers ++ [c])[k]? = some c' at hc'
    have hk := (List.getElem?_eq_some_iff.mp hc').1
    rw [hlength] at hk
    have hmade : k < x.controllers.length := Nat.lt_of_le_of_ne (Nat.le_of_lt_succ hk) hkept.1
    rw [List.getElem?_append_left hmade] at hc'
    exact h.gone k c' hc' (refersTo_eq_false.mpr ⟨hne, hkept.2, hused⟩)

/-- A controller that somebody refers to is moved. -/
theorem Sound.rebound (h : x.Sound) {k : Nat} {c : Controller} {wanted : Each (Option Offset)}
    (hc : x.controllers[k]? = some c) (hrefers : x.refersTo k = true)
    (hfree : x.world.system.linesHeld = false)
    (hy : y = { x.withRig (c.rebind wanted x.world.system.rig).2.2 with
      controllers := x.controllers.set k (c.rebind wanted x.world.system.rig).2.1 }) :
    x.Reseats (c.rebind wanted x.world.system.rig).2.2 y ∧ CleanBut [] y := by
  subst hy
  have hlength : (x.controllers.set k (c.rebind wanted x.world.system.rig).2.1).length =
      x.controllers.length := List.length_set
  constructor
  · exact { h.reseats (.refl _) h.houses with
      world := rfl
      routine := Rig.routine_rebind c wanted x.world.system.rig
      hardware := hlength ▸ h.in_force.1
      madeHardware := Nat.le_of_eq hlength.symm
      madeKept := hlength ▸ h.madeKept
      houses := h.houses.set hc (Controller.hosts_rebind (h.houses.hostsAt hc) wanted).1
      halved := by
        intro p hp hforgets
        rw [linesHeld_of_forgets hp hforgets] at hfree
        cases hfree }
  · intro j c' _ hc' hj
    have hj : x.refersTo j = false := hj
    have hne : k ≠ j := by
      rintro rfl
      rw [hrefers] at hj
      cases hj
    refine h.gone j c' ?_ hj
    rw [← hc']
    exact (List.getElem?_set_ne hne).symm

/-- **Every trade reseats.** -/
theorem Sound.trade (h : x.Sound) {t : Trade} (hy : x.trade t = some y) :
    ∃ rig, x.Reseats rig y ∧ CleanBut [] y := by
  have hclean : CleanBut [] x := fun k c _ => h.gone k c
  have hsame := h.reseats (.refl _) h.houses
  cases trade_outcome hy with
  | @unbuilt pins e rig hwire =>
    have hroutine := Rig.routine_wire pins x.world.system.rig
    rw [hwire] at hroutine
    exact ⟨rig, h.reseats hroutine (h.houses.wire_error hwire), hclean⟩
  | @built pins c rig hwire => exact ⟨rig, h.built hwire rfl⟩
  | keep =>
    refine ⟨_, { hsame with madeKept := ?_, halved := ?_ }, ?_⟩
    · exact List.forall_mem_cons.mpr ⟨h.in_force.1, h.madeKept⟩
    · intro p hp hforgets k hused
      obtain ⟨hne, hkept⟩ := h.halved_alone hp hforgets hused
      exact ⟨hne, List.not_mem_cons_of_ne_of_not_mem hne hkept, rfl⟩
    · intro k c _ hc hfree
      obtain ⟨hne, hkept, hused⟩ := refersTo_eq_false.mp hfree
      exact h.gone k c hc (refersTo_eq_false.mpr
        ⟨hne, fun hin => hkept (List.mem_cons_of_mem _ hin), hused⟩)
  | @forget k _ hin hdrop =>
    have hless : x.Reseats x.world.system.rig { x with kept := x.kept.erase k } := { hsame with
      madeKept := fun j hj => h.madeKept j (List.mem_of_mem_erase hj)
      halved := by
        intro p hp hforgets j hused
        obtain ⟨hne, hkept⟩ := h.halved_alone hp hforgets hused
        exact ⟨hne, fun hin => hkept (List.mem_of_mem_erase hin), rfl⟩ }
    refine hless.drop (fun j c hj hc hfree => ?_) hdrop
    obtain ⟨hne, hkept, hused⟩ := refersTo_eq_false.mp hfree
    rw [List.mem_singleton] at hj
    exact h.gone j c hc (refersTo_eq_false.mpr
      ⟨hne, fun hin => hkept ((List.mem_erase_of_ne hj).mpr hin), hused⟩)
  | @install k z hin hdrop =>
    have hput : x.Reseats x.world.system.rig (x.putHardware k) := { hsame with
      hardware := h.madeKept k hin
      halved := by
        intro p hp hforgets j hused
        obtain ⟨-, hkept⟩ := h.halved_alone hp hforgets hused
        exact ⟨fun he => hkept (he ▸ hin), hkept, rfl⟩ }
    -- The old controller is the only one that can hold lines without being referred to.
    obtain ⟨rig, ht, hclean'⟩ := hput.drop (k := x.hardware) (fun j c hj hc hfree => by
      obtain ⟨-, hkept, hused⟩ := refersTo_eq_false.mp hfree
      rw [List.mem_singleton] at hj
      exact h.gone j c hc (refersTo_eq_false.mpr ⟨hj, hkept, hused⟩)) hdrop
    exact ⟨_, ht.announces _, hclean'⟩
  | rebind hrefers hfree hc => exact ⟨_, h.rebound hc (refersTo_eq_true hrefers) hfree rfl⟩
  | supply t =>
    have hlength : (x.timings ++ [t]).length = x.timings.length + 1 := by simp
    exact ⟨_, { hsame with
      timing := hlength ▸ Nat.lt_succ_of_lt h.in_force.2
      madeTiming := hlength ▸ Nat.le_succ _ }, hclean⟩
  | choose hn =>
    have hput : x.Reseats x.world.system.rig (x.putTiming _) := { hsame with timing := hn }
    exact ⟨_, hput.announces _, hclean⟩
  | @adjust n i ms t ht =>
    have hlength : (x.timings.set n (t.set i ms)).length = x.timings.length := List.length_set
    exact ⟨_, { hsame with
      timing := hlength ▸ h.in_force.2
      madeTiming := Nat.le_of_eq hlength.symm }, hclean⟩

/-! ## The invariant -/

variable {x' : Exchange} {t : Trade}

theorem next_eq_trade (hwork : t ≠ .work) (hplain : ∀ m, t ≠ .plain m) :
    x.next t = (x.trade t).map Exchange.seat := by
  cases t with
  | work => exact absurd rfl hwork
  | plain m => exact absurd rfl (hplain m)
  | _ => rfl

/-- What a trade can be. -/
theorem next_cases (hx : x.next t = some x') :
    (∃ p w, t = .work ∧ x.world.system.point? = some p ∧ x.facing.next .work = some w ∧
      x' = x.worked p w) ∨
    (∃ m w, t = .plain m ∧ m.isPlain = true ∧ x.world.next m = some w ∧
      x' = { x with world := w }) ∨
    ∃ y, x.trade t = some y ∧ x' = y.seat := by
  cases t with
  | work =>
    obtain ⟨p, w, hp, hw, rfl⟩ := next_work hx
    exact .inl ⟨p, w, rfl, hp, hw, rfl⟩
  | plain m =>
    rw [next] at hx
    split at hx
    · next hplain =>
      obtain ⟨w, hw, rfl⟩ := Option.map_eq_some_iff.mp hx
      exact .inr (.inl ⟨m, w, rfl, hplain, hw, rfl⟩)
    · cases hx
  | _ =>
    rw [next_eq_trade (by rintro ⟨⟩) (by rintro _ ⟨⟩)] at hx
    obtain ⟨y, hy, rfl⟩ := Option.map_eq_some_iff.mp hx
    exact .inr (.inr ⟨y, hy, rfl⟩)

theorem Sound.next (h : x.Sound) (hx : x.next t = some x') : x'.Sound := by
  obtain ⟨p, w, -, hp, hw, rfl⟩ | ⟨m, w, -, hplain, hw, rfl⟩ | ⟨y, hy, rfl⟩ := next_cases hx
  · exact h.worked (h.steps hp hw)
  · exact h.plain hplain hw
  · obtain ⟨rig, ht, hclean⟩ := h.trade hy
    exact h.seat ht hclean

/-- **Every reachable exchange is sound.** -/
theorem Reachable.sound (h : x.Reachable) : x.Sound := by
  induction h with
  | @wired path lines pins timing enabled s before rig guests hbefore hwired =>
    have hworld := World.Reachable.wired before hbefore hwired
    obtain ⟨-, -, -, -, hs⟩ := World.wire_eq_ok hwired
    have hrun : s.run = none := by rw [hs]
    have hreplaced : s.replaced = none := by rw [Watering.replaced, hrun]; rfl
    have hhouses := hworld.orderly.houses
    rw [World.live, hreplaced] at hhouses
    exact {
      steady := hworld.steady
      hardware := rfl
      timing := rfl
      replaced := hreplaced
      ownTiming := by
        change s.run.bind _ = _
        rw [hrun]
        rfl
      usesHardware := by
        change _ = ((s.run.map _).map Point.usesHardware).getD false
        rw [hrun]
        rfl
      usesTiming := by
        change _ = ((s.run.map _).map Point.usesTiming).getD false
        rw [hrun]
        rfl
      madeHardware := by rintro k ⟨⟩
      madeTiming := by rintro n ⟨⟩
      madeKept := fun k hk => absurd hk List.not_mem_nil
      houses := hhouses
      halved := by rintro p - - k c ⟨⟩
      gone := by
        intro k c hc hfree
        cases k with
        | zero => cases hfree
        | succ k => cases hc }
  | trade _ ht ih => exact ih.next ht

end Exchange

end Irrigation
