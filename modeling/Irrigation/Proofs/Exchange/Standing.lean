import Irrigation.Proofs.Exchange.Holding

/-!
# What the numbers stand for

In an exchange the system has what the numbers say, the worker refers to a controller and to
durations exactly while it has them for its iteration, the rig houses all controllers that were
ever built, and a controller to which nobody refers holds nothing (`Exchange.Sound`). A step of the
worker keeps this so (`Sound.worked`).
-/

namespace Irrigation

/-! ## What is used and not in force -/

section Supplanted

variable {α : Type} {made made' : List α} {used : Option Nat} {current current' : Nat}

theorem supplanted_eq_some {a : α} (h : supplanted made used current = some a) :
    ∃ n, used = some n ∧ n ≠ current ∧ made[n]? = some a := by
  obtain ⟨n, hn, ha⟩ := Option.bind_eq_some_iff.mp h
  obtain ⟨hused, hne⟩ := Option.filter_eq_some_iff.mp hn
  exact ⟨n, hused, by simpa using hne, ha⟩

theorem supplanted_of_used {n : Nat} (hused : used = some n) (hne : n ≠ current) :
    supplanted made used current = made[n]? := by
  rw [supplanted, hused, Option.filter_some, if_pos (bne_iff_ne.mpr hne)]
  rfl

theorem supplanted_of_not_used (h : used = none ∨ used = some current) :
    supplanted made used current = none := by
  rcases h with h | h <;> simp [supplanted, h]

/-- Something else is made of what is in force, or something else is put in force, but not what is
used. -/
theorem supplanted_congr
    (hcurrent : current' = current ∨ used ≠ some current ∧ used ≠ some current')
    (hmade : ∀ n, used = some n → n ≠ current → made'[n]? = made[n]?) :
    supplanted made' used current' = supplanted made used current := by
  cases hused : used with
  | none => rfl
  | some n =>
    by_cases hn : n = current
    · obtain rfl | ⟨hne, -⟩ := hcurrent
      · rw [supplanted_of_not_used (.inr (congrArg some hn)),
          supplanted_of_not_used (.inr (congrArg some hn))]
      · exact absurd (hused.trans (congrArg some hn)) hne
    · have hn' : n ≠ current' := by
        rintro rfl
        obtain he | ⟨-, hne⟩ := hcurrent
        · exact hn he
        · exact hne hused
      rw [supplanted_of_used rfl hn, supplanted_of_used rfl hn', hmade n hused hn]

/-- What is used is in force if nothing else stands for it. -/
theorem isNone_supplanted (hmade : ∀ n, used = some n → n < made.length) :
    (used.isSome && (supplanted made used current).isNone) = decide (used = some current) := by
  cases used with
  | none => rfl
  | some n =>
    by_cases hn : n = current
    · rw [supplanted_of_not_used (.inr (congrArg some hn))]
      simp [hn]
    · rw [supplanted_of_used rfl hn, List.getElem?_eq_getElem (hmade n rfl)]
      simp [hn]

end Supplanted

namespace Exchange

/-- What is so in every reachable exchange. -/
structure Sound (x : Exchange) : Prop where
  steady : x.world.Steady
  /-- The system has what the numbers say. -/
  hardware : x.controllers[x.hardware]? = some x.world.system.hardware
  timing : x.timings[x.timing]? = some x.world.system.timing
  replaced : x.world.system.replaced = x.replaced?
  ownTiming : x.world.system.ownTiming = x.ownTiming?
  /-- The worker refers to what its iteration has taken. -/
  usesHardware : x.usedHardware.isSome = (x.world.system.point?.map Point.usesHardware).getD false
  usesTiming : x.usedTiming.isSome = (x.world.system.point?.map Point.usesTiming).getD false
  /-- Whatever is referred to was made. -/
  madeHardware : ∀ k, x.usedHardware = some k → k < x.controllers.length
  madeTiming : ∀ n, x.usedTiming = some n → n < x.timings.length
  madeKept : ∀ k ∈ x.kept, k < x.controllers.length
  houses : x.world.system.rig.Houses x.controllers x.world.guests
  /-- A controller that is half given up is the worker's alone. -/
  halved : ∀ p, x.world.system.point? = some p → p.forgets = true →
    ∀ k c, x.usedHardware = some k → x.controllers[k]? = some c →
      k ∉ x.kept ∧ (c.slot .valve).output = none
  /-- A controller to which nobody refers holds nothing. -/
  gone : ∀ k c, x.controllers[k]? = some c → x.refersTo k = false → c.outputs = []

variable {x y : Exchange}

theorem refersTo_eq_true {k : Nat} (h : k = x.hardware ∨ k ∈ x.kept) : x.refersTo k = true := by
  simpa [refersTo] using .inl h

theorem refersTo_eq_false {k : Nat} : x.refersTo k = false ↔
    k ≠ x.hardware ∧ k ∉ x.kept ∧ x.usedHardware ≠ some k := by
  simp [refersTo, and_assoc]

theorem Sound.in_force (h : x.Sound) :
    x.hardware < x.controllers.length ∧ x.timing < x.timings.length :=
  ⟨(List.getElem?_eq_some_iff.mp h.hardware).1, (List.getElem?_eq_some_iff.mp h.timing).1⟩

section Uses

variable {p : Point}

/-- What the worker refers to, by its point. -/
theorem Sound.usesHardware_at (h : x.Sound) (hp : x.world.system.point? = some p) :
    x.usedHardware.isSome = p.usesHardware := by
  rw [h.usesHardware, hp]
  rfl

theorem Sound.usesTiming_at (h : x.Sound) (hp : x.world.system.point? = some p) :
    x.usedTiming.isSome = p.usesTiming := by
  rw [h.usesTiming, hp]
  rfl

/-- What an iteration has not taken yet it does not use. -/
theorem Sound.usedHardware_eq_none (h : x.Sound) (hp : x.world.system.point? = some p)
    (huses : p.usesHardware = false) : x.usedHardware = none :=
  Option.isNone_iff_eq_none.mp (Option.isSome_eq_false_iff.mp ((h.usesHardware_at hp).trans huses))

theorem Sound.usedTiming_eq_none (h : x.Sound) (hp : x.world.system.point? = some p)
    (huses : p.usesTiming = false) : x.usedTiming = none :=
  Option.isNone_iff_eq_none.mp (Option.isSome_eq_false_iff.mp ((h.usesTiming_at hp).trans huses))

/-- Outside of iterations the worker refers to nothing. -/
theorem Sound.unused_outside (h : x.Sound)
    (hout : ∀ p, x.world.system.point? = some p → p.inIteration = false) :
    x.usedHardware = none ∧ x.usedTiming = none := by
  cases hp : x.world.system.point? with
  | none =>
    have hhardware := h.usesHardware
    have htiming := h.usesTiming
    rw [hp] at hhardware htiming
    exact ⟨by simpa using hhardware, by simpa using htiming⟩
  | some p =>
    obtain ⟨hhardware, htiming⟩ := Point.uses_nothing (hout p hp)
    exact ⟨h.usedHardware_eq_none hp hhardware, h.usedTiming_eq_none hp htiming⟩

end Uses

/-! ## The worker -/

theorem facing_of_not_spared (h : x.isSpared = false) : x.facing = x.world := by
  rw [facing, h]
  rfl

theorem facing_point (x : Exchange) : x.facing.system.point? = x.world.system.point? := by
  unfold facing
  split
  · simp only [Watering.point?, Option.map_map, Function.comp_def]
  · rfl

theorem facing_stopPending (x : Exchange) :
    x.facing.system.stopPending = x.world.system.stopPending := by
  unfold facing
  split
  · simp only [Watering.stopPending, Option.map_map, Function.comp_def]
  · rfl

theorem facing_ownTiming (x : Exchange) :
    x.facing.system.ownTiming = x.world.system.ownTiming := by
  unfold facing
  split
  · simp only [Watering.ownTiming, Option.bind_map, Function.comp_def]
  · rfl

theorem facing_replaced (x : Exchange) :
    x.facing.system.replaced = if x.isSpared then none else x.world.system.replaced := by
  unfold facing
  split
  · rw [Watering.replaced]
    cases x.world.system.run <;> rfl
  · rfl

/-- The rest of the world is as it is. -/
theorem facing_frame (x : Exchange) : x.facing.system.hardware = x.world.system.hardware ∧
    x.facing.system.timing = x.world.system.timing ∧ x.facing.system.rig = x.world.system.rig ∧
    x.facing.guests = x.world.guests ∧ x.facing.caller = x.world.caller ∧
    x.facing.trace = x.world.trace := by
  unfold facing
  split <;> exact ⟨rfl, rfl, rfl, rfl, rfl, rfl⟩

/-- A controller is spared at the end of an iteration, if it is kept. -/
theorem exists_of_isSpared (h : x.isSpared = true) :
    (∃ again, x.world.system.point? = some (.lettingGo again)) ∧
      ∃ k, x.usedHardware = some k ∧ k ∈ x.kept := by
  rw [isSpared, Bool.and_eq_true] at h
  obtain ⟨hpoint, hkept⟩ := h
  constructor
  · cases hp : x.world.system.point? with
    | none =>
      rw [hp] at hpoint
      cases hpoint
    | some p =>
      rw [hp] at hpoint
      cases p <;> first | exact ⟨_, rfl⟩ | cases hpoint
  · cases hk : x.usedHardware with
    | none =>
      rw [hk] at hkept
      cases hkept
    | some k =>
      rw [hk] at hkept
      exact ⟨k, rfl, by simpa using hkept⟩

theorem Sound.facing_steady (h : x.Sound) : x.facing.Steady := by
  cases hspared : x.isSpared with
  | false =>
    rw [facing_of_not_spared hspared]
    exact h.steady
  | true =>
    obtain ⟨⟨again, hpoint⟩, -⟩ := exists_of_isSpared hspared
    obtain ⟨-, -, hrig, -, hcaller, -⟩ := facing_frame x
    have hreplaced := facing_replaced x
    rw [hspared, if_pos rfl] at hreplaced
    obtain ⟨halive, hrunning, hstate, -, -⟩ := h.steady.settled _ hpoint
    refine ⟨by rw [hrig]; exact h.steady.actor, by rw [hrig]; exact h.steady.faults, ?_, ?_, ?_⟩
    · rw [facing_stopPending, hcaller]
      exact h.steady.stop
    · rw [facing_point, hpoint]
      rintro ⟨⟩
    · intro p hp
      rw [facing_point, hpoint] at hp
      obtain rfl := Option.some.inj hp
      refine ⟨halive, ?_, ?_, by rw [hreplaced]; rintro ⟨⟩, by rintro ⟨⟩⟩
      · unfold facing
        split <;> exact hrunning
      · unfold facing
        split <;> exact hstate

/-- From `x` at the point `p` the worker has led the world to `w`. -/
structure Steps (x : Exchange) (p : Point) (w : World) : Prop where
  point : x.world.system.point? = some p
  working : p.isOver = false
  steady : w.Steady
  next : w.system.point? = some (x.acting.nextPoint p)
  hardware : w.system.hardware =
    if x.acting.replaced.isSome then x.world.system.hardware else (x.acting.touch p).1
  replaced : w.system.replaced =
    if p.forgets then none else x.acting.replaced.map fun _ => (x.acting.touch p).1
  timing : w.system.timing = x.world.system.timing
  ownTiming : w.system.ownTiming =
    if p.inIteration && !(x.acting.nextPoint p).inIteration then none
    else x.world.system.ownTiming
  chip : w.system.rig.chip = (x.acting.touch p).2.chip
  faults : w.system.rig.faults = (x.acting.touch p).2.faults
  guests : w.guests = x.world.guests
  trace : w.trace = x.world.trace ++ x.acting.marksAt p

theorem next_work {x' : Exchange} (hx : x.next .work = some x') :
    ∃ p w, x.world.system.point? = some p ∧ x.facing.next .work = some w ∧ x' = x.worked p w := by
  obtain ⟨p, hp, hx⟩ := Option.bind_eq_some_iff.mp hx
  obtain ⟨w, hw, rfl⟩ := Option.map_eq_some_iff.mp hx
  exact ⟨p, w, hp, hw, rfl⟩

theorem Sound.steps (h : x.Sound) {p : Point} {w : World}
    (hp : x.world.system.point? = some p) (hw : x.facing.next .work = some w) : x.Steps p w := by
  obtain ⟨hwork, rfl⟩ := World.next_work hw
  obtain ⟨q, s', hq, hover, hmarks, hstep, ha⟩ := h.facing_steady.step hwork
  obtain rfl : q = p := Option.some.inj (hq.symm.trans ((facing_point x).trans hp))
  obtain ⟨worker, hrun, rfl⟩ := World.exists_worker hq
  obtain ⟨hhardware, htiming, -, hguests, -, htrace⟩ := facing_frame x
  have hsafe : x.facing.system.rig.faults.deadlyLine = none := by rw [h.facing_steady.faults]
  exact {
    point := hp
    working := hover
    steady := h.facing_steady.worked hwork rfl rfl
    next := by rw [hstep]; exact ha.point
    hardware := by rw [hstep, ← hhardware]; exact ha.hardware
    replaced := by rw [hstep]; exact ha.replaced
    timing := by rw [hstep, ← htiming]; exact ha.timing
    ownTiming := by
      rw [← facing_ownTiming]
      exact Watering.ownTiming_step hrun hsafe
    chip := by rw [hstep]; exact ha.chip
    faults := by
      rw [hstep]
      exact ha.routine.1.symm.trans (Watering.faults_touch x.acting worker.point).symm
    guests := hguests
    trace := by
      change x.facing.trace ++ x.facing.system.marks = _
      rw [htrace, hmarks]
      rfl }

/-- The worker's step gives up a replaced controller, unless it is spared. -/
theorem acting_replaced (x : Exchange) :
    x.acting.replaced = if x.isSpared then none else x.world.system.replaced :=
  facing_replaced x

/-- The worker's controller is the one in force, or another one that its iteration has taken. -/
theorem Sound.touched_cases (h : x.Sound) :
    (x.acting.replaced = none ∧ x.touched = x.hardware ∧
      x.acting.iterationHardware = x.world.system.hardware ∧
      (x.replaced? = none ∨ x.isSpared = true)) ∨
    ∃ k c, x.acting.replaced = some c ∧ x.touched = k ∧ x.acting.iterationHardware = c ∧
      x.usedHardware = some k ∧ k ≠ x.hardware ∧ x.controllers[k]? = some c ∧
      x.isSpared = false := by
  have hreplaced := acting_replaced x
  rw [h.replaced] at hreplaced
  cases hr : x.acting.replaced with
  | none =>
    refine .inl ⟨rfl, by rw [touched, hr]; rfl, ?_, ?_⟩
    · rw [Watering.iterationHardware_eq, hr]
      exact (facing_frame x).1
    · rw [hr] at hreplaced
      cases hspared : x.isSpared with
      | true => exact .inr rfl
      | false =>
        rw [hspared] at hreplaced
        exact .inl hreplaced.symm
  | some c =>
    rw [hr] at hreplaced
    cases hspared : x.isSpared with
    | true =>
      rw [hspared] at hreplaced
      cases hreplaced
    | false =>
      rw [hspared] at hreplaced
      obtain ⟨k, hused, hne, hc⟩ := supplanted_eq_some hreplaced.symm
      refine .inr ⟨k, c, rfl, by rw [touched, hr, hused]; rfl, ?_, hused, hne, hc, rfl⟩
      rw [Watering.iterationHardware_eq, hr]
      rfl

/-- It is the one that its step can touch. -/
theorem Sound.touched_eq (h : x.Sound) :
    x.controllers[x.touched]? = some x.acting.iterationHardware := by
  obtain ⟨-, htouched, hiteration, -⟩ | ⟨k, c, -, htouched, hiteration, -, -, hc, -⟩ :=
    h.touched_cases
  · rw [htouched, hiteration]
    exact h.hardware
  · rw [htouched, hiteration]
    exact hc

/-- The worker has the rig as it is. -/
theorem acting_rig (x : Exchange) : x.acting.rig = (x.world.system.actAs .worker).rig :=
  congrArg (fun r : Rig => { r with actor := .worker }) (facing_frame x).2.2.1

theorem Sound.acting_houses (h : x.Sound) : x.acting.rig.Houses x.controllers x.world.guests := by
  rw [acting_rig]
  exact h.houses.of_eq rfl rfl

/-- The rig hosts the controller that a step can touch, the others being somebody else's. -/
theorem Sound.acting_hosts (h : x.Sound) : x.acting.rig.Hosts x.acting.iterationHardware
    ((x.controllers.eraseIdx x.touched).flatMap Controller.outputs ++ x.world.guests) :=
  h.acting_houses.hostsAt h.touched_eq

section Taken

variable {α : Type} {a b : α} {used : Option α} {goesOn : Bool} {head : Prop} [Decidable head]

/-- Something is used after a step if the iteration goes on and has taken it by then. -/
theorem isSome_taken : (if goesOn then if head then some a else used else none).isSome =
    (goesOn && (decide head || used.isSome)) := by
  cases goesOn with
  | false => rfl
  | true => by_cases hhead : head <;> simp [hhead]

/-- It is what was in force at the head, or what was used before. -/
theorem eq_of_taken (h : (if goesOn then if head then some a else used else none) = some b) :
    b = a ∨ used = some b := by
  split at h
  · split at h
    · exact .inl (Option.some.inj h).symm
    · exact .inr h
  · cases h

end Taken

section Worked

variable {p : Point} {w : World}

theorem worked_goesOn (hs : x.Steps p w) :
    (w.system.point?.map Point.inIteration).getD false = (x.acting.nextPoint p).inIteration := by
  rw [hs.next]
  rfl

theorem worked_usedHardware (hs : x.Steps p w) : (x.worked p w).usedHardware =
    if (x.acting.nextPoint p).inIteration then
      if p = .takingHardware then some x.hardware else x.usedHardware
    else none := by
  rw [← worked_goesOn hs]
  rfl

theorem worked_usedTiming (hs : x.Steps p w) : (x.worked p w).usedTiming =
    if (x.acting.nextPoint p).inIteration then
      if p = .takingTiming then some x.timing else x.usedTiming
    else none := by
  rw [← worked_goesOn hs]
  rfl

/-- A controller that is replaced while an iteration goes on is still the iteration's. -/
theorem Sound.goesOn_of_replaced (h : x.Sound) (hs : x.Steps p w)
    (hr : x.acting.replaced.isSome = true) (hp : p.forgets = false) :
    (x.acting.nextPoint p).inIteration = true ∧ p ≠ .takingHardware := by
  obtain ⟨hnone, -⟩ | ⟨k, c, -, -, -, hused, -⟩ := h.touched_cases
  · rw [hnone] at hr
    cases hr
  · have huses : p.usesHardware = true := by
      rw [← h.usesHardware_at hs.point, hused]
      rfl
    refine ⟨?_, by rintro rfl; cases huses⟩
    rcases Watering.holdsHardware_nextPoint ((Bool.or_eq_true ..).mp huses |>.resolve_right
      (by rw [hp]; exact Bool.false_ne_true)) hr with hholds | hforgets
    · exact Point.inIteration_of_usesHardware (by rw [Point.usesHardware, hholds]; rfl)
    · exact Point.inIteration_of_usesHardware (by rw [Point.usesHardware, hforgets, Bool.or_true])

/-- If no other controller is in use, the iteration uses the one in force, or none. -/
theorem Sound.used_of_not_replaced (h : x.Sound) (hr : x.replaced? = none) :
    x.usedHardware = none ∨ x.usedHardware = some x.hardware := by
  cases hused : x.usedHardware with
  | none => exact .inl rfl
  | some k =>
    by_cases hk : k = x.hardware
    · exact .inr (congrArg some hk)
    · rw [replaced?, supplanted_of_used hused hk] at hr
      exact absurd (h.madeHardware k hused) (Nat.not_lt.mpr (List.getElem?_eq_none_iff.mp hr))

/-- A controller that is spared is let go of at once. -/
theorem goesOn_of_spared (hs : x.Steps p w) (hspared : x.isSpared = true) :
    (x.acting.nextPoint p).inIteration = false := by
  obtain ⟨⟨again, hp⟩, -⟩ := exists_of_isSpared hspared
  obtain rfl := Option.some.inj (hs.point.symm.trans hp)
  rw [Watering.nextPoint, acting_replaced, hspared]
  exact World.not_inIteration_afterIteration again

/-- After a step the system has what the numbers say: the controller in force. -/
theorem Sound.worked_hardware (h : x.Sound) (hs : x.Steps p w) :
    (x.worked p w).controllers[x.hardware]? = some w.system.hardware := by
  change (x.controllers.set x.touched _)[x.hardware]? = _
  rw [hs.hardware]
  obtain ⟨hnone, htouched, -, -⟩ | ⟨k, c, hsome, htouched, -, -, hne, -, -⟩ := h.touched_cases
  · rw [hnone, htouched, List.getElem?_set_self h.in_force.1]
    rfl
  · rw [hsome, htouched, List.getElem?_set_ne hne, h.hardware]
    rfl

/-- The controller that was replaced. -/
theorem Sound.worked_replaced (h : x.Sound) (hs : x.Steps p w) :
    w.system.replaced = (x.worked p w).replaced? := by
  have hused := worked_usedHardware hs
  cases hgoes : (x.acting.nextPoint p).inIteration with
  | false =>
    rw [hgoes] at hused
    rw [replaced?, supplanted_of_not_used (.inl hused)]
    cases hr : w.system.replaced with
    | none => rfl
    | some c =>
      have hin : (x.acting.nextPoint p).inIteration = true :=
        Point.inIteration_of_usesHardware ((Bool.or_eq_true ..).mpr
          ((hs.steady.settled _ hs.next).inUse (by rw [hr]; rfl)))
      rw [hgoes] at hin
      cases hin
  | true =>
    rw [hgoes, if_pos rfl] at hused
    have hforgets : p.forgets = false := by
      cases p <;> first | rfl | skip
      rw [show x.acting.nextPoint (.lettingGoPump _) = Watering.afterIteration _ from rfl,
        World.not_inIteration_afterIteration] at hgoes
      cases hgoes
    rw [hs.replaced, hforgets, if_neg Bool.false_ne_true]
    obtain ⟨hnone, -, -, hwhy⟩ | ⟨k, c, hsome, htouched, -, hk, hne, hc, -⟩ := h.touched_cases
    · rw [hnone]
      rcases hwhy with hwhy | hspared
      · refine (supplanted_of_not_used ?_).symm
        rw [hused]
        split
        · exact .inr rfl
        · exact h.used_of_not_replaced hwhy
      · rw [goesOn_of_spared hs hspared] at hgoes
        cases hgoes
    · have hhead : p ≠ .takingHardware := (h.goesOn_of_replaced hs (by rw [hsome]; rfl) hforgets).2
      rw [if_neg hhead] at hused
      rw [hsome]
      refine Eq.trans ?_ (supplanted_of_used (hused.trans hk) hne).symm
      change _ = (x.controllers.set x.touched _)[k]?
      rw [htouched, List.getElem?_set_self (List.getElem?_eq_some_iff.mp hc).1]
      rfl

/-- The durations that were replaced. -/
theorem Sound.worked_ownTiming (h : x.Sound) (hs : x.Steps p w) :
    w.system.ownTiming = (x.worked p w).ownTiming? := by
  have hused := worked_usedTiming hs
  rw [hs.ownTiming]
  cases hgoes : (x.acting.nextPoint p).inIteration with
  | false =>
    rw [hgoes, if_neg Bool.false_ne_true] at hused
    rw [ownTiming?, supplanted_of_not_used (.inl hused)]
    cases hin : p.inIteration with
    | true => rfl
    | false =>
      have huses := (Point.uses_nothing hin).2
      rw [h.ownTiming, ownTiming?,
        supplanted_of_not_used (.inl (h.usedTiming_eq_none hs.point huses))]
      rfl
  | true =>
    rw [hgoes, if_pos rfl] at hused
    rw [Bool.not_true, Bool.and_false, if_neg Bool.false_ne_true, h.ownTiming]
    by_cases hhead : p = .takingTiming
    · rw [if_pos hhead] at hused
      subst hhead
      exact (supplanted_of_not_used (.inl (h.usedTiming_eq_none hs.point rfl))).trans
        (supplanted_of_not_used (.inr hused)).symm
    · rw [if_neg hhead] at hused
      rw [ownTiming?, ownTiming?, hused]
      rfl

/-- The rig houses the controller that the step has touched, and the others as before. -/
theorem Sound.worked_houses (h : x.Sound) (hs : x.Steps p w) :
    w.system.rig.Houses (x.worked p w).controllers w.guests := by
  rw [hs.guests]
  have htouch := Watering.hosts_touch h.acting_hosts p
  exact (h.acting_houses.set h.touched_eq htouch).of_eq hs.chip hs.faults

/-- A controller that the worker gives up half is his alone. -/
theorem Sound.worked_halved (h : x.Sound) (hs : x.Steps p w)
    (hforgets : (x.acting.nextPoint p).forgets = true) {k : Nat} {c : Controller}
    (hused : (x.worked p w).usedHardware = some k)
    (hc : (x.worked p w).controllers[k]? = some c) :
    k ∉ x.kept ∧ (c.slot .valve).output = none := by
  obtain ⟨hsome, hp⟩ := Watering.forgets_nextPoint hforgets
  obtain ⟨hgoes, hhead⟩ := h.goesOn_of_replaced hs hsome hp
  rw [worked_usedHardware hs, hgoes, if_pos rfl, if_neg hhead] at hused
  obtain ⟨hnone, -⟩ | ⟨k', c', -, htouched, -, hk', hne, hc', hspared⟩ := h.touched_cases
  · rw [hnone] at hsome
    cases hsome
  · obtain rfl : k' = k := Option.some.inj (hk'.symm.trans hused)
    change (x.controllers.set x.touched _)[k']? = some c at hc
    rw [htouched, List.getElem?_set_self (List.getElem?_eq_some_iff.mp hc').1] at hc
    obtain rfl := Option.some.inj hc
    refine ⟨fun hkept => ?_, World.valve_touch hforgets⟩
    obtain ⟨again, rfl⟩ := World.eq_lettingGo_of_forgets hforgets
    rw [isSpared, hs.point, hk'] at hspared
    simp [Point.letsGo, hkept] at hspared

/-- A controller that the worker lets go of holds nothing. -/
theorem Sound.worked_gone (h : x.Sound) (hs : x.Steps p w) {k : Nat} {c : Controller}
    (hc : (x.worked p w).controllers[k]? = some c)
    (hfree : (x.worked p w).refersTo k = false) : c.outputs = [] := by
  obtain ⟨hne, hkept, hused⟩ := refersTo_eq_false.mp hfree
  change k ≠ x.hardware at hne
  change k ∉ x.kept at hkept
  change (x.controllers.set x.touched _)[k]? = some c at hc
  by_cases hk : x.touched = k
  · obtain ⟨-, htouched, -⟩ | ⟨k', c', hsome, htouched, hiteration, hk', -, hc', -⟩ :=
      h.touched_cases
    · exact absurd (hk.symm.trans htouched) hne
    · obtain rfl : k' = k := htouched.symm.trans hk
      rw [hk, List.getElem?_set_self (List.getElem?_eq_some_iff.mp hc').1] at hc
      obtain rfl := Option.some.inj hc
      cases hforgets : p.forgets with
      | true =>
        -- The pump's line goes now, and the valve's is gone.
        refine World.outputs_touch hforgets ?_
        rw [hiteration]
        exact (h.halved p hs.point hforgets k' c' hk' hc').2
      | false =>
        -- The iteration goes on, so the worker still refers to it.
        obtain ⟨hgoes, hhead⟩ := h.goesOn_of_replaced hs (by rw [hsome]; rfl) hforgets
        rw [worked_usedHardware hs, hgoes, if_pos rfl, if_neg hhead] at hused
        exact absurd hk' hused
  · rw [List.getElem?_set_ne hk] at hc
    refine h.gone k c hc (refersTo_eq_false.mpr ⟨hne, hkept, fun hk' => ?_⟩)
    obtain ⟨-, -, -, hwhy | hspared⟩ | ⟨k', c', -, htouched, -, hk'', -⟩ := h.touched_cases
    · rcases h.used_of_not_replaced hwhy with hnone | hsame
      · rw [hnone] at hk'
        cases hk'
      · exact hne (Option.some.inj (hk'.symm.trans hsame))
    · -- The worker has let go of it, but the caller keeps it.
      obtain ⟨-, k', hk'', hin⟩ := exists_of_isSpared hspared
      obtain rfl : k' = k := Option.some.inj (hk''.symm.trans hk')
      exact hkept hin
    · exact hk (htouched.trans (Option.some.inj (hk''.symm.trans hk')))

/-- **A step of the worker keeps an exchange sound.** -/
theorem Sound.worked (h : x.Sound) (hs : x.Steps p w) : (x.worked p w).Sound where
  steady := hs.steady
  hardware := h.worked_hardware hs
  timing := by
    change x.timings[x.timing]? = some w.system.timing
    rw [hs.timing]
    exact h.timing
  replaced := h.worked_replaced hs
  ownTiming := h.worked_ownTiming hs
  usesHardware := by
    rw [worked_usedHardware hs, isSome_taken, h.usesHardware_at hs.point,
      ← Watering.usesHardware_nextPoint]
    change _ = (w.system.point?.map Point.usesHardware).getD false
    rw [hs.next]
    rfl
  usesTiming := by
    rw [worked_usedTiming hs, isSome_taken, h.usesTiming_at hs.point,
      ← Watering.usesTiming_nextPoint]
    change _ = (w.system.point?.map Point.usesTiming).getD false
    rw [hs.next]
    rfl
  madeHardware := by
    intro k hk
    change k < (x.controllers.set x.touched _).length
    rw [List.length_set]
    rcases eq_of_taken ((worked_usedHardware hs).symm.trans hk) with rfl | hused
    · exact h.in_force.1
    · exact h.madeHardware k hused
  madeTiming := by
    intro n hn
    change n < x.timings.length
    rcases eq_of_taken ((worked_usedTiming hs).symm.trans hn) with rfl | hused
    · exact h.in_force.2
    · exact h.madeTiming n hused
  madeKept := by
    intro k hk
    change k < (x.controllers.set x.touched _).length
    rw [List.length_set]
    exact h.madeKept k hk
  houses := h.worked_houses hs
  halved := by
    intro q hq hforgets k c hused hc
    obtain rfl := Option.some.inj (hs.next.symm.trans hq)
    exact h.worked_halved hs hforgets hused hc
  gone := fun k c => h.worked_gone hs

end Worked

end Exchange

end Irrigation
