import Irrigation.Proofs.Exchange.Lines

/-!
# Replacements take effect at the head of the next iteration

Where a controller or durations are not shared, a trade does to the system what the system does by
itself when they are replaced or changed (`Exchange.ActsAlike`). With that, `TakesEffectAtTheHead`
says what replacements come to in every reachable exchange, whoever shares what.
-/

namespace Irrigation

namespace Exchange

variable {x y x' : Exchange}

/-! ## The system's own operations -/

/-- The worker keeps what it has if the numbers say the same of it. -/
theorem Sound.run_eq (h : x.Sound) (hreplaced : y.replaced? = x.replaced?)
    (hown : y.ownTiming? = x.ownTiming?) : x.world.system.run.map (fun w =>
      { w with hardware := y.replaced?, timing := y.ownTiming? }) = x.world.system.run := by
  have hreplaced' := h.replaced
  have hown' := h.ownTiming
  rw [Watering.replaced] at hreplaced'
  rw [Watering.ownTiming] at hown'
  rw [hreplaced, hown, ← hreplaced', ← hown']
  cases x.world.system.run <;> rfl

theorem Sound.run_timing (h : x.Sound) (t : Option Timing) : x.world.system.run.map (fun w =>
    { w with hardware := x.replaced?, timing := t }) =
      x.world.system.run.map fun w => { w with timing := t } := by
  have hreplaced := h.replaced
  rw [Watering.replaced] at hreplaced
  rw [← hreplaced]
  cases x.world.system.run <;> rfl

theorem Sound.run_hardware (h : x.Sound) (c : Option Controller) : x.world.system.run.map (fun w =>
    { w with hardware := c, timing := x.ownTiming? }) =
      x.world.system.run.map fun w => { w with hardware := c } := by
  have hown := h.ownTiming
  rw [Watering.ownTiming] at hown
  rw [← hown]
  cases x.world.system.run <;> rfl

/-- What the system gets in a trade. -/
theorem seat_system {s : Watering} {c : Controller} {t : Timing} {run : Option Worker}
    (hs : y.world.system = s) (hardware : y.controllers[y.hardware]? = some c)
    (htiming : y.timings[y.timing]? = some t)
    (hrun : s.run.map (fun w => { w with hardware := y.replaced?, timing := y.ownTiming? }) = run) :
    y.seat.world.system = { s with hardware := c, timing := t, run } := by
  rw [seat, hardware, htiming, hs, ← hrun]
  rfl

/-- A duration of those in force is set. -/
theorem Sound.adjust_eq (h : x.Sound) {i : Interval} {ms : UInt64}
    (hx : x.next (.adjust x.timing i ms) = some x') :
    x'.world.system = x.world.system.setDuration i ms := by
  obtain ⟨y, hy, rfl⟩ := Option.map_eq_some_iff.mp hx
  cases trade_outcome hy with
  | adjust ht =>
    obtain rfl := Option.some.inj (h.timing.symm.trans ht)
    refine seat_system rfl h.hardware (List.getElem?_set_self h.in_force.2) (h.run_eq rfl ?_)
    exact supplanted_congr (.inl rfl) fun n _ hn => List.getElem?_set_ne hn.symm

/-- The controller in force is moved. -/
theorem Sound.rebind_eq (h : x.Sound) {wanted : Each (Option Offset)}
    (hx : x.next (.rebind x.hardware wanted) = some x') :
    x'.world.system = (x.world.system.rebind wanted).2 := by
  obtain ⟨y, hy, rfl⟩ := Option.map_eq_some_iff.mp hx
  cases trade_outcome hy with
  | rebind _ hfree hc =>
    obtain rfl := Option.some.inj (h.hardware.symm.trans hc)
    rw [Watering.rebind, Watering.awaitLines_of_free hfree]
    refine seat_system rfl (List.getElem?_set_self h.in_force.1) h.timing (h.run_eq ?_ rfl)
    exact supplanted_congr (.inl rfl) fun k _ hk => List.getElem?_set_ne hk.symm

/-! ### Durations are replaced -/

/-- The worker is seen to use the durations in force when the numbers say so. -/
theorem Sound.timingInUse_eq (h : x.Sound)
    (hforgets : ∀ p, x.world.system.point? = some p → p.forgets = false) :
    x.world.system.timingInUse = decide (x.usedTiming = some x.timing) := by
  rw [← isNone_supplanted h.madeTiming, ← ownTiming?, h.usesTiming, ← h.ownTiming,
    Watering.timingInUse, Watering.ownTiming]
  rw [Watering.point?] at hforgets ⊢
  cases hrun : x.world.system.run with
  | none => rfl
  | some w =>
    have hp : w.point.forgets = false := hforgets w.point (by rw [hrun]; rfl)
    change _ = (w.point.usesTiming && w.timing.isNone)
    rw [Point.usesTiming, hp, Bool.or_false]

/-- Durations that the worker does not use are put in force. -/
theorem Sound.choose_eq (h : x.Sound) {n : Nat} {t : Timing} (ht : x.timings[n]? = some t)
    (hother : x.usedTiming ≠ some n)
    (hforgets : ∀ p, x.world.system.point? = some p → p.forgets = false)
    (hx : x.next (.choose n) = some x') :
    x'.world.system = x.world.system.replaceTiming t := by
  obtain ⟨y, hy, rfl⟩ := Option.map_eq_some_iff.mp hx
  cases trade_outcome hy with
  | choose =>
    rw [Watering.replaceTiming, h.timingInUse_eq hforgets]
    by_cases hused : x.usedTiming = some x.timing
    · -- The iteration goes on with the old durations.
      rw [if_pos (decide_eq_true hused)]
      have hne : x.timing ≠ n := fun he => hother (he ▸ hused)
      have hown : ((x.putTiming n).announces "time provider").ownTiming? =
          some x.world.system.timing := (supplanted_of_used hused hne).trans h.timing
      refine seat_system rfl h.hardware ht ?_
      rw [hown]
      exact h.run_timing _
    · rw [if_neg (by simpa using hused)]
      exact seat_system rfl h.hardware ht
        (h.run_eq rfl (supplanted_congr (.inr ⟨hused, hother⟩) fun _ _ _ => rfl))

/-! ### The controller is replaced -/

/-- The worker is seen to use the controller in force when the numbers say so. -/
theorem Sound.hardwareInUse_eq (h : x.Sound) :
    x.world.system.hardwareInUse = decide (x.usedHardware = some x.hardware) := by
  rw [← isNone_supplanted h.madeHardware, ← replaced?, h.usesHardware, ← h.replaced,
    Watering.hardwareInUse]
  cases hrun : x.world.system.run with
  | none => simp [Watering.point?, hrun]
  | some w =>
    have hp : x.world.system.point? = some w.point := by rw [Watering.point?, hrun]; rfl
    have hreplaced : x.world.system.replaced = w.hardware := by rw [Watering.replaced, hrun]; rfl
    rw [hp, hreplaced]
    change (w.point.holdsHardware && w.hardware.isNone) =
      ((w.point.holdsHardware || w.point.forgets) && w.hardware.isNone)
    cases hforgets : w.point.forgets with
    | false => rw [Bool.or_false]
    | true =>
      -- Then the iteration's controller was replaced, and is not the one in force.
      have hsome := (h.steady.settled w.point hp).forgets hforgets
      rw [hreplaced] at hsome
      rw [Option.isNone_eq_false_iff.mpr hsome, Bool.and_false, Bool.and_false]

/-- A controller that the worker does not use is put in force, and nobody keeps the old one. -/
theorem Sound.install_eq (h : x.Sound) {k : Nat} {c : Controller}
    (hc : x.controllers[k]? = some c) (hne : k ≠ x.hardware) (hother : x.usedHardware ≠ some k)
    (hkept : x.hardware ∉ x.kept) (hx : x.next (.install k) = some x') :
    x'.world.system = x.world.system.replaceHardware c := by
  obtain ⟨y, hy, rfl⟩ := Option.map_eq_some_iff.mp hx
  cases trade_outcome hy with
  | install _ hz =>
    rw [Watering.replaceHardware, h.hardwareInUse_eq]
    obtain ⟨hrefers, rfl⟩ | ⟨hfree, hlines, old, hold, rfl⟩ := drop_cases hz
    · -- The iteration goes on with the old controller.
      have hused : x.usedHardware = some x.hardware := by
        simp only [refersTo, putHardware, Bool.or_eq_true, beq_iff_eq, List.contains_iff_mem]
          at hrefers
        exact (hrefers.resolve_left fun he => he.elim hne.symm hkept)
      rw [if_pos (decide_eq_true hused)]
      have hreplaced : ((x.putHardware k).announces "hardware controller").replaced? =
          some x.world.system.hardware := (supplanted_of_used hused hne.symm).trans h.hardware
      refine seat_system rfl hc h.timing ?_
      rw [hreplaced]
      exact h.run_hardware _
    · -- The old controller is dropped at once.
      obtain ⟨-, -, hunused⟩ := refersTo_eq_false.mp hfree
      change x.usedHardware ≠ some x.hardware at hunused
      change x.controllers[x.hardware]? = some old at hold
      obtain rfl := Option.some.inj (h.hardware.symm.trans hold)
      have hlines : x.world.system.linesHeld = false := hlines
      rw [if_neg (by simpa using hunused), Watering.awaitLines_of_free hlines]
      refine seat_system rfl ((List.getElem?_set_ne hne.symm).trans hc) h.timing (h.run_eq ?_ rfl)
      exact supplanted_congr (.inr ⟨hunused, hother⟩) fun j _ hj => List.getElem?_set_ne hj.symm

/-- A controller is built, or it cannot be. -/
theorem Sound.build_eq (h : x.Sound) {pins : Each Pin} (hx : x.next (.build pins) = some x') :
    x'.world.system = { x.world.system with
      rig := (Controller.wire pins x.world.system.rig).2 } := by
  obtain ⟨y, hy, rfl⟩ := Option.map_eq_some_iff.mp hx
  cases trade_outcome hy with
  | unbuilt hwire =>
    rw [hwire]
    exact seat_system rfl h.hardware h.timing (h.run_eq rfl rfl)
  | @built _ c rig hwire =>
    rw [hwire]
    have hmade (k : Nat) (hk : k < x.controllers.length) :
        (x.controllers ++ [c])[k]? = x.controllers[k]? := List.getElem?_append_left hk
    refine seat_system rfl ((hmade _ h.in_force.1).trans h.hardware) h.timing (h.run_eq ?_ rfl)
    exact supplanted_congr (.inl rfl) fun k hused _ => hmade k (h.madeHardware k hused)

/-- The last reference to a spare controller is given up. -/
theorem Sound.forget_eq (h : x.Sound) {k : Nat} {c : Controller} (hc : x.controllers[k]? = some c)
    (hne : k ≠ x.hardware) (hunused : x.usedHardware ≠ some k) (hlast : k ∉ x.kept.erase k)
    (hx : x.next (.forget k) = some x') :
    x'.world.system = { x.world.system with rig := (c.release x.world.system.rig).2 } := by
  obtain ⟨y, hy, rfl⟩ := Option.map_eq_some_iff.mp hx
  cases trade_outcome hy with
  | forget _ hdrop =>
    obtain ⟨hrefers, -⟩ | ⟨-, -, c', hc', rfl⟩ := drop_cases hdrop
    · cases hrefers.symm.trans (refersTo_eq_false.mpr ⟨hne, hlast, hunused⟩)
    · obtain rfl := Option.some.inj (hc.symm.trans hc')
      refine seat_system rfl ((List.getElem?_set_ne hne).trans h.hardware) h.timing
        (h.run_eq ?_ rfl)
      refine supplanted_congr (.inl rfl) fun j hused _ => List.getElem?_set_ne ?_
      rintro rfl
      exact hunused hused

/-- Where nobody shares anything, a trade does to the system what the system does by itself. -/
structure ActsAlike (x : Exchange) : Prop where
  /-- The worker takes a step of his own, unless he is to let go of a controller that is kept. -/
  work : ∀ x', x.next .work = some x' → x.isSpared = false →
    x.world.next .work = some x'.world
  /-- A controller is built, or cannot be built. -/
  build : ∀ pins x', x.next (.build pins) = some x' → x'.world.system =
    { x.world.system with rig := (Controller.wire pins x.world.system.rig).2 }
  /-- The last reference to a spare is given up. -/
  forget : ∀ (k : Nat) (c : Controller) x', x.controllers[k]? = some c → k ≠ x.hardware →
    x.usedHardware ≠ some k → k ∉ x.kept.erase k → x.next (.forget k) = some x' →
      x'.world.system = { x.world.system with rig := (c.release x.world.system.rig).2 }
  /-- Another controller is put in force, and nobody keeps the old one. -/
  install : ∀ (k : Nat) (c : Controller) x', x.controllers[k]? = some c → k ≠ x.hardware →
    x.usedHardware ≠ some k → x.hardware ∉ x.kept → x.next (.install k) = some x' →
      x'.world.system = x.world.system.replaceHardware c
  /-- The controller in force is moved. -/
  rebind : ∀ wanted x', x.next (.rebind x.hardware wanted) = some x' →
    x'.world.system = (x.world.system.rebind wanted).2
  /-- Other durations are put in force. -/
  choose : ∀ (n : Nat) (t : Timing) x', x.timings[n]? = some t → x.usedTiming ≠ some n →
    (∀ p, x.world.system.point? = some p → p.forgets = false) → x.next (.choose n) = some x' →
      x'.world.system = x.world.system.replaceTiming t
  /-- A duration of those in force is set. -/
  adjust : ∀ i ms x', x.next (.adjust x.timing i ms) = some x' →
    x'.world.system = x.world.system.setDuration i ms

theorem Sound.acts_alike (h : x.Sound) : x.ActsAlike where
  work x' hx hspared := by
    obtain ⟨p, w, -, hw, rfl⟩ := next_work hx
    rwa [facing_of_not_spared hspared] at hw
  build _ _ hx := h.build_eq hx
  forget _ _ _ hc hne hunused hlast hx := h.forget_eq hc hne hunused hlast hx
  install _ _ _ hc hne hunused hkept hx := h.install_eq hc hne hunused hkept hx
  rebind _ _ hx := h.rebind_eq hx
  choose _ _ _ ht hunused hforgets hx := h.choose_eq ht hunused hforgets hx
  adjust _ _ _ hx := h.adjust_eq hx

/-! ## What replacements come to -/

/-- What it means that replacements take effect at the head of the next iteration. -/
structure TakesEffectAtTheHead (x : Exchange) : Prop where
  /-- What iterations have left in the log is a row of rounds: an iteration takes a controller and
  durations at its head, and whatever it shows from then on, it shows with these. A complete round
  shows the whole word of the iteration, and reads what the iteration reads. The last round may be
  incomplete while its iteration is under way. -/
  rounds : ∃ (done : List Round) (part : List Entry),
    x.log.filter Entry.belongs = done.flatMap Round.entries ++ part ∧ (∀ r ∈ done, r.Complete) ∧
      (∃ r : Round, r.Begun ∧ part <+: r.entries ∧
        (∀ k, x.usedHardware = some k → k = r.hardware) ∧
        ∀ n, x.usedTiming = some n → n = r.timing) ∧
      ((∀ p, x.world.system.point? = some p → p.inIteration = false) → part = [])
  /-- What is taken was put in force last, and the value of a duration that is read is the one that
  was set last on the durations taken. -/
  fits : AllFit x.log
  /-- What the worker has done, by the journal, is what the log says. -/
  deeds : x.world.system.rig.workerDeeds = x.log.filterMap Entry.deed?
  /-- A call that is shown switches the controller that the iteration has taken. -/
  calls : ∀ t x' new hardware timing role on line, x.next t = some x' → x'.log = x.log ++ new →
    .did hardware timing (.call role on line) ∈ new →
      t = .work ∧ ∃ k c, hardware = some k ∧ x.usedHardware = some k ∧
        x.controllers[k]? = some c ∧ line = (c.slot role).output.map Output.offset ∧
        x'.controllers =
          x.controllers.set k (c.switch role on (x.world.system.actAs .worker).rig).2.1 ∧
        x'.world.system.rig.chip =
          (c.switch role on (x.world.system.actAs .worker).rig).2.2.chip
  /-- The worker leaves all other controllers alone. -/
  others : ∀ k x', x.next .work = some x' → x.usedHardware ≠ some k →
    x'.controllers[k]? = x.controllers[k]?
  /-- A controller to which somebody refers stays on its lines, unless it is moved, or the worker
  alone refers to it and is letting go. -/
  stays : ∀ t x' k, x.next t = some x' → x'.refersTo k = true →
    (∀ wanted, t ≠ .rebind k wanted) →
    (∀ p, t = .work → x.world.system.point? = some p → p.letsGo = true →
      k = x.hardware ∨ k ∈ x.kept) → x.Stays x' k
  /-- Outside of iterations the worker refers to nothing. -/
  unused : (∀ p, x.world.system.point? = some p → p.inIteration = false) →
    x.usedHardware = none ∧ x.usedTiming = none
  /-- A controller to which nobody refers holds nothing. -/
  gone : ∀ (k : Nat) (c : Controller), x.controllers[k]? = some c → x.refersTo k = false →
    c.outputs = []
  /-- A controller that gives up a line, other than in a move, leaves it inactive and released. -/
  yields : ∀ t x', x.next t = some x' → (∀ k wanted, t ≠ .rebind k wanted) → x.Yields x'
  /-- Where nothing is shared, all this is what the system does. -/
  alike : x.ActsAlike

/-- What has been left of a round under way. -/
theorem Underway.begun {part : List Entry} (h : x.Underway part) (hsound : x.Sound) :
    ∃ r : Round, r.Begun ∧ part <+: r.entries ∧
      (∀ k, x.usedHardware = some k → k = r.hardware) ∧
      ∀ n, x.usedTiming = some n → n = r.timing := by
  have hhead (hardware timing : Nat) : Round.Begun ⟨.blank, hardware, timing, []⟩ :=
    ⟨(Iteration.At.takingHardware (i := .blank)).prefix_word, List.nil_prefix⟩
  cases h with
  | outside h =>
    obtain ⟨hunused, hunused'⟩ := hsound.unused_outside h
    refine ⟨⟨.blank, 0, 0, []⟩, hhead 0 0, List.nil_prefix, ?_, ?_⟩
    · rw [hunused]
      rintro _ ⟨⟩
    · rw [hunused']
      rintro _ ⟨⟩
  | takingHardware h =>
    refine ⟨⟨.blank, 0, 0, []⟩, hhead 0 0, ⟨_, rfl⟩, ?_, ?_⟩
    · rw [hsound.usedHardware_eq_none h rfl]
      rintro _ ⟨⟩
    · rw [hsound.usedTiming_eq_none h rfl]
      rintro _ ⟨⟩
  | @takingTiming k h hused =>
    refine ⟨⟨.blank, k, 0, []⟩, hhead k 0, ⟨_, rfl⟩, ?_, ?_⟩
    · rw [hused]
      exact fun _ he => (Option.some.inj he).symm
    · rw [hsound.usedTiming_eq_none h rfl]
      rintro _ ⟨⟩
  | round r h huses hhardware htiming hat hreads =>
    refine ⟨r, ⟨hat.prefix_word, hreads ▸ hat.haveRead_prefix⟩, List.prefix_refl _, ?_, ?_⟩
    · rw [hhardware]
      exact fun _ he => (Option.some.inj he).symm
    · rw [htiming]
      exact fun _ he => (Option.some.inj he).symm

/-- **Replacements take effect at the head of the next iteration**, and what was replaced is given
up when the iteration that uses it is over. -/
theorem takes_effect_at_the_head (h : x.Reachable) : x.TakesEffectAtTheHead where
  rounds := by
    obtain ⟨done, part, hlog, hdone, hpart⟩ := h.remembered.rounds
    exact ⟨done, part, hlog, hdone, hpart.begun h.sound, hpart.eq_nil⟩
  fits := h.remembered.fits
  deeds := h.journaled.recorded.worker.trans h.journaled.deeds
  calls _ _ _ _ _ _ _ _ hx hlog hmem := h.sound.calls hx hlog hmem
  others _ _ hx hunused := by
    obtain ⟨p, w, hp, hw, rfl⟩ := next_work hx
    exact h.sound.worked_others (h.sound.steps hp hw) hunused
  stays _ _ _ hx hrefers hmove hgoes := h.sound.stays hx hrefers hmove hgoes
  unused := h.sound.unused_outside
  gone := h.sound.gone
  yields _ _ hx hmove := h.sound.yields hx hmove
  alike := h.sound.acts_alike

/-- The exchange that trades lead to from a system with both devices enabled, wired on a fresh chip
that nobody else uses. -/
def after (pins : Each Pin) (trades : List Trade) : Option Exchange :=
  (Watering.wire (Rig.openChip "gpiochip0" 54) pins ⟨3000, 4000, 500⟩ (.both true)).toOption.bind
    fun system => run trades (ofWired system [])

theorem Reachable.run (h : x.Reachable) (trades : List Trade)
    (hrun : Exchange.run trades x = some x') : x'.Reachable := by
  induction trades generalizing x with
  | nil =>
    obtain rfl := Option.some.inj hrun
    exact h
  | cons t rest ih =>
    obtain ⟨x₁, ht, hrest⟩ := Option.bind_eq_some_iff.mp hrun
    exact ih (.trade h ht) hrest

theorem reachable_of_after {pins : Each Pin} {trades : List Trade}
    (h : after pins trades = some x) : x.Reachable := by
  obtain ⟨s, hs, hrun⟩ := Option.bind_eq_some_iff.mp h
  exact (Reachable.wired [] rfl (World.eq_ok_of_toOption hs)).run trades hrun

/-- During an activation wait a controller is built and put in force, other durations are put in
force, and one of the old ones is changed. -/
def replacedWhileIrrigating : List Trade :=
  .build ⟨⟨22, .activeHigh⟩, ⟨23, .activeLow⟩⟩ :: .plain (.call (.start none)) ::
    List.replicate 10 .work ++
      [.install 1, .supply ⟨100, 200, 300⟩, .choose 1, .adjust 0 .deactivation 9000] ++
        List.replicate 21 .work

/-- The iteration under way has kept what it had, down to the changed duration, and the old line of
the valve is released. The next iteration has taken what is in force now. -/
theorem replaced_while_irrigating : ∃ x : Exchange,
    after ⟨⟨17, .activeHigh⟩, ⟨27, .activeLow⟩⟩ replacedWhileIrrigating = some x ∧
    (.did (some 0) (some 0) (.reads .deactivation 9000) ∈ x.log ∧
      x.world.system.rig.chip.isClaimed 17 = false ∧
      x.usedHardware = some 1 ∧ x.usedTiming = some 1) ∧ x.TakesEffectAtTheHead := by
  obtain ⟨x, hx, hfacts⟩ := (Option.any_eq_true
    (fun x : Exchange => decide (.did (some 0) (some 0) (.reads .deactivation 9000) ∈ x.log ∧
      x.world.system.rig.chip.isClaimed 17 = false ∧
      x.usedHardware = some 1 ∧ x.usedTiming = some 1)) _).mp
    (show Option.any _ (after ⟨⟨17, .activeHigh⟩, ⟨27, .activeLow⟩⟩ replacedWhileIrrigating) = true
      by rfl)
  exact ⟨x, hx, of_decide_eq_true hfacts, takes_effect_at_the_head (reachable_of_after hx)⟩

end Exchange

end Irrigation
