import Irrigation.Proofs.World.Origins

/-!
# One worker at a time

A system knows the worker of its last start only. To say that no other worker is at work, a `Crew`
keeps the workers that the system has taken leave of, and lets each of them take a step of its own
(`Shift.stray`) as if it still had the system at hand. In every reachable crew they are over, so
that such a step does nothing: of all workers that were ever started, one is at work while a job is
running, and none otherwise. `Crew.one_at_a_time` says this, and what starts do.
-/

namespace Irrigation

/-- What happens in a crew: a move of the world, or a step of a worker that was taken leave of. -/
inductive Shift
  | move (m : Move)
  | stray (i : Nat)

/-- A world, and the workers that its system has taken leave of. -/
structure Crew where
  world : World
  former : List Worker := []

/-- The workers that the system takes leave of in a move: a new one takes the place of the old one,
or a stop finds it over. -/
def World.dismissed (w : World) : Move → List Worker
  | .call (.start flow) => if (w.system.start flow).1 then w.system.run.toList else []
  | .call (.askStop _) => if w.system.hasJob then [] else w.system.run.toList
  | .joinWorker => w.system.run.toList
  | _ => []

namespace Crew

/-- All workers that were ever started. -/
def workers (c : Crew) : List Worker := c.world.system.run.toList ++ c.former

/-- How many of them have something left to do. -/
def active (c : Crew) : Nat := c.workers.countP fun v => !v.point.isOver

/-- The crew after a step of a worker that was taken leave of. -/
def strayed (c : Crew) (i : Nat) (v : Worker) : Crew :=
  let acting : Watering := { c.world.system with run := some v }
  { world := { c.world with
      system := { acting.step with run := c.world.system.run }
      trace := c.world.trace ++ acting.marks }
    former := c.former.set i (acting.step.run.getD v) }

/-- The crew after a shift; `none` if it cannot be made now. -/
def next (c : Crew) : Shift → Option Crew
  | .move m => (c.world.next m).map fun w => ⟨w, c.world.dismissed m ++ c.former⟩
  | .stray i => c.former[i]?.map (c.strayed i)

/-- Several shifts, one after the other. -/
def run : List Shift → Crew → Option Crew
  | [], c => some c
  | x :: rest, c => (c.next x).bind (run rest)

/-- The crews that shifts lead to from a wired system. -/
inductive Reachable : Crew → Prop
  | wired {path : String} {lines : Nat} {pins : Each Pin} {timing : Timing} {enabled : Each Bool}
      {s : Watering} (before : List GuestMove) {rig : Rig} {guests : List Output}
      (hbefore : before.foldl (fun x g => g.apply x) (Rig.openChip path lines, []) = (rig, guests))
      (hwired : Watering.wire rig pins timing enabled = .ok s) :
      Reachable { world := { system := s, guests } }
  | next {c c' : Crew} {x : Shift} (h : Reachable c) (hx : c.next x = some c') : Reachable c'

variable {c c' : Crew}

theorem next_move {m : Move} (h : c.next (.move m) = some c') :
    c.world.next m = some c'.world ∧ c'.former = c.world.dismissed m ++ c.former := by
  obtain ⟨w, hw, rfl⟩ := Option.map_eq_some_iff.mp h
  exact ⟨hw, rfl⟩

theorem next_stray {i : Nat} (h : c.next (.stray i) = some c') :
    ∃ v, c.former[i]? = some v ∧ c' = c.strayed i v := by
  obtain ⟨v, hv, rfl⟩ := Option.map_eq_some_iff.mp h
  exact ⟨v, hv, rfl⟩

end Crew

namespace World

variable {w w' : World}

/-! ## Who is taken leave of -/

theorem ended_of_over (h : w.Steady) (hover : w.system.isWorking = false) {v : Worker}
    (hv : v ∈ w.system.run.toList) : v.point = .ended := by
  have hrun : w.system.run = some v := Option.mem_toList.mp hv
  have hpoint : w.system.point? = some v.point := by rw [Watering.point?, hrun]; rfl
  have hpover : v.point.isOver = true := by
    rw [Watering.isWorking, hpoint] at hover
    simpa using hover
  have halive := (h.settled _ hpoint).alive
  cases hp : v.point with
  | ended => rfl
  | crashed => exact absurd hp halive
  | _ =>
    rw [hp] at hpover
    cases hpover

theorem Steady.not_working_of_start (h : w.Steady) {flow : Option String}
    (haccepted : (w.system.start flow).1 = true) :
    w.system.refusal? flow = none ∧ w.system.isWorking = false := by
  cases hrefusal : w.system.refusal? flow with
  | some reason =>
    rw [Watering.start, hrefusal] at haccepted
    cases haccepted
  | none => exact ⟨rfl, h.not_working (h.start_eq hrefusal).1⟩

/-- The system takes leave of a worker only when it is over. -/
theorem Steady.ended_of_dismissed (h : w.Steady) {m : Move} (hm : w.next m = some w') {v : Worker}
    (hv : v ∈ w.dismissed m) : v.point = .ended := by
  unfold dismissed at hv
  split at hv
  · split at hv
    · next haccepted => exact ended_of_over h (h.not_working_of_start haccepted).2 hv
    · cases hv
  · split at hv
    · cases hv
    · next hjob =>
      exact ended_of_over h (h.not_working_of_no_job (Bool.eq_false_iff.mpr hjob)) hv
  · obtain ⟨-, -, hover, -⟩ := next_joinWorker hm
    exact ended_of_over h hover hv
  · cases hv

/-- A worker does not tell that a job is started. -/
theorem started_notMem_marksAt (s : Watering) (p : Point) : .told .started ∉ s.marksAt p := by
  fun_cases Watering.marksAt s p <;> grind [Watering.entering]

theorem started_notMem_marks (s : Watering) : .told .started ∉ s.marks := by
  unfold Watering.marks
  cases s.point? with
  | none => exact List.not_mem_nil
  | some p => exact started_notMem_marksAt s p

theorem length_run_of_point {s s' : Watering} (h : s'.point? = s.point?) :
    s'.run.toList.length = s.run.toList.length := by
  have hsome := congrArg Option.isSome h
  rw [Watering.point?, Watering.point?, Option.isSome_map, Option.isSome_map] at hsome
  cases hs : s.run <;> cases hs' : s'.run <;> rw [hs, hs'] at hsome <;> first | rfl | cases hsome

/-- No worker gets lost, and only a start makes one. -/
theorem Steady.count_workers (h : w.Steady) {m : Move} (hm : w.next m = some w') :
    (w.dismissed m).length + w'.system.run.toList.length + w.trace.count (.told .started) =
      w.system.run.toList.length + w'.trace.count (.told .started) := by
  cases m with
  | work =>
    obtain ⟨hwork, rfl⟩ := next_work hm
    obtain ⟨p, s', hp, -, -, hstep, ha⟩ := h.step hwork
    obtain ⟨v, hv, -⟩ := exists_worker hp
    obtain ⟨v', hv', -⟩ := exists_worker ha.point
    have hrun : w.system.step.run = some v' := by rw [hstep]; exact hv'
    -- A step keeps the worker, and shows no start.
    have hnone := List.count_eq_zero.mpr (started_notMem_marks w.system)
    simp only [dismissed, hrun, hv, List.count_append, hnone]
    rfl
  | raiseStop =>
    obtain ⟨origin, -, rfl⟩ := next_raiseStop hm
    have hlength := length_run_of_point (point?_raiseStop w.system)
    simp only [dismissed, List.length_nil, Nat.zero_add, hlength]
  | joinWorker =>
    obtain ⟨origin, -, -, rfl⟩ := next_joinWorker hm
    simp only [dismissed, h.concludeStop_eq]
    rfl
  | guest g =>
    obtain rfl := Option.some.inj hm
    simp only [dismissed, List.length_nil, Nat.zero_add]
  | call c =>
    obtain ⟨-, hc⟩ := next_call hm
    cases haside : c.isAside with
    | true =>
      obtain ⟨hs, -, ht⟩ := call_aside haside hc
      have hlength := length_run_of_point hs.point
      have hnone : w.dismissed (.call c) = [] := by cases c <;> first | rfl | cases haside
      rw [hnone, hlength, ht, List.length_nil, Nat.zero_add]
    | false =>
      cases c with
      | start flow =>
        obtain ⟨reason, -, hstart, rfl⟩ | ⟨hrefusal, haccepted, rfl⟩ := call_start hc
        · simp [dismissed, hstart, Watering.report, Irrigation.report, notify, log, record]
        · simp only [dismissed, haccepted, if_true, (h.start_eq hrefusal).2, List.count_append]
          simp
          omega
      | askStop origin =>
        obtain ⟨hjob, rfl⟩ | ⟨hjob, rfl⟩ := call_askStop hc
        · simp only [dismissed, hjob, if_true]
          simp [Watering.announceStop, log, record]
        · simp only [dismissed, hjob, h.declineStop_eq]
          simp
      | _ => cases haside

/-! ## What changes while no job is running -/

/-- Only a start that is accepted makes a job run. -/
theorem Steady.idle_next (h : w.Steady) (hidle : w.system.running = false) {m : Move}
    (hm : w.next m = some w') :
    (w'.system.running = false ∧ m ≠ .work) ∨
      ∃ flow, m = .call (.start flow) ∧ (w.system.start flow).1 = true := by
  cases m with
  | work =>
    obtain ⟨hwork, -⟩ := next_work hm
    rw [h.not_working hidle] at hwork
    cases hwork
  | raiseStop =>
    obtain ⟨origin, -, rfl⟩ := next_raiseStop hm
    exact .inl ⟨hidle, by rintro ⟨⟩⟩
  | joinWorker =>
    obtain ⟨origin, -, -, rfl⟩ := next_joinWorker hm
    refine .inl ⟨?_, by rintro ⟨⟩⟩
    simp only [h.concludeStop_eq]
    exact hidle
  | guest g =>
    obtain rfl := Option.some.inj hm
    exact .inl ⟨hidle, by rintro ⟨⟩⟩
  | call c =>
    obtain ⟨-, hc⟩ := next_call hm
    cases haside : c.isAside with
    | true => exact .inl ⟨(call_aside haside hc).1.running.trans hidle, by rintro ⟨⟩⟩
    | false =>
      cases c with
      | start flow =>
        obtain ⟨reason, -, -, rfl⟩ | ⟨-, haccepted, -⟩ := call_start hc
        · exact .inl ⟨hidle, by rintro ⟨⟩⟩
        · exact .inr ⟨flow, rfl, haccepted⟩
      | askStop origin =>
        refine .inl ⟨?_, by rintro ⟨⟩⟩
        obtain ⟨-, rfl⟩ | ⟨-, rfl⟩ := call_askStop hc
        · exact hidle
        · simp only [h.declineStop_eq]
          exact hidle
      | _ => cases haside

/-- A caller who is free stays so unless he asks for a stop. -/
theorem free_next (hfree : w.caller = .free) {m : Move} (hm : w.next m = some w')
    (hask : ∀ origin, m ≠ .call (.askStop origin)) : w'.caller = .free := by
  cases m with
  | work =>
    obtain ⟨-, rfl⟩ := next_work hm
    exact hfree
  | raiseStop =>
    obtain ⟨origin, hraising, -⟩ := next_raiseStop hm
    rw [hfree] at hraising
    cases hraising
  | joinWorker =>
    obtain ⟨origin, -, -, rfl⟩ := next_joinWorker hm
    rfl
  | guest g =>
    obtain rfl := Option.some.inj hm
    exact hfree
  | call c =>
    obtain ⟨-, hc⟩ := next_call hm
    cases haside : c.isAside with
    | true => exact (call_aside haside hc).2.1.trans hfree
    | false =>
      cases c with
      | start flow =>
        obtain ⟨_, -, -, rfl⟩ | ⟨-, -, rfl⟩ := call_start hc
        · exact hfree
        · exact hfree
      | askStop origin => exact absurd rfl (hask origin)
      | _ => cases haside

end World

namespace Watering

variable {s : Watering} {flow : Option String}

/-- **When a start is accepted.** -/
theorem start_accepted_iff : (s.start flow).1 = true ↔
    (flow = none ∨ flow = some cycledFlow) ∧ s.running = false ∧
      (s.enabled.valve = true ∨ s.enabled.pump = true) := by
  have hrefusal : (s.start flow).1 = true ↔ s.refusal? flow = none := by
    rw [start]
    cases s.refusal? flow <;> simp
  rw [hrefusal, refusal?]
  cases flow with
  | none => cases s.running <;> cases hv : s.enabled.valve <;> simp [Each.any, hv]
  | some name =>
    by_cases hname : name = cycledFlow
    · subst hname
      cases s.running <;> cases hv : s.enabled.valve <;> simp [Option.filter, Each.any, hv]
    · simp [Option.filter, hname]

/-- A start that is refused leaves a warning, and nothing else. -/
theorem start_refused (hactor : s.rig.actor = .caller) (hrefused : (s.start flow).1 = false) :
    ∃ reason, s.refusal? flow = some reason ∧ (s.start flow).2 =
      World.rejournal s (s.rig.journal ++
        [(.caller, .log .warn ("Watering" ++ ": " ++ reason)),
          (.caller, .emitted (.notice .warn reason))]) := by
  cases hrefusal : s.refusal? flow with
  | none =>
    rw [start, hrefusal] at hrefused
    cases hrefused
  | some reason =>
    refine ⟨reason, rfl, ?_⟩
    rw [start, hrefusal, ← hactor]
    exact congrArg (World.rejournal s) (List.append_assoc s.rig.journal [_] [_])

end Watering

namespace Crew

variable {c c' : Crew}

/-! ## The invariant -/

/-- What is so in every reachable crew. -/
structure Sound (c : Crew) : Prop where
  reachable : c.world.Reachable
  /-- Every worker that was taken leave of has ended. -/
  ended : ∀ v ∈ c.former, v.point = .ended
  /-- Each start has made one worker, and none is lost. -/
  counted : c.former.length + c.world.system.run.toList.length =
    c.world.trace.count (.told .started)

/-- A worker that has ended does nothing. -/
theorem strayed_eq (hactor : c.world.system.rig.actor = .caller) {i : Nat} {v : Worker}
    (hi : c.former[i]? = some v) (hv : v.point = .ended) : c.strayed i v = c := by
  obtain ⟨w, former⟩ := c
  let acting : Watering := { w.system with run := some v }
  have hpoint : acting.point? = some .ended := congrArg some hv
  have hstep : acting.step = acting := by
    rw [Watering.step, hpoint]
    change { acting with rig := { acting.rig with actor := .caller } } = acting
    rw [← show acting.rig.actor = .caller from hactor]
  have hmarks : acting.marks = [] := by
    rw [Watering.marks, hpoint]
    rfl
  obtain ⟨hlt, hget⟩ := List.getElem?_eq_some_iff.mp hi
  have hset : former.set i v = former := by rw [← hget]; exact List.set_getElem_self hlt
  change (⟨{ w with
      system := { acting.step with run := w.system.run }, trace := w.trace ++ acting.marks },
    former.set i (acting.step.run.getD v)⟩ : Crew) = _
  rw [hstep, hmarks, List.append_nil]
  exact congrArg (Crew.mk w) hset

theorem Sound.next_stray (h : c.Sound) {i : Nat} (hx : c.next (.stray i) = some c') : c' = c := by
  obtain ⟨v, hi, rfl⟩ := Crew.next_stray hx
  exact strayed_eq h.reachable.steady.actor hi (h.ended v (List.mem_of_getElem? hi))

theorem Sound.next (h : c.Sound) {x : Shift} (hx : c.next x = some c') : c'.Sound := by
  cases x with
  | stray i =>
    rw [h.next_stray hx]
    exact h
  | move m =>
    obtain ⟨hm, hformer⟩ := next_move hx
    have hsteady := h.reachable.steady
    refine ⟨.move h.reachable hm, fun v hv => ?_, ?_⟩
    · rw [hformer] at hv
      rcases List.mem_append.mp hv with hv | hv
      · exact hsteady.ended_of_dismissed hm hv
      · exact h.ended v hv
    · have hcount := hsteady.count_workers hm
      have hbefore := h.counted
      rw [hformer, List.length_append]
      omega

theorem Reachable.sound (h : c.Reachable) : c.Sound := by
  induction h with
  | wired before hbefore hwired =>
    refine ⟨.wired before hbefore hwired, fun v hv => absurd hv List.not_mem_nil, ?_⟩
    obtain ⟨rig', -, -, -, hs⟩ := World.wire_eq_ok hwired
    rw [hs]
    rfl
  | next _ hx ih => exact ih.next hx

/-- What every shift of a kind keeps, a run of such shifts keeps. -/
theorem run_induction {P : Crew → Prop} {A : Shift → Prop}
    (hnext : ∀ {c c' x}, P c → A x → c.next x = some c' → P c') (h : P c) (shifts : List Shift)
    (hshifts : ∀ x ∈ shifts, A x) (hrun : Crew.run shifts c = some c') : P c' := by
  induction shifts generalizing c with
  | nil =>
    obtain rfl := Option.some.inj hrun
    exact h
  | cons x rest ih =>
    obtain ⟨c₁, hx, hrest⟩ := Option.bind_eq_some_iff.mp hrun
    rw [List.forall_mem_cons] at hshifts
    exact ih (hnext h hshifts.1 hx) hshifts.2 hrest

theorem Reachable.run (h : c.Reachable) (shifts : List Shift)
    (hrun : Crew.run shifts c = some c') : c'.Reachable :=
  run_induction (A := fun _ => True) (fun h _ hx => .next h hx) h shifts (fun _ _ => trivial) hrun

/-- Every reachable world is the world of a reachable crew. -/
theorem exists_of_world {w : World} (h : w.Reachable) : ∃ former, Reachable ⟨w, former⟩ := by
  induction h with
  | wired before hbefore hwired => exact ⟨[], .wired before hbefore hwired⟩
  | @move w w' m _ hm ih =>
    obtain ⟨former, hcrew⟩ := ih
    refine ⟨w.dismissed m ++ former, .next (x := .move m) hcrew ?_⟩
    rw [Crew.next, hm]
    rfl

/-! ## Who is at work -/

/-- A worker is at work while a job is running, and not otherwise. -/
theorem Sound.active_eq (h : c.Sound) : c.active = c.world.system.running.toNat := by
  have hsteady := h.reachable.steady
  have hformer : c.former.countP (fun v => !v.point.isOver) = 0 := by
    refine List.countP_eq_zero.mpr fun v hv => ?_
    rw [h.ended v hv]
    exact Bool.false_ne_true
  rw [active, workers, List.countP_append, hformer, Nat.add_zero]
  cases hrun : c.world.system.run with
  | none =>
    have hpoint : c.world.system.point? = none := by rw [Watering.point?, hrun]; rfl
    rw [(hsteady.alone hpoint).2.1]
    rfl
  | some v =>
    have hpoint : c.world.system.point? = some v.point := by rw [Watering.point?, hrun]; rfl
    rw [(hsteady.settled _ hpoint).running]
    cases hover : v.point.isOver <;> simp [hover]

/-- **While no job is running nobody works** until a start is accepted. -/
theorem Reachable.quiet (h : c.Reachable) (hidle : c.world.system.running = false)
    (shifts : List Shift) (hrun : Crew.run shifts c = some c') :
    (c'.world.system.running = false ∧ .move .work ∉ shifts) ∨
      ∃ before flow rest v, shifts = before ++ .move (.call (.start flow)) :: rest ∧
        .move .work ∉ before ∧ Crew.run before c = some v ∧ v.world.system.running = false ∧
        (v.world.system.start flow).1 = true := by
  induction shifts generalizing c with
  | nil =>
    obtain rfl := Option.some.inj hrun
    exact .inl ⟨hidle, List.not_mem_nil⟩
  | cons x rest ih =>
    obtain ⟨c₁, hx, hrest⟩ := Option.bind_eq_some_iff.mp hrun
    -- Any first shift but a step or a start that is accepted leaves no job running, and is put in
    -- front of what the rest is found to be.
    have hon : c₁.world.system.running = false → x ≠ .move .work →
        (c'.world.system.running = false ∧ .move .work ∉ x :: rest) ∨
          ∃ before flow rest' v, x :: rest = before ++ .move (.call (.start flow)) :: rest' ∧
            .move .work ∉ before ∧ Crew.run before c = some v ∧
            v.world.system.running = false ∧ (v.world.system.start flow).1 = true := by
      intro hidle₁ hne
      rcases ih (.next h hx) hidle₁ hrest with ⟨hend, hnot⟩ |
        ⟨before, flow, rest', v, hsplit, hnot, hbefore, hv⟩
      · exact .inl ⟨hend, List.not_mem_cons_of_ne_of_not_mem hne.symm hnot⟩
      · refine .inr ⟨x :: before, flow, rest', v, by rw [hsplit]; rfl,
          List.not_mem_cons_of_ne_of_not_mem hne.symm hnot, ?_, hv⟩
        rw [Crew.run, hx]
        exact hbefore
    cases x with
    | stray i =>
      refine hon ?_ (by rintro ⟨⟩)
      rw [h.sound.next_stray hx]
      exact hidle
    | move m =>
      obtain ⟨hm, -⟩ := next_move hx
      rcases h.sound.reachable.steady.idle_next hidle hm with ⟨hidle₁, hne⟩ | ⟨flow, rfl, hacc⟩
      · exact hon hidle₁ fun he => hne (Shift.move.inj he)
      · exact .inr ⟨[], flow, rest, c, rfl, List.not_mem_nil, rfl, hidle, hacc⟩

/-- A caller who is free stays so until he asks for a stop. -/
theorem Reachable.free (h : c.Reachable) (hfree : c.world.caller = .free) (shifts : List Shift)
    (hask : ∀ origin, .move (.call (.askStop origin)) ∉ shifts)
    (hrun : Crew.run shifts c = some c') : c'.world.caller = .free := by
  refine (run_induction (P := fun v => v.Reachable ∧ v.world.caller = .free)
    (A := fun x => ∀ origin, x ≠ .move (.call (.askStop origin))) (fun {c c' x} h hne hx => ?_)
    ⟨h, hfree⟩ shifts (fun x hx origin he => hask origin (he ▸ hx)) hrun).2
  refine ⟨.next h.1 hx, ?_⟩
  cases x with
  | stray i =>
    rw [h.1.sound.next_stray hx]
    exact h.2
  | move m =>
    exact World.free_next h.2 (next_move hx).1 fun origin he => hne origin (congrArg Shift.move he)

/-! ## What follows -/

/-- What it means that a crew has one worker at a time. -/
structure OneAtATime (c : Crew) : Prop where
  /-- Of all workers that were ever started, one has something left to do while a job is running,
  and none otherwise. -/
  alone : c.active = c.world.system.running.toNat
  /-- A step of a worker that was taken leave of does nothing. -/
  stray : ∀ i c', c.next (.stray i) = some c' → c' = c
  /-- The state is disabled unless a job is running. -/
  disabled : c.world.system.state ≠ .disabled → c.world.system.running = true
  /-- While no job is running nobody works, until a start is accepted. -/
  quiet : c.world.system.running = false → ∀ (shifts : List Shift) (c' : Crew),
    Crew.run shifts c = some c' →
      (c'.world.system.running = false ∧ .move .work ∉ shifts) ∨
        ∃ before flow rest v, shifts = before ++ .move (.call (.start flow)) :: rest ∧
          .move .work ∉ before ∧ Crew.run before c = some v ∧ v.world.system.running = false ∧
          (v.world.system.start flow).1 = true
  /-- When a start is accepted. -/
  accepts : ∀ flow, (c.world.system.start flow).1 = true ↔
    (flow = none ∨ flow = some "cycled") ∧ c.world.system.running = false ∧
      (c.world.system.enabled.valve = true ∨ c.world.system.enabled.pump = true)
  /-- Then one new worker is at work, and the old one, if there was one, is taken leave of. -/
  begins : ∀ flow, c.world.caller = .free → (c.world.system.start flow).1 = true →
    ∃ c', c.next (.move (.call (.start flow))) = some c' ∧
      World.BeginsAnew c'.world.system ∧ c'.active = 1 ∧
      c'.former.length + 1 = c'.world.trace.count (.told .started) ∧
      c'.world.trace.count (.told .started) = c.world.trace.count (.told .started) + 1
  /-- Its stop signal is its own: none is pending until the caller asks for a stop again. -/
  fresh : ∀ flow (shifts : List Shift) c', (c.world.system.start flow).1 = true →
    (∀ origin, .move (.call (.askStop origin)) ∉ shifts) →
      Crew.run (.move (.call (.start flow)) :: shifts) c = some c' →
        c'.world.system.stopPending = false
  /-- A start that is refused leaves a warning, and nothing else. -/
  refused : ∀ flow, c.world.caller = .free → (c.world.system.start flow).1 = false →
    ∃ reason, c.world.system.refusal? flow = some reason ∧
      c.next (.move (.call (.start flow))) = some { c with world := { c.world with
        system := World.rejournal c.world.system (c.world.system.rig.journal ++
          [(.caller, .log .warn ("Watering" ++ ": " ++ reason)),
            (.caller, .emitted (.notice .warn reason))]) } }

/-- Whether it is accepted or not, a caller who is free can make a start. -/
theorem next_start (hfree : c.world.caller = .free) (flow : Option String) :
    c.next (.move (.call (.start flow))) = some
      { world := { c.world with
          system := (c.world.system.start flow).2
          trace := if (c.world.system.start flow).1 then c.world.trace ++ [.told .started]
            else c.world.trace }
        former := c.world.dismissed (.call (.start flow)) ++ c.former } := by
  rw [Crew.next, World.next, hfree]
  rfl

theorem Sound.begins (h : c.Sound) {flow : Option String} (hfree : c.world.caller = .free)
    (haccepted : (c.world.system.start flow).1 = true) :
    ∃ c', c.next (.move (.call (.start flow))) = some c' ∧
      World.BeginsAnew c'.world.system ∧ c'.active = 1 ∧
      c'.former.length + 1 = c'.world.trace.count (.told .started) ∧
      c'.world.trace.count (.told .started) = c.world.trace.count (.told .started) + 1 := by
  have hx := next_start hfree flow
  rw [if_pos haccepted] at hx
  have hsound := h.next hx
  have hanew := h.reachable.steady.begins_anew haccepted
  have hcounted := hsound.counted
  have hactive := hsound.active_eq
  rw [hanew.run] at hcounted
  rw [hanew.running] at hactive
  refine ⟨_, hx, hanew, hactive, hcounted, ?_⟩
  rw [List.count_append]
  rfl

theorem Sound.refused (h : c.Sound) {flow : Option String} (hfree : c.world.caller = .free)
    (hrefused : (c.world.system.start flow).1 = false) :
    ∃ reason, c.world.system.refusal? flow = some reason ∧
      c.next (.move (.call (.start flow))) = some { c with world := { c.world with
        system := World.rejournal c.world.system (c.world.system.rig.journal ++
          [(.caller, .log .warn ("Watering" ++ ": " ++ reason)),
            (.caller, .emitted (.notice .warn reason))]) } } := by
  obtain ⟨reason, hreason, hs⟩ := Watering.start_refused h.reachable.steady.actor hrefused
  refine ⟨reason, hreason, ?_⟩
  rw [next_start hfree, World.dismissed, hrefused, hs]
  rfl

/-- **One worker at a time**, whoever takes a step when. -/
theorem one_at_a_time (h : c.Reachable) : c.OneAtATime where
  alone := h.sound.active_eq
  stray := fun _ _ => h.sound.next_stray
  disabled := by
    intro hstate
    cases hrunning : c.world.system.running with
    | true => rfl
    | false =>
      have hsteady := h.sound.reachable.steady
      exact absurd (hsteady.not_running (hsteady.not_working hrunning)).2 hstate
  quiet := fun hidle shifts _ => h.quiet hidle shifts
  accepts := fun _ => Watering.start_accepted_iff
  begins := fun _ => h.sound.begins
  fresh := by
    intro flow shifts c' haccepted hask hrun
    obtain ⟨c₁, hx, hrest⟩ := Option.bind_eq_some_iff.mp hrun
    have hfree := (World.next_call (next_move hx).1).1
    have hreach : Reachable c₁ := .next h hx
    have hfree₁ := World.free_next hfree (next_move hx).1 (by rintro origin ⟨⟩)
    exact (hreach.run shifts hrest).sound.reachable.steady.no_stop
      (hreach.free hfree₁ shifts hask hrest)
  refused := fun _ => h.sound.refused

/-- The crew that shifts lead to from a system wired on a fresh chip that nobody else uses. -/
def after (pins : Each Pin) (shifts : List Shift) : Option Crew :=
  (Watering.wire (Rig.openChip "gpiochip0" 54) pins ⟨3000, 4000, 500⟩ (.both true)).toOption.bind
    fun system => run shifts { world := { system } }

theorem reachable_of_after {pins : Each Pin} {shifts : List Shift} {c : Crew}
    (h : after pins shifts = some c) : c.Reachable := by
  obtain ⟨s, hs, hrun⟩ := Option.bind_eq_some_iff.mp h
  exact (Reachable.wired [] rfl (World.eq_ok_of_toOption hs)).run shifts hrun

/-- A job has ended by itself, another one was started, and the worker of the first one is still
there to take a step. -/
theorem one_at_a_time_after_self_ending : ∃ c : Crew,
    after ⟨⟨17, .activeHigh⟩, ⟨27, .activeLow⟩⟩
      (.move (.call (.start none)) :: .move (.call (.enable .valve false)) ::
        .move (.call (.enable .pump false)) :: List.replicate 22 (.move .work) ++
          [.move (.call (.enable .pump true)), .move (.call (.start none)), .stray 0]) = some c ∧
    (c.world.system.running && c.former.length == 1) = true ∧ c.OneAtATime := by
  obtain ⟨c, hc, hfacts⟩ := (Option.any_eq_true
    (fun c : Crew => c.world.system.running && c.former.length == 1) _).mp
    (show Option.any _ (after ⟨⟨17, .activeHigh⟩, ⟨27, .activeLow⟩⟩
      (.move (.call (.start none)) :: .move (.call (.enable .valve false)) ::
        .move (.call (.enable .pump false)) :: List.replicate 22 (.move .work) ++
          [.move (.call (.enable .pump true)), .move (.call (.start none)), .stray 0])) = true
      by rfl)
  exact ⟨c, hc, hfacts, one_at_a_time (reachable_of_after hc)⟩

end Crew

end Irrigation
