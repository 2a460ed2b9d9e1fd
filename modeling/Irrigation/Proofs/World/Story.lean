import Irrigation.Proofs.World.Switching

/-!
# The story of a job

What the operator is told of a job is a word that depends on how often the devices ran and on
where the stop came (`Story.word`). `Told` says how much of it is told at each part of the job, and
`Told.next` that a step of the worker tells on. So whatever the caller does meanwhile, all that was
told is a row of stories of which the last may not be complete (`World.Storied`).
-/

namespace Irrigation

/-! ## Stories -/

/-- How a job goes. -/
inductive Story
  /-- A stop is pending before the first iteration. -/
  | unbegun
  /-- After the first iteration come `more`, and the last of them is counted or not. -/
  | begun (more : Nat) (counted : Bool)

namespace Story

/-- The devices run once. -/
def lap (s : CycleState) : List Event :=
  [.stateChanged s .irrigating, .stateChanged .irrigating .idling]

/-- Each further time begins when the time before was counted. -/
def laps : Nat → List Event
  | 0 => []
  | n + 1 => laps n ++ .cycleCompleted (n + 1) :: lap .idling

/-- How many cycles are counted. -/
def cycles : Story → Nat
  | unbegun => 0
  | begun n counted => if counted then n + 1 else n

/-- What is told from the begin until the job is torn down. -/
def course : Story → List Event
  | unbegun => [.started, .stateChanged .disabled .tearingDown]
  | begun n counted =>
    .started :: lap .disabled ++ laps n ++ (if counted then [.cycleCompleted (n + 1)] else []) ++
      [.stateChanged .idling .tearingDown]

/-- **The word of a story.** -/
def word (s : Story) : List Event :=
  s.course ++ [.stateChanged .tearingDown .disabled, .stopped s.cycles]

/-- What is told until `n` cycles are counted. -/
def opening : Nat → List Event
  | 0 => [.started]
  | n + 1 => .started :: lap .disabled ++ laps n ++ [.cycleCompleted (n + 1)]

theorem opening_succ (n : Nat) :
    opening (n + 1) = opening n ++ lap (.between n) ++ [.cycleCompleted (n + 1)] := by
  cases n with
  | zero => rfl
  | succ n => simp [opening, laps, CycleState.between]

/-- A stop before the next iteration. -/
theorem course_of_opening (n : Nat) : ∃ s : Story, s.cycles = n ∧
    s.course = opening n ++ [.stateChanged (.between n) .tearingDown] := by
  cases n with
  | zero => exact ⟨.unbegun, rfl, rfl⟩
  | succ n => exact ⟨.begun n true, rfl, rfl⟩

/-- A stop during an iteration. -/
theorem course_of_lap (n : Nat) : ∃ s : Story, s.cycles = n ∧
    s.course = opening n ++ lap (.between n) ++ [.stateChanged .idling .tearingDown] := by
  refine ⟨.begun n false, rfl, ?_⟩
  cases n with
  | zero => rfl
  | succ n => simp [course, opening, laps, CycleState.between]

end Story

/-! ## How much is told -/

/-- What is told of a job at a part of it, when `n` cycles are counted. -/
def Told (n : Nat) (state : CycleState) (part : List Event) : Phase → Prop
  | .heading => part = Story.opening n
  | .watering => part = Story.opening n ++ [.stateChanged (.between n) .irrigating]
  | .idling => part = Story.opening n ++ Story.lap (.between n)
  | .leaving =>
    ∃ s : Story, s.cycles = n ∧ s.course = part ++ [.stateChanged state .tearingDown]
  | .torn => ∃ s : Story, s.cycles = n ∧ s.course = part
  | .ending =>
    ∃ s : Story, s.cycles = n ∧ s.course ++ [.stateChanged .tearingDown .disabled] = part

variable {n : Nat} {state : CycleState} {part : List Event}

theorem told_afterRecheck (h : Told n state part .idling) (on now : Each Bool) (r : Role) :
    Told n state part (Watering.afterRecheck on now r).phase := by
  cases r <;> exact h

theorem told_leaving_of_heading (h : Told n state part .heading)
    (hstate : Phase.heading.Allows n state) : Told n state part .leaving := by
  obtain rfl : part = Story.opening n := h
  obtain rfl : state = .between n := hstate
  exact Story.course_of_opening n

theorem told_leaving_of_idling (h : Told n state part .idling)
    (hstate : Phase.idling.Allows n state) : Told n state part .leaving := by
  obtain rfl : part = Story.opening n ++ Story.lap (.between n) := h
  obtain rfl : state = .idling := hstate
  exact Story.course_of_lap n

theorem told_afterIteration {again : Bool}
    (h : Told n state part (if again then .heading else .idling))
    (hstate : (if again then Phase.heading else .idling).Allows n state) :
    Told n state part (Watering.afterIteration again).phase := by
  cases again with
  | true => exact h
  | false => exact told_leaving_of_idling h hstate

/-- What is told when the job moves to another state. -/
theorem events_entering {s : Watering} {next : CycleState} (h : s.state ≠ next) :
    (s.entering next).filterMap Mark.event? = [.stateChanged s.state next] := by
  rw [Watering.entering, if_neg h]
  rfl

/-- The points where nothing is told. -/
def Point.tells : Point → Bool
  | .enteringIrrigation .. => true
  | .enteringIdle .. => true
  | .counting => true
  | .enteringTearDown => true
  | .enteringDisabled => true
  | .finishing => true
  | _ => false

theorem events_of_not_tells {s : Watering} {p : Point} (h : p.tells = false) :
    (s.marksAt p).filterMap Mark.event? = [] := by
  fun_cases Watering.marksAt s p <;>
    first
    | rfl
    | split <;> rfl
    | cases h

theorem Told.silently {s : Watering} {p : Point} (h : Told s.cycles s.state part p.phase)
    (hstate : p.phase.Allows s.cycles s.state) (hp : p.tells = false) (hlow : p ≠ .lowering) :
    Told s.cycles s.state part (s.nextPoint p).phase := by
  fun_cases Watering.nextPoint s p <;>
    first
    | exact h
    | exact told_afterRecheck h ..
    | exact told_afterIteration h hstate
    | exact told_leaving_of_heading h hstate
    | exact absurd rfl hlow
    | cases hp

theorem afterRecheck_ne_lowering (on now : Each Bool) (r : Role) :
    Watering.afterRecheck on now r ≠ .lowering := by
  cases r <;> rintro ⟨⟩

theorem afterIteration_ne_lowering (again : Bool) : Watering.afterIteration again ≠ .lowering := by
  cases again <;> rintro ⟨⟩

/-- Only the step that tells the end of the job leads to the end of the worker. -/
theorem eq_finishing_of_nextPoint {s : Watering} {p : Point} (h : s.nextPoint p = .lowering) :
    p = .finishing := by
  revert h
  fun_cases Watering.nextPoint s p <;> intro h <;>
    first
    | rfl
    | cases h
    | exact absurd h (afterRecheck_ne_lowering _ _ _)
    | exact absurd h (afterIteration_ne_lowering _)

/-- **A step tells on**, until the story is complete. -/
theorem Told.next {s : Watering} {p : Point} (h : Told s.cycles s.state part p.phase)
    (hstate : p.phase.Allows s.cycles s.state) (hlow : p ≠ .lowering) :
    (p ≠ .finishing ∧ Told (if p = .counting then s.cycles + 1 else s.cycles) (s.stateAfter p)
      (part ++ (s.marksAt p).filterMap Mark.event?) (s.nextPoint p).phase) ∨
    (p = .finishing ∧
      ∃ story : Story, part ++ (s.marksAt p).filterMap Mark.event? = story.word) := by
  cases p with
  | enteringIrrigation on ms =>
    refine .inl ⟨by rintro ⟨⟩, ?_⟩
    obtain rfl : part = Story.opening s.cycles := h
    have hbetween : s.state = .between s.cycles := hstate
    have hne : s.state ≠ .irrigating := by
      rw [hbetween]
      rcases CycleState.between_eq s.cycles with he | he <;> rw [he] <;> rintro ⟨⟩
    rw [Watering.marksAt, events_entering hne, hbetween]
    rfl
  | enteringIdle on stopped =>
    refine .inl ⟨by rintro ⟨⟩, ?_⟩
    have hpart : part =
      Story.opening s.cycles ++ [Event.stateChanged (.between s.cycles) .irrigating] := h
    subst hpart
    have hirrigating : s.state = .irrigating := hstate
    have htold : Told s.cycles .idling (Story.opening s.cycles ++
        [.stateChanged (.between s.cycles) .irrigating] ++ [.stateChanged .irrigating .idling])
        .idling := List.append_assoc ..
    rw [Watering.marksAt, events_entering (by rw [hirrigating]; rintro ⟨⟩), hirrigating]
    cases stopped <;> exact htold
  | counting =>
    refine .inl ⟨by rintro ⟨⟩, ?_⟩
    obtain rfl : part = Story.opening s.cycles ++ Story.lap (.between s.cycles) := h
    exact (Story.opening_succ s.cycles).symm
  | enteringTearDown =>
    refine .inl ⟨by rintro ⟨⟩, ?_⟩
    obtain ⟨story, hcycles, hcourse⟩ := h
    have hne : s.state ≠ .tearingDown := by
      rcases hstate with he | he <;> rw [he] <;> rintro ⟨⟩
    rw [Watering.marksAt, events_entering hne]
    exact ⟨story, hcycles, hcourse⟩
  | enteringDisabled =>
    refine .inl ⟨by rintro ⟨⟩, ?_⟩
    obtain ⟨story, hcycles, rfl⟩ := h
    have htorn : s.state = .tearingDown := hstate
    rw [Watering.marksAt, events_entering (by rw [htorn]; rintro ⟨⟩), htorn]
    exact ⟨story, hcycles, rfl⟩
  | finishing =>
    refine .inr ⟨rfl, ?_⟩
    obtain ⟨story, hcycles, rfl⟩ := h
    refine ⟨story, ?_⟩
    rw [Story.word, hcycles]
    exact List.append_assoc story.course [_] [_]
  | _ =>
    rw [events_of_not_tells rfl, List.append_nil]
    exact .inl ⟨by rintro ⟨⟩, h.silently hstate rfl hlow⟩

/-! ## What holds of a story -/

namespace Story

theorem opening_prefix_lap (n : Nat) : opening n <+: opening n ++ lap (.between n) :=
  List.prefix_append ..

/-- What is told during an iteration is the beginning of a story. -/
theorem exists_word_of_lap (n : Nat) :
    ∃ s : Story, opening n ++ lap (.between n) <+: s.word := by
  obtain ⟨s, -, hcourse⟩ := course_of_lap n
  refine ⟨s, ?_⟩
  rw [word, hcourse]
  exact (List.prefix_append ..).trans (List.prefix_append ..)

end Story

/-- **What is told is the beginning of a story.** -/
theorem Told.exists_word {p : Phase} (h : Told n state part p) : ∃ s : Story, part <+: s.word := by
  cases p with
  | heading =>
    obtain ⟨s, hs⟩ := Story.exists_word_of_lap n
    exact ⟨s, (congrArg (· <+: s.word) h).mpr ((Story.opening_prefix_lap n).trans hs)⟩
  | watering =>
    obtain ⟨s, hs⟩ := Story.exists_word_of_lap n
    refine ⟨s, (congrArg (· <+: s.word) h).mpr (.trans ?_ hs)⟩
    exact (List.prefix_append_right_inj _).mpr ⟨[_], rfl⟩
  | idling =>
    obtain ⟨s, hs⟩ := Story.exists_word_of_lap n
    exact ⟨s, (congrArg (· <+: s.word) h).mpr hs⟩
  | leaving =>
    obtain ⟨s, -, hcourse⟩ := h
    refine ⟨s, ?_⟩
    rw [Story.word, hcourse, List.append_assoc]
    exact List.prefix_append ..
  | torn =>
    obtain ⟨s, -, rfl⟩ := h
    exact ⟨s, List.prefix_append ..⟩
  | ending =>
    obtain ⟨s, -, rfl⟩ := h
    exact ⟨s, (List.prefix_append_right_inj _).mpr ⟨[_], rfl⟩⟩

theorem Story.completes_laps (n : Nat) : (laps n).countP Event.completes = n := by
  induction n with
  | zero => rfl
  | succ n ih =>
    rw [laps, List.countP_append, ih]
    rfl

/-- A story ends with the number of its completed cycles. -/
theorem Story.completes_word (s : Story) : s.word.countP Event.completes = s.cycles := by
  cases s with
  | unbegun => rfl
  | begun n counted =>
    have hlap : (Event.started :: lap .disabled).countP Event.completes = 0 := rfl
    rw [word, course, List.countP_append, List.countP_append, List.countP_append,
      List.countP_append, hlap, completes_laps]
    cases counted <;> simp [cycles, Event.completes]

/-- Where an event leads from a state; `none` if it is a change that begins in another state. -/
def CycleState.follow (s : CycleState) : Event → Option CycleState
  | .stateChanged before after => if before = s then some after else none
  | _ => some s

/-- The event after which the devices are off: irrigation is only ever followed by idling. -/
theorem Story.idling_of_mem_laps {n : Nat} {s : CycleState}
    (h : .stateChanged .irrigating s ∈ laps n) : s = .idling := by
  induction n with
  | zero => cases h
  | succ n ih =>
    rcases List.mem_append.mp h with h | h
    · exact ih h
    · simpa [lap] using h

theorem Story.idling_of_mem_word {story : Story} {s : CycleState}
    (h : .stateChanged .irrigating s ∈ story.word) : s = .idling := by
  cases story with
  | unbegun => simp [word, course] at h
  | begun n counted =>
    have hcounted : .stateChanged .irrigating s ∉
        (if counted then [Event.cycleCompleted (n + 1)] else []) := by
      cases counted <;> simp
    simp only [word, course, List.mem_append, hcounted] at h
    rcases h with ((((h | h) | h) | h) | h)
    · simpa [lap] using h
    · exact idling_of_mem_laps h
    · cases h
    · simp at h
    · simp at h

namespace World

/-! ## What is told of a world -/

/-- What was told: whole stories, then what is told of the job under way. -/
def Storied (w : World) : Prop :=
  ∃ (done : List Story) (part : List Event),
    w.trace.filterMap Mark.event? = done.flatMap Story.word ++ part ∧
    ((part = [] ∧ ∀ p, w.system.point? = some p → p = .lowering ∨ p.isOver = true) ∨
      ∃ p, w.system.point? = some p ∧ p ≠ .lowering ∧ p.isOver = false ∧
        Told w.system.cycles w.system.state part p.phase)

variable {w w' : World}

/-- Nothing is told, and the job stays where it is. -/
theorem Storied.stay (h : w.Storied) (hpoint : w'.system.point? = w.system.point?)
    (hcycles : w'.system.cycles = w.system.cycles) (hstate : w'.system.state = w.system.state)
    (ht : w'.trace = w.trace) : w'.Storied := by
  unfold Storied
  rw [hpoint, hcycles, hstate, ht]
  exact h

/-- **What was told is whole stories**, and while the worker is at it the beginning of one. -/
theorem Storied.words (h : w.Storied) : ∃ (done : List Story) (part : List Event),
    w.trace.filterMap Mark.event? = done.flatMap Story.word ++ part ∧
      (∃ s : Story, part <+: s.word) ∧ (w.system.isWorking = false → part = []) := by
  obtain ⟨done, part, htold, ⟨rfl, -⟩ | ⟨p, hp, -, hworking, hpart⟩⟩ := h
  · exact ⟨done, [], htold, ⟨.unbegun, List.nil_prefix⟩, fun _ => rfl⟩
  · refine ⟨done, part, htold, hpart.exists_word, fun hover => ?_⟩
    rw [Watering.isWorking, hp] at hover
    simp [hworking] at hover

/-- A worker that is over leaves whole stories. -/
theorem Storied.over (h : w.Storied) (hover : w.system.isWorking = false) :
    ∃ done : List Story, w.trace.filterMap Mark.event? = done.flatMap Story.word := by
  obtain ⟨done, part, htold, -, hpart⟩ := h.words
  rw [hpart hover, List.append_nil] at htold
  exact ⟨done, htold⟩

theorem Storied.alone (h : w.Storied) (hover : w.system.isWorking = false)
    (hpoint : w'.system.point? = none) (ht : w'.trace = w.trace) : w'.Storied := by
  obtain ⟨done, hdone⟩ := h.over hover
  refine ⟨done, [], by rw [ht, hdone, List.append_nil], .inl ⟨rfl, fun p hp => ?_⟩⟩
  rw [hpoint] at hp
  cases hp

theorem Storied.started (h : w.Storied) (hsteady : w.Steady) {flow : Option String}
    (hrefusal : w.system.refusal? flow = none) (hs : w'.system = (w.system.start flow).2)
    (ht : w'.trace = w.trace ++ [.told .started]) : w'.Storied := by
  obtain ⟨hidle, hstart⟩ := hsteady.start_eq hrefusal
  obtain ⟨done, hdone⟩ := h.over (hsteady.not_working hidle)
  have hsystem := hs.trans hstart
  refine ⟨done, [.started], ?_, .inr ⟨.starting, ?_, by rintro ⟨⟩, rfl, ?_⟩⟩
  · rw [ht, List.filterMap_append, hdone]
    rfl
  · rw [hsystem]
    rfl
  · rw [hsystem]
    rfl

theorem Storied.worked (h : w.Storied) (hsteady : w.Steady) (hwork : w.system.isWorking)
    (hs : w'.system = w.system.step) (ht : w'.trace = w.trace ++ w.system.marks) :
    w'.Storied := by
  obtain ⟨p, s', hp, hover, hmarks, hstep, ha⟩ := hsteady.step hwork
  have hpoint : w'.system.point? = some (Watering.nextPoint (w.system.actAs .worker) p) := by
    rw [hs, hstep]
    exact ha.point
  obtain ⟨done, part, htold, ⟨rfl, hlow⟩ | ⟨q, hq, hlow, -, hpart⟩⟩ := h
  · obtain rfl : p = .lowering := (hlow p hp).resolve_right (by rw [hover]; rintro ⟨⟩)
    refine ⟨done, [], ?_, .inl ⟨rfl, fun q hq => ?_⟩⟩
    · rw [ht, hmarks, List.filterMap_append, htold]
      exact List.append_nil _
    · rw [hpoint] at hq
      obtain rfl := Option.some.inj hq
      exact .inr rfl
  · obtain rfl := Option.some.inj (hp.symm.trans hq)
    have htrace : w'.trace.filterMap Mark.event? = done.flatMap Story.word ++
        (part ++ ((w.system.actAs .worker).marksAt p).filterMap Mark.event?) := by
      rw [ht, List.filterMap_append, htold, hmarks, List.append_assoc]
    have hstate := (hsteady.settled p hp).state
    rcases hpart.next (s := w.system.actAs .worker) hstate hlow with
      ⟨hfinishing, hnext⟩ | ⟨rfl, story, hword⟩
    · refine ⟨done, _, htrace, .inr ⟨_, hpoint, ?_, ?_, ?_⟩⟩
      · exact fun he => hfinishing (eq_finishing_of_nextPoint he)
      · rw [Watering.isOver_nextPoint hover]
        exact decide_eq_false hlow
      · rw [hs, hstep]
        have hcycles : (s'.actAs .caller).cycles = _ := ha.cycles
        have hstate' : (s'.actAs .caller).state = _ := ha.state
        rw [hcycles, hstate']
        exact hnext
    · refine ⟨done ++ [story], [], ?_, .inl ⟨rfl, fun q hq => ?_⟩⟩
      · rw [htrace, hword, List.flatMap_append, List.append_nil]
        simp
      · rw [hpoint] at hq
        obtain rfl := Option.some.inj hq
        exact .inl rfl

theorem Storied.next (h : w.Storied) (hsteady : w.Steady) {m : Move}
    (hm : w.next m = some w') : w'.Storied := by
  cases next_turn hm with
  | worked hwork hs hc ht => exact h.worked hsteady hwork hs ht
  | started flow hfree hrefusal hs hc ht => exact h.started hsteady hrefusal hs ht
  | asked origin hfree hjob hs hc ht =>
    exact h.stay (by rw [hs]; rfl) (by rw [hs]; rfl) (by rw [hs]; rfl) ht
  | declined origin hfree hjob hs hc ht =>
    refine h.alone (hsteady.not_working_of_no_job hjob) ?_ ht
    rw [hs, hsteady.declineStop_eq]
    rfl
  | raised origin hraising hs hc ht =>
    exact h.stay (by rw [hs, point?_raiseStop]) (by rw [hs]; rfl) (by rw [hs]; rfl) ht
  | joined origin hwaiting hover hs hc ht =>
    refine h.alone hover ?_ ht
    rw [hs, hsteady.concludeStop_eq]
    rfl
  | kept hs hc ht => exact h.stay hs.point hs.cycles hs.state ht

theorem Reachable.storied (h : w.Reachable) : w.Storied := by
  induction h with
  | @wired path lines pins timing enabled s before rig guests hbefore hwired =>
    obtain ⟨rig', -, -, -, hs⟩ := wire_eq_ok hwired
    refine ⟨[], [], rfl, .inl ⟨rfl, fun p hp => ?_⟩⟩
    rw [hs] at hp
    cases hp
  | move hw hm ih => exact ih.next hw.steady hm

end World

end Irrigation
