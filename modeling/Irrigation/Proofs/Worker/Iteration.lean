import Irrigation.Proofs.Worker.Marks

/-!
# The word of an iteration

What an iteration shows of its switching is a word that depends on a few data only: the flags read
at its head, whether a stop ended the activation wait, the flags read again, how the gap and the
deactivation wait went, and whether the controller was replaced meanwhile (`Iteration.word`).
`Iteration.At` says how much of the word is written when the worker is at a point, and
`Iteration.At.next` that a step writes on.
-/

namespace Irrigation

/-! ## Shapes -/

/-- What counts of a mark for the order of switching: the lines are left out, and so are the
durations of the long waits and the changes of state. -/
def Mark.shape? : Mark → Option Mark
  | .call r on _ => some (.call r on none)
  | .gaveUp r _ => some (.gaveUp r none)
  | .reads .separation ms => some (.reads .separation ms)
  | .reads .. => none
  | .told (.cycleCompleted n) => some (.told (.cycleCompleted n))
  | .told _ => none
  | m => some m

/-- The marks that show the order of switching. -/
def shape (trace : List Mark) : List Mark := trace.filterMap Mark.shape?

theorem shape_append (trace new : List Mark) : shape (trace ++ new) = shape trace ++ shape new :=
  List.filterMap_append

/-! ## Words -/

/-- A gap between the two calls that switch off: its length, whether a stop was pending as it
began, and whether there was one as it ended. -/
structure Gap where
  ms : UInt64
  pending : Bool
  raised : Bool

/-- A gap lasts its length if a stop was pending already, and else unless a stop is raised. -/
def Gap.word (g : Gap) : List Mark :=
  [.reads .separation g.ms, .gap g.pending,
    .waited .separation g.ms g.raised (g.pending || !g.raised)]

/-- What the course of an iteration depends on. -/
structure Iteration where
  /-- The flags read at the head. -/
  on : Each Bool
  /-- The activation wait, and whether a stop ended it. -/
  ms : UInt64
  stopped : Bool
  /-- The flags read again. -/
  now : Each Bool
  gap : Gap
  /-- The deactivation wait, and whether a stop ended it. -/
  rest : UInt64
  cut : Bool
  /-- The number of the cycle if it is counted. -/
  cycle : Nat
  /-- Whether the controller was replaced meanwhile, so that it is dropped at the end. When the
  caller did so is in the recording of the run (`World.recording`). -/
  replaced : Bool

namespace Iteration

/-- One attempt to switch a device, if it takes part. -/
def attempt (r : Role) (on takesPart : Bool) : List Mark :=
  if takesPart then [.call r on none] else []

variable (i : Iteration)

/-- The flags are read. -/
def head : List Mark := [.began, .sees .valve i.on.valve, .sees .pump i.on.pump]

/-- The valve is switched on. -/
def opened : List Mark := i.head ++ .activating :: attempt .valve true i.on.valve

/-- The pump is switched on. -/
def started : List Mark := i.opened ++ attempt .pump true i.on.pump

/-- The activation wait has ended. -/
def ran : List Mark := i.started ++ [.waited .activation i.ms i.stopped (!i.stopped)]

/-- The flags are read again. -/
def reread : List Mark := i.ran ++ [.sees .valve i.now.valve, .sees .pump i.now.pump]

/-- What was disabled meanwhile is switched off, the valve first. -/
def relieved : List Mark := i.reread ++ attempt .valve false (i.on.valve && !i.now.valve)

/-- Both devices that were disabled meanwhile are off. -/
def dropped : List Mark := i.relieved ++ attempt .pump false (i.on.pump && !i.now.pump)

/-- What is written before the deactivation. -/
def before : List Mark := if i.stopped then i.ran else i.dropped

/-- The devices that the deactivation switches off. -/
def left : Each Bool := if i.stopped then i.on else i.on.meet i.now

/-- The valve is switched off. -/
def closed : List Mark := i.before ++ attempt .valve false i.left.valve

/-- The gap is over, if there is one. -/
def gapped : List Mark := i.closed ++ if i.left.all then i.gap.word else []

/-- The pump is switched off. -/
def deactivated : List Mark := i.gapped ++ attempt .pump false i.left.pump

/-- Whether the job goes on after the deactivation: no stop ended the activation wait, and some
device is still enabled. -/
def goesOn : Bool := !i.stopped && i.now.any

/-- Whether both waits lasted their length. -/
def elapsed : Bool := i.goesOn && !i.cut

/-- Everything but the end of a replaced controller. A job that ends because nothing is enabled
any more has no deactivation, and a job that is stopped has no deactivation wait. -/
def switched : List Mark :=
  if i.goesOn then
    i.deactivated ++ .waited .deactivation i.rest i.cut (!i.cut) ::
      if i.cut then [] else [.told (.cycleCompleted i.cycle)]
  else if i.stopped then i.deactivated
  else i.dropped

/-- **The word of an iteration.** A controller that was replaced meanwhile gives up both lines at
the end. -/
def word : List Mark :=
  i.switched ++ if i.replaced then [.gaveUp .valve none, .gaveUp .pump none] else []

/-! ## How far an iteration is -/

/-- What follows the deactivation: a rest if the job goes on, and nothing if it is stopped. -/
structure Rests (rest : Rest) : Prop where
  goesOn : i.goesOn = rest.isSome
  stopped : i.stopped = rest.isNone

/-- The iteration is at a point, and this much of it is written. -/
inductive At : Point → List Mark → Prop
  | takingHardware : At .takingHardware [.began]
  | takingTiming : At .takingTiming [.began]
  | readingValve : At .readingValve [.began]
  | readingPump : At (.readingPump i.on.valve) [.began, .sees .valve i.on.valve]
  | readingActivation : At (.readingActivation i.on) i.head
  | enteringIrrigation (ms : UInt64) : At (.enteringIrrigation i.on ms) i.head
  | openingValve (ms : UInt64) : At (.openingValve i.on ms) i.head
  | startingPump (ms : UInt64) : At (.startingPump i.on ms) i.opened
  | irrigating (ms : UInt64) : At (.irrigating i.on ms) i.started
  | enteringIdle : At (.enteringIdle i.on i.stopped) i.ran
  | recheckingValve (h : i.stopped = false) : At (.recheckingValve i.on) i.ran
  | recheckingPump (h : i.stopped = false) :
      At (.recheckingPump i.on i.now.valve) (i.ran ++ [.sees .valve i.now.valve])
  | switchingValve (h : i.stopped = false) : At (.switchingOff i.on i.now .valve) i.reread
  | reportingValve (h : i.stopped = false) : At (.reportingOff i.on i.now .valve) i.relieved
  | switchingPump (h : i.stopped = false) : At (.switchingOff i.on i.now .pump) i.relieved
  | reportingPump (h : i.stopped = false) : At (.reportingOff i.on i.now .pump) i.dropped
  | deciding (h : i.stopped = false) : At (.deciding i.on i.now) i.dropped
  | readingDeactivation (h : i.goesOn) : At (.readingDeactivation i.left) i.dropped
  | closingValve {rest : Rest} (h : i.Rests rest) :
      At (.closingValve i.left rest) i.before
  | choosingGap {rest : Rest} (h : i.Rests rest) :
      At (.choosingGap i.left rest) i.closed
  | readingSeparation {rest : Rest} (h : i.Rests rest) (hall : i.left.all) :
      At (.readingSeparation rest) i.closed
  | openingGap {rest : Rest} (h : i.Rests rest) (hall : i.left.all) :
      At (.openingGap i.gap.ms rest) (i.closed ++ [.reads .separation i.gap.ms])
  | sleepingGap {rest : Rest} (h : i.Rests rest) (hall : i.left.all)
      (hp : i.gap.pending = true) : At (.sleepingGap i.gap.ms rest)
        (i.closed ++ [.reads .separation i.gap.ms, .gap i.gap.pending])
  | waitingGap {rest : Rest} (h : i.Rests rest) (hall : i.left.all)
      (hp : i.gap.pending = false) : At (.waitingGap i.gap.ms rest)
        (i.closed ++ [.reads .separation i.gap.ms, .gap i.gap.pending])
  | stoppingPump {rest : Rest} (h : i.Rests rest) :
      At (.stoppingPump i.left.pump rest) i.gapped
  | resting (ms : UInt64) (h : i.goesOn) : At (.resting ms) i.deactivated
  | counting (h : i.elapsed) : At .counting
      (i.deactivated ++ [.waited .deactivation i.rest i.cut (!i.cut)])
  | lettingGo : At (.lettingGo i.elapsed) i.switched
  | lettingGoPump (h : i.replaced) :
      At (.lettingGoPump i.elapsed) (i.switched ++ [.gaveUp .valve none])

/-! ## A step writes on -/

variable {i : Iteration} {p : Point} {part : List Mark}

theorem shape_attempt (r : Role) (on takesPart : Bool) (line : Option Offset) :
    shape (if takesPart then [.call r on line] else []) = attempt r on takesPart := by
  cases takesPart <;> rfl

theorem At.cast {part' : List Mark} (h : i.At p part) (he : part = part') : i.At p part' :=
  he ▸ h

/-- The word is continued at the next point, or it is complete. -/
def Continues (s : Watering) (p : Point) (part : List Mark) : Prop :=
  (∃ i : Iteration, i.At (s.nextPoint p) (part ++ shape (s.marksAt p))) ∨
    ∃ i : Iteration, s.nextPoint p = Watering.afterIteration i.elapsed ∧
      part ++ shape (s.marksAt p) = i.word

/-- A step that shows nothing of the switching. -/
theorem At.silently {s : Watering} (h : i.At (s.nextPoint p) part)
    (hshape : shape (s.marksAt p) = []) : Continues s p part :=
  .inl ⟨i, h.cast (by rw [hshape, List.append_nil])⟩

theorem shape_entering (s : Watering) (next : CycleState) : shape (s.entering next) = [] := by
  unfold Watering.entering
  split <;> rfl

theorem left_of_goesOn (h : i.goesOn = true) :
    i.stopped = false ∧ i.left = i.on.meet i.now ∧ i.before = i.dropped := by
  rw [goesOn, Bool.and_eq_true, Bool.not_eq_true'] at h
  rw [left, before, h.1]
  exact ⟨rfl, rfl, rfl⟩

theorem switched_of_goesOn (h : i.goesOn = true) : i.switched =
    i.deactivated ++ .waited .deactivation i.rest i.cut (!i.cut) ::
      if i.cut then [] else [.told (.cycleCompleted i.cycle)] := by
  rw [switched, if_pos h]

theorem switched_of_stopped (h : i.Rests none) :
    i.switched = i.deactivated ∧ i.elapsed = false := by
  have hgoes : i.goesOn = false := h.goesOn
  have hstopped : i.stopped = true := h.stopped
  rw [switched, elapsed, hgoes, hstopped]
  exact ⟨rfl, rfl⟩

/-- When the gap is over the pump is next. -/
theorem At.gapOver {rest : Rest} (h : i.Rests rest) (hall : i.left.all = true) :
    i.At (.stoppingPump true rest)
      (i.closed ++ [.reads .separation i.gap.ms, .gap i.gap.pending] ++
        [.waited .separation i.gap.ms i.gap.raised (i.gap.pending || !i.gap.raised)]) := by
  have hat := At.stoppingPump h
  rw [gapped, if_pos hall, (Bool.and_eq_true_iff.mp hall).2] at hat
  exact hat.cast (List.append_assoc i.closed [_, _] [_]).symm

/-- When the deactivation wait is over the cycle is counted, unless a stop cut the wait. -/
theorem At.rested (h : i.goesOn = true) :
    i.At (if i.cut then .lettingGo false else .counting)
      (i.deactivated ++ [.waited .deactivation i.rest i.cut (!i.cut)]) := by
  cases hcut : i.cut with
  | true =>
    have hat : i.At (.lettingGo i.elapsed) i.switched := .lettingGo
    rw [elapsed, switched_of_goesOn h, hcut, h] at hat
    exact hat
  | false =>
    have hat := At.counting (i := i) (by rw [elapsed, h, hcut]; rfl)
    rw [hcut] at hat
    exact hat

theorem At.counted (h : i.elapsed = true) :
    i.At (.lettingGo true) (i.deactivated ++ [.waited .deactivation i.rest i.cut (!i.cut)] ++
      [.told (.cycleCompleted i.cycle)]) := by
  have hat : i.At (.lettingGo i.elapsed) i.switched := .lettingGo
  have hboth := Bool.and_eq_true_iff.mp h
  have hcut : i.cut = false := by simpa using hboth.2
  rw [h, switched_of_goesOn hboth.1, hcut] at hat
  rw [hcut]
  exact hat.cast (List.append_assoc i.deactivated [_] [_]).symm

/-- **A step writes on.** -/
theorem At.next (h : i.At p part) (s : Watering) : Continues s p part := by
  cases h with
  | takingHardware => exact At.silently (i := i) (s := s) .takingTiming rfl
  | takingTiming => exact At.silently (i := i) (s := s) .readingValve rfl
  | readingValve =>
    exact .inl ⟨{ i with on := { i.on with valve := s.enabled.valve } }, .readingPump⟩
  | readingPump =>
    exact .inl ⟨{ i with on := { i.on with pump := s.enabled.pump } }, .readingActivation⟩
  | readingActivation => exact At.silently (s := s) (.enteringIrrigation _) rfl
  | enteringIrrigation ms => exact At.silently (s := s) (.openingValve _) (shape_entering ..)
  | openingValve ms =>
    refine .inl ⟨i, At.cast (.startingPump ms) ?_⟩
    exact congrArg (fun l => i.head ++ .activating :: l) (shape_attempt ..).symm
  | startingPump ms =>
    refine .inl ⟨i, At.cast (.irrigating ms) ?_⟩
    exact congrArg (i.opened ++ ·) (shape_attempt ..).symm
  | irrigating ms =>
    exact .inl ⟨{ i with ms, stopped := s.stopPending }, .enteringIdle⟩
  | enteringIdle =>
    cases hstopped : i.stopped with
    | true =>
      have hrests : i.Rests none := ⟨by rw [goesOn, hstopped]; rfl, hstopped⟩
      have hleft : i.left = i.on := by rw [left, hstopped]; rfl
      have hbefore : i.before = i.ran := by rw [before, hstopped]; rfl
      have hat := At.closingValve hrests
      rw [hleft, hbefore] at hat
      refine At.silently (i := i) ?_ (shape_entering ..)
      exact hat
    | false =>
      refine At.silently (i := i) ?_ (shape_entering ..)
      exact .recheckingValve hstopped
  | recheckingValve h =>
    exact .inl ⟨{ i with now := { i.now with valve := s.enabled.valve } }, .recheckingPump h⟩
  | recheckingPump h =>
    refine .inl ⟨{ i with now := { i.now with pump := s.enabled.pump } },
      At.cast (.switchingValve h) ?_⟩
    exact (List.append_assoc i.ran [_] [_]).symm
  | switchingValve h =>
    have hpart : i.reread ++ shape (s.marksAt (.switchingOff i.on i.now .valve)) =
        i.relieved := congrArg (i.reread ++ ·) (shape_attempt ..)
    refine .inl ⟨i, ?_⟩
    rw [hpart, Watering.nextPoint]
    split
    · exact .reportingValve h
    · exact .switchingPump h
  | reportingValve h => exact At.silently (s := s) (.switchingPump h) rfl
  | switchingPump h =>
    have hpart : i.relieved ++ shape (s.marksAt (.switchingOff i.on i.now .pump)) =
        i.dropped := congrArg (i.relieved ++ ·) (shape_attempt ..)
    refine .inl ⟨i, ?_⟩
    rw [hpart, Watering.nextPoint]
    split
    · exact .reportingPump h
    · exact .deciding h
  | reportingPump h => exact At.silently (s := s) (.deciding h) rfl
  | deciding h =>
    refine At.silently (i := i) ?_ rfl
    rw [Watering.nextPoint]
    split
    · next hany =>
      have hgoes : i.goesOn = true := by rw [goesOn, h, hany]; rfl
      rw [← (left_of_goesOn hgoes).2.1]
      exact .readingDeactivation hgoes
    · next hnone =>
      have hgoes : i.goesOn = false := by rw [goesOn, Bool.eq_false_iff.mpr hnone, Bool.and_false]
      have hat : i.At (.lettingGo i.elapsed) i.switched := .lettingGo
      rw [elapsed, switched, hgoes, h] at hat
      exact hat
  | readingDeactivation h =>
    obtain ⟨hstopped, -, hbefore⟩ := left_of_goesOn h
    refine At.silently (i := i) ?_ rfl
    rw [← hbefore]
    exact .closingValve ⟨h, hstopped⟩
  | closingValve h =>
    refine .inl ⟨i, At.cast (.choosingGap h) ?_⟩
    exact congrArg (i.before ++ ·) (shape_attempt ..).symm
  | choosingGap h =>
    refine At.silently (i := i) ?_ rfl
    rw [Watering.nextPoint]
    split
    · next hall => exact .readingSeparation h hall
    · next hall =>
      refine At.cast (.stoppingPump h) ?_
      rw [gapped, if_neg hall, List.append_nil]
  | readingSeparation h hall =>
    have hat := At.openingGap
      (i := { i with gap := { i.gap with ms := s.iterationTiming.get .separation } })
      ⟨h.goesOn, h.stopped⟩ hall
    exact .inl ⟨_, hat⟩
  | openingGap h hall =>
    refine .inl ⟨{ i with gap := { i.gap with pending := s.stopPending } }, ?_⟩
    have hpart : i.closed ++ [.reads .separation i.gap.ms] ++ [.gap s.stopPending] =
        i.closed ++ [.reads .separation i.gap.ms, .gap s.stopPending] := List.append_assoc ..
    change At _ _ (i.closed ++ [_] ++ [_])
    rw [hpart, Watering.nextPoint]
    split
    · next hp => exact .sleepingGap ⟨h.goesOn, h.stopped⟩ hall hp
    · next hp => exact .waitingGap ⟨h.goesOn, h.stopped⟩ hall (Bool.eq_false_iff.mpr hp)
  | sleepingGap h hall hp =>
    have hat := At.gapOver (i := { i with gap := ⟨i.gap.ms, i.gap.pending, s.stopPending⟩ })
      ⟨h.goesOn, h.stopped⟩ hall
    refine .inl ⟨_, hat.cast ?_⟩
    rw [hp]
    rfl
  | waitingGap h hall hp =>
    have hat := At.gapOver (i := { i with gap := ⟨i.gap.ms, i.gap.pending, s.stopPending⟩ })
      ⟨h.goesOn, h.stopped⟩ hall
    refine .inl ⟨_, hat.cast ?_⟩
    rw [hp]
    rfl
  | @stoppingPump rest h =>
    have hpart : i.gapped ++ shape (s.marksAt (.stoppingPump i.left.pump rest)) =
        i.deactivated := congrArg (i.gapped ++ ·) (shape_attempt ..)
    refine .inl ⟨i, ?_⟩
    rw [hpart]
    cases rest with
    | some ms => exact .resting ms h.goesOn
    | none =>
      obtain ⟨hswitched, helapsed⟩ := switched_of_stopped h
      have hat : i.At (.lettingGo i.elapsed) i.switched := .lettingGo
      rw [helapsed, hswitched] at hat
      exact hat
  | resting ms h =>
    exact .inl ⟨_, At.rested (i := { i with rest := ms, cut := s.stopPending }) h⟩
  | counting h => exact .inl ⟨_, At.counted (i := { i with cycle := s.cycles + 1 }) h⟩
  | lettingGo =>
    unfold Continues
    rw [Watering.nextPoint, Watering.marksAt]
    split
    · exact .inl ⟨{ i with replaced := true }, .lettingGoPump rfl⟩
    · exact .inr ⟨{ i with replaced := false }, rfl, rfl⟩
  | lettingGoPump h =>
    refine .inr ⟨i, rfl, ?_⟩
    rw [word, if_pos h]
    exact List.append_assoc i.switched [_] [_]

/-! ## What is written is the beginning of the word -/

theorem deactivated_prefix_switched {rest : Rest} (h : i.Rests rest) :
    i.deactivated <+: i.switched := by
  cases rest with
  | some ms =>
    rw [switched_of_goesOn h.goesOn]
    exact List.prefix_append ..
  | none =>
    exact ⟨[], by rw [List.append_nil, (switched_of_stopped h).1]⟩

theorem gapped_prefix_switched {rest : Rest} (h : i.Rests rest) : i.gapped <+: i.switched :=
  (List.prefix_append i.gapped _).trans (deactivated_prefix_switched h)

theorem closed_prefix_switched {rest : Rest} (h : i.Rests rest) : i.closed <+: i.switched :=
  (List.prefix_append i.closed _).trans (gapped_prefix_switched h)

theorem before_prefix_switched {rest : Rest} (h : i.Rests rest) : i.before <+: i.switched :=
  (List.prefix_append i.before _).trans (closed_prefix_switched h)

theorem dropped_prefix_switched (h : i.stopped = false) : i.dropped <+: i.switched := by
  cases hgoes : i.goesOn with
  | true =>
    have hrests : i.Rests (some i.rest) := ⟨hgoes, h⟩
    have hpre := before_prefix_switched hrests
    rw [(left_of_goesOn hgoes).2.2] at hpre
    exact hpre
  | false =>
    rw [switched, hgoes, h]
    exact List.prefix_refl _

theorem reread_prefix_switched (h : i.stopped = false) : i.reread <+: i.switched :=
  ((List.prefix_append i.reread _).trans (List.prefix_append i.relieved _)).trans
    (dropped_prefix_switched h)

theorem ran_prefix_switched (i : Iteration) : i.ran <+: i.switched := by
  cases hstopped : i.stopped with
  | true =>
    have hrests : i.Rests none := ⟨by rw [goesOn, hstopped]; rfl, hstopped⟩
    have hpre := before_prefix_switched hrests
    rw [before, hstopped] at hpre
    exact hpre
  | false => exact (List.prefix_append i.ran _).trans (reread_prefix_switched hstopped)

theorem opened_prefix_switched (i : Iteration) : i.opened <+: i.switched :=
  ((List.prefix_append i.opened _).trans (List.prefix_append i.started _)).trans
    (ran_prefix_switched i)

theorem head_prefix_switched (i : Iteration) : i.head <+: i.switched :=
  (List.prefix_append i.head _).trans (opened_prefix_switched i)

/-- A part of the gap. -/
theorem closed_append_prefix_switched {rest : Rest} (h : i.Rests rest) (hall : i.left.all = true)
    {some : List Mark} (hsome : some <+: i.gap.word) : i.closed ++ some <+: i.switched := by
  refine List.IsPrefix.trans ?_ (gapped_prefix_switched h)
  rw [gapped, if_pos hall]
  exact (List.prefix_append_right_inj _).mpr hsome

theorem At.prefix_switched (h : i.At p part) (hp : p.forgets = false) :
    part <+: i.switched := by
  cases h with
  | takingHardware => exact .trans ⟨[_, _], rfl⟩ (head_prefix_switched i)
  | takingTiming => exact .trans ⟨[_, _], rfl⟩ (head_prefix_switched i)
  | readingValve => exact .trans ⟨[_, _], rfl⟩ (head_prefix_switched i)
  | readingPump => exact .trans ⟨[_], rfl⟩ (head_prefix_switched i)
  | readingActivation => exact head_prefix_switched i
  | enteringIrrigation ms => exact head_prefix_switched i
  | openingValve ms => exact head_prefix_switched i
  | startingPump ms => exact opened_prefix_switched i
  | irrigating ms => exact (List.prefix_append i.started _).trans (ran_prefix_switched i)
  | enteringIdle => exact ran_prefix_switched i
  | recheckingValve h => exact ran_prefix_switched i
  | recheckingPump h =>
    refine .trans ⟨[.sees .pump i.now.pump], ?_⟩ (reread_prefix_switched h)
    exact List.append_assoc i.ran [_] [_]
  | switchingValve h => exact reread_prefix_switched h
  | reportingValve h => exact (List.prefix_append i.relieved _).trans (dropped_prefix_switched h)
  | switchingPump h => exact (List.prefix_append i.relieved _).trans (dropped_prefix_switched h)
  | reportingPump h => exact dropped_prefix_switched h
  | deciding h => exact dropped_prefix_switched h
  | readingDeactivation h => exact dropped_prefix_switched (left_of_goesOn h).1
  | closingValve h => exact before_prefix_switched h
  | choosingGap h => exact closed_prefix_switched h
  | readingSeparation h hall => exact closed_prefix_switched h
  | openingGap h hall => exact closed_append_prefix_switched h hall ⟨[_, _], rfl⟩
  | sleepingGap h hall hp => exact closed_append_prefix_switched h hall ⟨[_], rfl⟩
  | waitingGap h hall hp => exact closed_append_prefix_switched h hall ⟨[_], rfl⟩
  | stoppingPump h => exact gapped_prefix_switched h
  | resting ms h =>
    have hrests : i.Rests (some ms) := ⟨h, (left_of_goesOn h).1⟩
    exact deactivated_prefix_switched hrests
  | counting h =>
    have hgoes := (Bool.and_eq_true_iff.mp h).1
    rw [switched_of_goesOn hgoes]
    refine (List.prefix_append_right_inj _).mpr ?_
    exact (List.cons_prefix_cons).mpr ⟨rfl, List.nil_prefix⟩
  | lettingGo => exact List.prefix_refl _
  | lettingGoPump h => cases hp

/-- **What is written at a point is the beginning of the word.** -/
theorem At.prefix_word (h : i.At p part) : part <+: i.word := by
  cases hp : p.forgets with
  | false => exact (h.prefix_switched hp).trans (List.prefix_append ..)
  | true =>
    cases h with
    | lettingGoPump h =>
      rw [word, if_pos h]
      exact (List.prefix_append_right_inj _).mpr ⟨[_], rfl⟩
    | _ => cases hp

/-! ## Every device of the iteration is switched on once and off once -/

/-- How often it is tried to switch a device on, or off. What is given up in a drop does not
count. -/
def tally (r : Role) (on : Bool) (marks : List Mark) : Nat := marks.count (.call r on none)

theorem tally_append (r : Role) (on : Bool) (marks new : List Mark) :
    tally r on (marks ++ new) = tally r on marks + tally r on new :=
  List.count_append

theorem tally_attempt (r role : Role) (on b takesPart : Bool) :
    tally r on (attempt role b takesPart) =
      if (r = role ∧ on = b) ∧ takesPart = true then 1 else 0 := by
  cases r <;> cases role <;> cases on <;> cases b <;> cases takesPart <;> rfl

theorem tally_ran (r : Role) (on : Bool) :
    tally r on i.ran = if on = true ∧ i.on.get r = true then 1 else 0 := by
  have hhead : tally r on i.head = 0 := rfl
  have hwait : tally r on [.waited .activation i.ms i.stopped (!i.stopped)] = 0 := rfl
  have hopened : tally r on (.activating :: attempt .valve true i.on.valve) =
    tally r on (attempt .valve true i.on.valve) := rfl
  rw [ran, started, opened, tally_append, tally_append, tally_append, hhead, hwait, hopened,
    tally_attempt, tally_attempt]
  cases r <;> cases on <;> simp [Each.get]

theorem tally_dropped (r : Role) (on : Bool) :
    tally r on i.dropped = tally r on i.ran +
      if on = false ∧ (i.on.get r && !i.now.get r) = true then 1 else 0 := by
  have hreread : tally r on [.sees .valve i.now.valve, .sees .pump i.now.pump] = 0 := rfl
  rw [dropped, relieved, reread, tally_append, tally_append, tally_append, hreread, tally_attempt,
    tally_attempt]
  cases r <;> cases on <;> simp [Each.get]

theorem tally_deactivated (r : Role) (on : Bool) :
    tally r on i.deactivated =
      tally r on i.before + if on = false ∧ i.left.get r = true then 1 else 0 := by
  have hgap : tally r on (if i.left.all then i.gap.word else []) = 0 := by
    cases i.left.all <;> rfl
  rw [deactivated, gapped, closed, tally_append, tally_append, tally_append, hgap, tally_attempt,
    tally_attempt]
  cases r <;> cases on <;> simp [Each.get]

/-- **A device of the iteration is switched on once and off once, and no other is switched**, the
drop of a replaced controller apart. -/
theorem tally_word (i : Iteration) (r : Role) (on : Bool) :
    tally r on i.word = if i.on.get r then 1 else 0 := by
  have hend : tally r on (if i.replaced then [.gaveUp .valve none, .gaveUp .pump none] else []) =
      0 := by
    cases i.replaced <;> rfl
  rw [word, tally_append, hend, switched]
  split
  · next hgoes =>
    obtain ⟨-, hleft, hbefore⟩ := left_of_goesOn hgoes
    have hrest : tally r on (.waited .deactivation i.rest i.cut (!i.cut) ::
        if i.cut then [] else [.told (.cycleCompleted i.cycle)]) = 0 := by
      cases i.cut <;> rfl
    rw [tally_append, hrest, tally_deactivated, hbefore, hleft, tally_dropped, tally_ran,
      Each.get_meet]
    cases on <;> cases i.on.get r <;> cases i.now.get r <;> rfl
  · next hgoes =>
    split
    · next hstopped =>
      rw [tally_deactivated, before, left, if_pos hstopped, if_pos hstopped, tally_ran]
      cases on <;> cases i.on.get r <;> rfl
    · next hstopped =>
      -- Nothing is enabled any more, so every device that is on was disabled meanwhile.
      have hnow : i.now.get r = false := by
        rw [goesOn, Bool.eq_false_iff.mpr hstopped, Bool.not_false, Bool.true_and, Each.any,
          Bool.or_eq_true, not_or] at hgoes
        cases r with
        | valve => exact Bool.eq_false_iff.mpr hgoes.1
        | pump => exact Bool.eq_false_iff.mpr hgoes.2
      rw [tally_dropped, tally_ran, hnow]
      cases on <;> cases i.on.get r <;> rfl

end Iteration

end Irrigation
