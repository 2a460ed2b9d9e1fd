import Irrigation.Proofs.World.Laps
import Irrigation.Proofs.World.Story

/-!
# The order of telling

What is told in a reachable world is a row of stories (`World.Storied`). This module says what goes
with it: the changes that were told lead to the state of the job (`Reachable.followed`), a job is
only torn down before its first iteration if a stop was pending then (`Reachable.early`), and a
cycle is counted once for each iteration whose two waits lasted their length.
-/

namespace Irrigation

/-! ## What is counted -/

/-- Whether a mark says that a wait lasted its length, with no stop by its end. -/
def Mark.lasts (which : Interval) : Mark → Bool
  | .waited w _ raised full => w = which && !raised && full
  | _ => false

theorem completes_shape (trace : List Mark) :
    (trace.filterMap Mark.event?).countP Event.completes =
      (shape trace).countP Mark.completes := by
  rw [shape, List.countP_filterMap, List.countP_filterMap]
  refine List.countP_congr fun m _ => ?_
  cases m with
  | told e => cases e <;> exact Iff.rfl
  | reads which ms => cases which <;> exact Iff.rfl
  | _ => exact Iff.rfl

namespace Iteration

variable (i : Iteration)

theorem completes_attempt (r : Role) (on takesPart : Bool) :
    (attempt r on takesPart).countP Mark.completes = 0 := by
  cases takesPart <;> rfl

theorem completes_deactivated : i.deactivated.countP Mark.completes = 0 ∧
    i.dropped.countP Mark.completes = 0 := by
  have hran : i.ran.countP Mark.completes = 0 := by
    simp [ran, started, opened, head, completes_attempt, Mark.completes]
  have hdropped : i.dropped.countP Mark.completes = 0 := by
    simp [dropped, relieved, reread, hran, completes_attempt, Mark.completes]
  have hbefore : i.before.countP Mark.completes = 0 := by
    rw [before]
    split <;> assumption
  have hgap : (if i.left.all then i.gap.word else []).countP Mark.completes = 0 := by
    split <;> rfl
  refine ⟨?_, hdropped⟩
  rw [deactivated, gapped, closed, List.countP_append, List.countP_append, List.countP_append,
    hbefore, hgap, completes_attempt, completes_attempt]

/-- **A cycle is counted once if both waits lasted their length, and else not at all.** -/
theorem completes_word : i.word.countP Mark.completes = if i.elapsed then 1 else 0 := by
  obtain ⟨hdeactivated, hdropped⟩ := i.completes_deactivated
  have hend : (if i.replaced then [.gaveUp .valve none, .gaveUp .pump none] else
      []).countP Mark.completes = 0 := by
    split <;> rfl
  rw [word, List.countP_append, hend, switched, elapsed]
  cases i.goesOn with
  | true =>
    rw [if_pos rfl, List.countP_append, hdeactivated]
    cases i.cut <;> rfl
  | false =>
    split
    · next h => cases h
    · split <;> assumption

theorem lasts_attempt (which : Interval) (r : Role) (on takesPart : Bool) :
    (attempt r on takesPart).any (Mark.lasts which) = false := by
  cases takesPart <;> rfl

theorem lasts_ran (which : Interval) :
    i.ran.any (Mark.lasts which) = (decide (.activation = which) && !i.stopped) := by
  simp [ran, started, opened, head, lasts_attempt, Mark.lasts]

theorem lasts_dropped (which : Interval) :
    i.dropped.any (Mark.lasts which) = (decide (.activation = which) && !i.stopped) := by
  simp [dropped, relieved, reread, lasts_ran, lasts_attempt, Mark.lasts]

theorem lasts_deactivated {which : Interval} (h : which ≠ .separation) :
    i.deactivated.any (Mark.lasts which) = (decide (.activation = which) && !i.stopped) := by
  have hbefore : i.before.any (Mark.lasts which) =
      (decide (.activation = which) && !i.stopped) := by
    rw [before]
    split
    · exact i.lasts_ran which
    · exact i.lasts_dropped which
  have hgap : (if i.left.all then i.gap.word else []).any (Mark.lasts which) = false := by
    split
    · simp [Gap.word, Mark.lasts, h.symm]
    · rfl
  rw [deactivated, gapped, closed, List.any_append, List.any_append, List.any_append, hbefore, hgap,
    lasts_attempt, lasts_attempt]
  simp

theorem lasts_word {which : Interval} (h : which ≠ .separation) :
    i.word.any (Mark.lasts which) = (decide (.activation = which) && !i.stopped ||
      decide (.deactivation = which) && i.elapsed) := by
  have hend : (if i.replaced then [.gaveUp .valve none, .gaveUp .pump none] else
      []).any (Mark.lasts which) = false := by
    split <;> rfl
  rw [word, List.any_append, hend, switched, elapsed]
  cases i.goesOn with
  | true =>
    rw [if_pos rfl, List.any_append, i.lasts_deactivated h]
    cases i.cut <;> simp [Mark.lasts]
  | false =>
    simp only [Bool.false_eq_true, if_false]
    split
    · rw [i.lasts_deactivated h]
      simp
    · rw [i.lasts_dropped]
      simp

/-- Both waits lasted their length if the word says so of each. -/
theorem elapsed_eq : i.elapsed =
    (i.word.any (Mark.lasts .activation) && i.word.any (Mark.lasts .deactivation)) := by
  rw [i.lasts_word (show Interval.activation ≠ .separation by rintro ⟨⟩),
    i.lasts_word (show Interval.deactivation ≠ .separation by rintro ⟨⟩), elapsed, goesOn]
  cases i.stopped <;> simp

theorem completes_flatMap (done : List Iteration) :
    (done.flatMap word).countP Mark.completes = done.countP elapsed := by
  induction done with
  | nil => rfl
  | cons i rest ih =>
    rw [List.flatMap_cons, List.countP_append, ih, i.completes_word, List.countP_cons, Nat.add_comm]

end Iteration

namespace World

variable {w w' : World}

/-! ## The changes lead to the state -/

/-- The changes that were told lead from the disabled state to that of the job. -/
def Followed (w : World) : Prop :=
  (w.trace.filterMap Mark.event?).foldlM CycleState.follow .disabled = some w.system.state

theorem follow_entering (s : Watering) (next : CycleState) :
    ((s.entering next).filterMap Mark.event?).foldlM CycleState.follow s.state = some next := by
  unfold Watering.entering
  split
  · next h =>
    rw [h]
    rfl
  · simp [Mark.event?, CycleState.follow]

theorem follow_marksAt (s : Watering) (p : Point) :
    ((s.marksAt p).filterMap Mark.event?).foldlM CycleState.follow s.state =
      some (s.stateAfter p) := by
  cases p with
  | enteringIrrigation on ms => exact follow_entering s _
  | enteringIdle on stopped => exact follow_entering s _
  | enteringTearDown => exact follow_entering s _
  | enteringDisabled => exact follow_entering s _
  | counting => rfl
  | finishing => rfl
  | _ =>
    rw [events_of_not_tells rfl]
    rfl

theorem Followed.stay (h : w.Followed) (hstate : w'.system.state = w.system.state)
    (ht : w'.trace = w.trace) : w'.Followed := by
  unfold Followed
  rw [hstate, ht]
  exact h

theorem Followed.next (h : w.Followed) (hsteady : w.Steady) {m : Move}
    (hm : w.next m = some w') : w'.Followed := by
  cases next_turn hm with
  | worked hwork hs hc ht =>
    obtain ⟨p, s', hp, -, hmarks, hstep, ha⟩ := hsteady.step hwork
    have hstate : w'.system.state = Watering.stateAfter (w.system.actAs .worker) p := by
      rw [hs, hstep]
      exact ha.state
    unfold Followed
    rw [ht, List.filterMap_append, List.foldlM_append, h, hmarks, hstate]
    exact follow_marksAt (w.system.actAs .worker) p
  | started flow hfree hrefusal hs hc ht =>
    have hstate : w'.system.state = w.system.state := by
      rw [hs, (hsteady.start_eq hrefusal).2]
    unfold Followed
    rw [ht, List.filterMap_append, List.foldlM_append, h, hstate]
    rfl
  | asked origin hfree hjob hs hc ht => exact h.stay (by rw [hs]; rfl) ht
  | declined origin hfree hjob hs hc ht =>
    exact h.stay (by rw [hs, hsteady.declineStop_eq]) ht
  | raised origin hraising hs hc ht => exact h.stay (by rw [hs]; rfl) ht
  | joined origin hwaiting hover hs hc ht =>
    exact h.stay (by rw [hs, hsteady.concludeStop_eq]) ht
  | kept hs hc ht => exact h.stay hs.state ht

theorem Reachable.followed (h : w.Reachable) : w.Followed := by
  induction h with
  | @wired path lines pins timing enabled s before rig guests hbefore hwired =>
    obtain ⟨rig', -, -, -, hs⟩ := wire_eq_ok hwired
    unfold Followed
    rw [hs]
    rfl
  | move hw hm ih => exact ih.next hw.steady hm

/-! ## A stop before the first iteration -/

/-- Nothing was seen of the worker since the job was started. -/
def JustStarted (w : World) : Prop := w.trace.getLast? = some (.told .started)

/-- What a point says about the begin of the job: `just` is that nothing was seen since. -/
def Fresh (s : Watering) (just : Prop) : Point → Prop
  | .starting => just
  | .loopHead => s.cycles = 0 → just
  | .lettingGo again => again = true → 0 < s.cycles
  | .lettingGoPump again => again = true → 0 < s.cycles
  | .enteringTearDown => s.state = .disabled → just ∧ s.stopPending = true
  | _ => True

theorem eq_zero_of_between {n : Nat} (h : CycleState.between n = .disabled) : n = 0 := by
  unfold CycleState.between at h
  split at h
  · assumption
  · cases h

theorem Fresh.afterIteration {s s' : Watering} {just : Prop} {again : Bool}
    (h : again = true → 0 < s.cycles)
    (hstate : (if again then Phase.heading else .idling).Allows s.cycles s.state)
    (hcycles : s'.cycles = s.cycles) (hstate' : s'.state = s.state) :
    Fresh s' just (Watering.afterIteration again) := by
  cases again with
  | true =>
    intro hzero
    rw [hcycles] at hzero
    exact absurd (h rfl) (by rw [hzero]; exact Nat.lt_irrefl 0)
  | false =>
    intro hdisabled
    have hidling : s.state = .idling := hstate
    rw [hstate', hidling] at hdisabled
    cases hdisabled

theorem Fresh.next {s s' : Watering} {p : Point} {just just' : Prop} (h : Fresh s just p)
    (hstate : p.phase.Allows s.cycles s.state) (ha : s.Advances p s')
    (hjust : s.marksAt p = [] → just → just') : Fresh s' just' (s.nextPoint p) := by
  have hcycles := ha.cycles
  have hstate' := ha.state
  cases p with
  | starting => exact fun _ => hjust rfl h
  | loopHead =>
    rw [Watering.nextPoint]
    split
    · next hstop =>
      intro hdisabled
      have hbetween : s.state = .between s.cycles := hstate
      rw [hstate', show s.stateAfter .loopHead = s.state from rfl, hbetween] at hdisabled
      refine ⟨hjust (by rw [Watering.marksAt, if_pos hstop]) (h ?_), ha.stop.trans hstop⟩
      exact eq_zero_of_between hdisabled
    · trivial
  | counting =>
    intro _
    rw [hcycles, if_pos rfl]
    exact Nat.succ_pos _
  | lettingGo again =>
    rw [Watering.nextPoint]
    split
    · intro hagain
      rw [hcycles]
      exact h hagain
    · exact .afterIteration h hstate hcycles hstate'
  | lettingGoPump again => exact .afterIteration h hstate hcycles hstate'
  | switchingOff on now r =>
    rw [Watering.nextPoint]
    split
    · trivial
    · cases r <;> trivial
  | reportingOff on now r => cases r <;> trivial
  | deciding on now =>
    rw [Watering.nextPoint]
    split
    · trivial
    · rintro ⟨⟩
  | stoppingPump on rest =>
    cases rest with
    | some ms => trivial
    | none => rintro ⟨⟩
  | resting ms =>
    rw [Watering.nextPoint]
    split
    · rintro ⟨⟩
    · trivial
  | enteringIdle on stopped => cases stopped <;> trivial
  | choosingGap on rest =>
    rw [Watering.nextPoint]
    split <;> trivial
  | openingGap ms rest =>
    rw [Watering.nextPoint]
    split <;> trivial
  | _ => trivial

/-- A job is torn down before its first iteration only if a stop is pending. -/
def Early (w : World) : Prop :=
  ∀ p, w.system.point? = some p → Fresh w.system w.JustStarted p

theorem Early.stay (h : w.Early) (hpoint : w'.system.point? = w.system.point?)
    (hcycles : w'.system.cycles = w.system.cycles) (hstate : w'.system.state = w.system.state)
    (hstop : w.system.stopPending = true → w'.system.stopPending = true)
    (ht : w'.trace = w.trace) : w'.Early := by
  intro p hp
  rw [hpoint] at hp
  have hfresh := h p hp
  unfold JustStarted at hfresh ⊢
  rw [ht]
  cases p with
  | loopHead => exact fun hzero => hfresh (hcycles.symm.trans hzero)
  | lettingGo again =>
    intro hagain
    rw [hcycles]
    exact hfresh hagain
  | lettingGoPump again =>
    intro hagain
    rw [hcycles]
    exact hfresh hagain
  | enteringTearDown =>
    intro hdisabled
    obtain ⟨hjust, hpending⟩ := hfresh (hstate.symm.trans hdisabled)
    exact ⟨hjust, hstop hpending⟩
  | _ => exact hfresh

theorem Early.next (h : w.Early) (hsteady : w.Steady) {m : Move}
    (hm : w.next m = some w') : w'.Early := by
  cases next_turn hm with
  | worked hwork hs hc ht =>
    obtain ⟨p, s', hp, -, hmarks, hstep, ha⟩ := hsteady.step hwork
    intro q hq
    rw [hs, hstep] at hq ⊢
    rw [show (s'.actAs .caller).point? = s'.point? from rfl, ha.point] at hq
    obtain rfl := Option.some.inj hq
    have hnext : Fresh s' w'.JustStarted _ :=
      (h p hp).next (s := w.system.actAs .worker) (hsteady.settled p hp).state ha
        (fun hnone hjust => by
          rw [JustStarted, ht, hmarks, hnone, List.append_nil]
          exact hjust)
    exact hnext
  | started flow hfree hrefusal hs hc ht =>
    intro p hp
    rw [hs, (hsteady.start_eq hrefusal).2] at hp
    obtain rfl := Option.some.inj hp
    change w'.JustStarted
    rw [JustStarted, ht]
    simp
  | asked origin hfree hjob hs hc ht =>
    refine h.stay ?_ ?_ ?_ ?_ ht <;> rw [hs]
    · rfl
    · rfl
    · rfl
    · exact id
  | declined origin hfree hjob hs hc ht =>
    intro p hp
    rw [hs, hsteady.declineStop_eq] at hp
    cases hp
  | raised origin hraising hs hc ht =>
    obtain ⟨worker, hrun⟩ := hsteady.exists_run (by rw [hraising]; rintro ⟨⟩)
    refine h.stay (by rw [hs, point?_raiseStop]) (by rw [hs]; rfl) (by rw [hs]; rfl) ?_ ht
    intro _
    rw [hs, Watering.raiseStop, Watering.stopPending, hrun]
    rfl
  | joined origin hwaiting hover hs hc ht =>
    intro p hp
    rw [hs, hsteady.concludeStop_eq] at hp
    cases hp
  | kept hs hc ht =>
    exact h.stay hs.point hs.cycles hs.state (fun hpending => hs.stop.trans hpending) ht

theorem Reachable.early (h : w.Reachable) : w.Early := by
  induction h with
  | @wired path lines pins timing enabled s before rig guests hbefore hwired =>
    obtain ⟨rig', -, -, -, hs⟩ := wire_eq_ok hwired
    intro p hp
    rw [hs] at hp
    cases hp
  | move hw hm ih => exact ih.next hw.steady hm

/-- The worker tears a job down from the disabled state only at one point. -/
theorem of_torn_mem_marksAt {s : Watering} {p : Point}
    (h : .told (.stateChanged .disabled .tearingDown) ∈ s.marksAt p) :
    p = .enteringTearDown ∧ s.state = .disabled := by
  revert h
  fun_cases Watering.marksAt s p <;> intro h <;> simp [Watering.entering] at h
  · exact ⟨rfl, h.2.symm⟩

/-! ## What follows -/

/-- What it means that the operator of a world is told in order. -/
structure TellsInOrder (w : World) : Prop where
  /-- What was told, notices aside, is a row of stories; the last one may be incomplete while its
  job is running. -/
  stories : ∃ (done : List Story) (part : List Event),
    w.system.rig.events = done.flatMap Story.word ++ part ∧ (∃ s : Story, part <+: s.word) ∧
      (w.system.running = false → part = [])
  /-- A story ends with the number of its completed cycles. -/
  ends : ∀ s : Story, s.word.getLast? = some (.stopped (s.word.countP Event.completes))
  /-- Each change begins where the one before ended, and the last one ended in the state of the
  job. -/
  followed : w.system.rig.events.foldlM CycleState.follow .disabled = some w.system.state
  /-- Irrigation is never followed by anything but idling. -/
  idles : ∀ s : CycleState, .stateChanged .irrigating s ∈ w.system.rig.events → s = .idling
  /-- A job is torn down from the disabled state only if a stop is pending and nothing was seen of
  its worker. -/
  early : .told (.stateChanged .disabled .tearingDown) ∈ w.system.marks →
    w.system.stopPending = true ∧ w.JustStarted
  /-- A word of an iteration tells of one cycle if its two waits lasted their length, and else of
  none. -/
  once : ∀ i : Iteration, i.word.countP Mark.completes =
    if i.word.any (Mark.lasts .activation) && i.word.any (Mark.lasts .deactivation) then 1 else 0
  /-- So there is one completed cycle for each iteration whose two waits lasted their length. -/
  counted : ∃ (done : List Iteration) (part : List Mark),
    shape w.trace = done.flatMap Iteration.word ++ part ∧ (∃ i : Iteration, part <+: i.word) ∧
      w.system.rig.events.countP Event.completes = (done.countP fun i =>
        i.word.any (Mark.lasts .activation) && i.word.any (Mark.lasts .deactivation)) +
          part.countP Mark.completes

/-- **The operator is told in order**, whatever the caller does meanwhile. -/
theorem tells_in_order (h : w.Reachable) : w.TellsInOrder where
  stories := by
    obtain ⟨done, part, htold, hbegin, hpart⟩ := h.storied.words
    exact ⟨done, part, h.recorded.events.trans htold, hbegin,
      fun hidle => hpart (h.steady.not_working hidle)⟩
  ends := fun s => by
    rw [s.completes_word, Story.word]
    simp
  followed := by
    rw [h.recorded.events]
    exact h.followed
  idles := by
    intro s hmem
    obtain ⟨done, part, htold, ⟨story, hbegin⟩, -⟩ := h.storied.words
    rw [h.recorded.events, htold] at hmem
    rcases List.mem_append.mp hmem with hmem | hmem
    · obtain ⟨story, -, hstory⟩ := List.mem_flatMap.mp hmem
      exact Story.idling_of_mem_word hstory
    · exact Story.idling_of_mem_word (hbegin.mem hmem)
  early := by
    intro hmem
    rw [Watering.marks] at hmem
    cases hp : w.system.point? with
    | none =>
      rw [hp] at hmem
      cases hmem
    | some p =>
      rw [hp] at hmem
      obtain ⟨rfl, hdisabled⟩ := of_torn_mem_marksAt hmem
      obtain ⟨hjust, hpending⟩ := h.early _ hp hdisabled
      exact ⟨hpending, hjust⟩
  once := fun i => by rw [i.completes_word, i.elapsed_eq]
  counted := by
    obtain ⟨done, part, hshape, hbegin, -⟩ := h.words
    refine ⟨done, part, hshape, hbegin, ?_⟩
    rw [h.recorded.events, completes_shape, hshape, List.countP_append,
      Iteration.completes_flatMap]
    exact congrArg (· + _) (List.countP_congr fun i _ => by rw [i.elapsed_eq])

/-- A job is stopped before its first iteration, and the next one begins. -/
theorem in_order_over_two_jobs : ∃ w : World,
    after ⟨⟨17, .activeHigh⟩, ⟨27, .activeLow⟩⟩
      (.call (.start none) :: .call (.askStop .emergencyAbort) :: .raiseStop ::
        List.replicate 6 .work ++ .joinWorker :: .call (.start none) ::
          List.replicate 8 .work) = some w ∧
    w.system.rig.events = [.started, .stateChanged .disabled .tearingDown,
      .stateChanged .tearingDown .disabled, .stopped 0, .started,
      .stateChanged .disabled .irrigating] ∧
    w.TellsInOrder := by
  obtain ⟨w, hw, hfacts⟩ := (Option.any_eq_true
    (fun w : World => w.system.rig.events == [.started, .stateChanged .disabled .tearingDown,
      .stateChanged .tearingDown .disabled, .stopped 0, .started,
      .stateChanged .disabled .irrigating]) _).mp
    (show Option.any _ (after ⟨⟨17, .activeHigh⟩, ⟨27, .activeLow⟩⟩
      (.call (.start none) :: .call (.askStop .emergencyAbort) :: .raiseStop ::
        List.replicate 6 .work ++ .joinWorker :: .call (.start none) ::
          List.replicate 8 .work)) = true by rfl)
  exact ⟨w, hw, by simpa using hfacts, tells_in_order (reachable_of_after hw)⟩

end World

end Irrigation
